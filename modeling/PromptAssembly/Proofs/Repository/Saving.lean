import PromptAssembly.Proofs.Files.Making
import PromptAssembly.Proofs.Prompt.Storing
import PromptAssembly.Proofs.Repository.Lookup

/-!
# Saving

A save writes the file with the name of its task type, and whoever finds that file reads what was
saved (`readManifest_of_saved`). So it is loaded again under its task type (`load_after_save`), if
no mapping leads elsewhere.
-/
namespace PromptAssembly.Repository.Directory
open Prompt (Config Fragment)
open Files (Path Entry Grows)

variable {d : Directory} {f g made : Files} {p q : Path} {t ext : String} {c : Config}
  {place : List String}

/-- A save goes through all its steps: the root is made, then the file is written. -/
theorem exists_of_savePrompt (saved : d.savePrompt c f = (.ok (), g)) : c.taskType ≠ "" ∧
    Path.isConfined c.taskType = true ∧ ∃ made, f.createAll d.root = (.ok (), made) ∧
      made.write (d.named c.taskType "yaml") c.print.toUTF8 = .ok g := by
  unfold savePrompt at saved
  split at saved
  · simp at saved
  · next hne =>
    cases hroot : f.createAll d.root with
    | mk result made =>
      cases result with
      | error e => simp [hroot] at saved
      | ok =>
        by_cases hconf : Path.isConfined c.taskType
        · simp only [hroot, pathFor_eq, if_pos hconf] at saved
          cases hwrite : made.overwrite (d.named c.taskType "yaml") c.print.toUTF8 with
          | mk result h =>
            cases result with
            | error e => simp [-String.toUTF8_eq_toByteArray, hwrite] at saved
            | ok =>
              obtain rfl : h = g := by simpa [-String.toUTF8_eq_toByteArray, hwrite] using saved
              exact ⟨by simpa using hne, hconf, made, rfl, Files.write_of_overwrite hwrite⟩
        · simp [hroot, pathFor_eq, hconf] at saved

def unwritten (p : Path) (fault : Files.Fault) : Error :=
  .storage s!"Failed to write prompt config to {p}: {fault.message}"

/-- How far a save has come that fails. -/
inductive Stopped (d : Directory) (c : Config) (f g : Files) (e : Error) : Prop
  | atOnce (nothing : c.taskType = "") (same : g = f)
  | beforeFile (something : c.taskType ≠ "") (root : g = (f.createAll d.root).2)
  | amidFile {made : Files} {size : Nat} {fault : Files.Fault} (something : c.taskType ≠ "")
      (confined : Path.isConfined c.taskType = true) (root : f.createAll d.root = (.ok (), made))
      (room : made.room = some (size, fault)) (short : size < c.print.toUTF8.size)
      (written : made.write (d.named c.taskType "yaml") (c.print.toUTF8.extract 0 size) = .ok g)
      (cause : e = unwritten (d.named c.taskType "yaml") fault)

theorem stopped_of_savePrompt {e : Error} (failed : d.savePrompt c f = (.error e, g)) :
    Stopped d c f g e := by
  unfold savePrompt at failed
  split at failed
  · next empty => exact .atOnce (String.isEmpty_iff.1 empty) (Prod.mk.inj failed).2.symm
  · next hne =>
    have something : c.taskType ≠ "" := by simpa using hne
    cases hroot : f.createAll d.root with
    | mk result made =>
      have before (same : made = g) : Stopped d c f g e := .beforeFile something (by simp [hroot, same])
      cases result with
      | error cause => exact before (by simpa [hroot] using congrArg Prod.snd failed)
      | ok =>
        by_cases hconf : Path.isConfined c.taskType
        · simp only [hroot, pathFor_eq, if_pos hconf] at failed
          cases hwrite : made.overwrite (d.named c.taskType "yaml") c.print.toUTF8 with
          | mk result k =>
            simp only [hwrite] at failed
            cases result with
            | ok => simp at failed
            | error fault =>
              obtain ⟨hcause, rfl⟩ := Prod.mk.inj failed
              rcases Files.exists_of_failed_overwrite hwrite with same | ⟨size, short, room, written⟩
              · exact before same.symm
              · exact .amidFile something hconf hroot room short written
                  (Except.error.inj hcause).symm
        · exact before (by simpa [hroot, pathFor_eq, hconf] using congrArg Prod.snd failed)

theorem exists_of_saved (saved : d.savePrompt c f = (.ok (), g)) : ∃ made place,
    f.createAll d.root = (.ok (), made) ∧ g = made.put place (.file c.print.toUTF8) ∧
      made.Free place ∧
        g.resolve (d.named c.taskType "yaml") = .ok place := by
  obtain ⟨-, -, made, hmade, hwrite⟩ := exists_of_savePrompt saved
  obtain ⟨place, hg, free, hplace⟩ := Files.exists_of_write hwrite
  exact ⟨made, place, hmade, hg, free, hplace⟩

theorem readManifest_of_saved (lasting : c.Lasting) (saved : d.savePrompt c f = (.ok (), g))
    (meet : g.Meet q (d.named c.taskType "yaml")) : readManifest g q = .ok c := by
  obtain ⟨hne, -, -⟩ := exists_of_savePrompt saved
  obtain ⟨made, place, -, rfl, free, hplace⟩ := exists_of_saved saved
  have hentry : (made.put place (.file c.print.toUTF8)).entryAt? place =
      some (.file c.print.toUTF8) := by
    rw [Files.entryAt?_put, if_neg free.ne_nil, if_pos rfl]
  have hfind := meet.find (Files.find_of_resolve hplace hentry)
  exact readManifest_eq_ok_iff.2 ⟨_, _, hfind, fromUTF8?_toUTF8 _, lasting.parse_print hne⟩

/-- In any tree of files, as long as permissions hide nothing, what is saved is loaded again, if a
mapping of its task type does not lead elsewhere. -/
theorem load_after_save (lasting : c.Lasting) (saved : d.savePrompt c f = (.ok (), g))
    (mapped : ∀ file, d.mappings.get? c.taskType = some file →
      g.Meet (d.root.join file) (d.named c.taskType "yaml")) :
    d.loadPrompt c.taskType g = .ok c := by
  unfold loadPrompt
  cases hmapping : d.mappings.get? c.taskType with
  | some file => exact readManifest_of_saved lasting saved (mapped file hmapping)
  | none =>
    obtain ⟨-, hconf, -⟩ := exists_of_savePrompt saved
    obtain ⟨made, place, -, -, -, hplace⟩ := exists_of_saved saved
    have hread := readManifest_of_saved lasting saved (.refl hplace)
    obtain ⟨content, text, hfind, -⟩ := readManifest_eq_ok_iff.1 hread
    have hglance : d.glance g c.taskType "yaml" = .ok (some c) := by
      rw [glance, if_pos (Files.isFile_iff.2 ⟨content, hfind⟩), hread]
      simp [Except.map]
    have hnamed : d.loadNamed g c.taskType extensions = .ok (some c) := by
      rw [extensions, loadNamed_cons, hglance]
    simp [confine_eq, hconf, hnamed]

theorem lasting_bare : Config.Lasting { taskType := "a" } where
  validators := by simp
  media := by simp
  readsBack := by decide +kernel

/-- A configuration with settings of any kind, and a mapping that leads where it is saved. -/
theorem load_after_save_mapped :
    let d : Directory := { root := "prompts", mappings := Dict.ofList [("t", "./t.yaml")] }
    let c : Config := { taskType := "t", media := some { extras := Dict.ofList [("x", .null)] } }
    ∃ g, d.savePrompt c {} = (.ok (), g) ∧ d.loadPrompt "t" g = .ok c := by
  intro d c
  have lasting : c.Lasting := {
    validators := by simp [c]
    media := by
      rintro m hm
      obtain rfl : _ = m := by simpa [c] using hm
      unfold Prompt.Media.Storable
      decide
    readsBack := by decide +kernel }
  have saved : d.savePrompt c {} = (.ok (), (d.savePrompt c {}).2) :=
    Prod.ext (toOption_eq_some_iff.1 (by decide +kernel)) rfl
  refine ⟨_, saved, load_after_save lasting saved fun file hfile => ?_⟩
  have hmapping : d.mappings.get? c.taskType = some "./t.yaml" := by decide
  obtain rfl := Option.some.inj (hmapping.symm.trans hfile)
  exact ⟨["prompts", "t.yaml"], ["prompts", "t.yaml"], toOption_eq_some_iff.1 (by decide +kernel),
    toOption_eq_some_iff.1 (by decide +kernel), rfl⟩

/-- A mapping to another file hides what was saved. -/
theorem load_after_save_elsewhere : ¬ ∀ (d : Directory) (f g : Files) (c : Config),
    c.Lasting → d.savePrompt c f = (.ok (), g) → d.loadPrompt c.taskType g = .ok c := by
  intro h
  let d : Directory := { root := "prompts", mappings := Dict.ofList [("a", "other.yaml")] }
  let c : Config := { taskType := "a" }
  have saved : d.savePrompt c {} = (.ok (), (d.savePrompt c {}).2) :=
    Prod.ext (toOption_eq_some_iff.1 (by decide +kernel)) rfl
  have loaded := toOption_eq_some_iff.2 (h d {} _ c lasting_bare saved)
  have missing : (d.loadPrompt "a" (d.savePrompt c {}).2).toOption = none := by decide +kernel
  exact absurd (missing.symm.trans loaded) (by simp)

end PromptAssembly.Repository.Directory
