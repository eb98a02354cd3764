import PromptAssembly.Proofs.Files.Listing
import PromptAssembly.Repository.Directory

/-!
# Looking up a task type

Without a mapping a task type is looked up in two rounds: what the files with its name say
(`glance`), and then which of the manifests in the root declares it (`declared`). The look-up is a
function of these answers (`loadPrompt_congr`).
-/
namespace PromptAssembly.Repository.Directory
open Prompt (Config Fragment)
open Files (Path Entry)

variable {d : Directory} {f g : Files} {p q : Path} {t ext what value : String} {c : Config}

theorem toOption_eq_some_iff {ε α : Type} {x : Except ε α} {a : α} :
    x.toOption = some a ↔ x = .ok a := by
  cases x <;> simp [Except.toOption]

theorem fromUTF8?_toUTF8 (s : String) : String.fromUTF8? s.toUTF8 = some s :=
  dif_pos s.isValidUTF8

theorem readFile_eq_ok_iff {text : String} : readFile f p = .ok text ↔
    ∃ content, f.find p = .ok (.file content) ∧ String.fromUTF8? content = some text := by
  unfold readFile Files.readText
  cases hfind : f.find p with
  | error e => cases e <;> simp
  | ok e =>
    cases e with
    | file content =>
      cases htext : String.fromUTF8? content <;> simp [htext]
    | _ => simp

theorem readManifest_eq_ok_iff : readManifest f p = .ok c ↔ ∃ content text,
    f.find p = .ok (.file content) ∧ String.fromUTF8? content = some text ∧
      Config.parse text = .ok c := by
  unfold readManifest
  cases hread : readFile f p with
  | error e =>
    simp only [error_bind, reduceCtorEq, false_iff, not_exists]
    rintro content text ⟨hfind, htext, -⟩
    simp [readFile_eq_ok_iff.2 ⟨content, hfind, htext⟩] at hread
  | ok text =>
    obtain ⟨content, hfind, htext⟩ := readFile_eq_ok_iff.1 hread
    have hparse : (∃ content text, f.find p = .ok (.file content) ∧
        String.fromUTF8? content = some text ∧ Config.parse text = .ok c) ↔
          Config.parse text = .ok c := by
      simp [hfind, htext]
    rw [hparse]
    cases hc : Config.parse text <;> simp [hc]

theorem readManifest_of_meet (meet : f.Meet p q) (h : readManifest f q = .ok c) :
    readManifest f p = .ok c := by
  obtain ⟨content, text, hfind, hread⟩ := readManifest_eq_ok_iff.1 h
  exact readManifest_eq_ok_iff.2 ⟨content, text, meet.find hfind, hread⟩

theorem readManifest_congr (h : g.find p = f.find p) : readManifest g p = readManifest f p := by
  simp [readManifest, readFile, Files.readText, h]

theorem toOption_readManifest_congr (h : (g.find p).toOption = (f.find p).toOption) :
    (readManifest g p).toOption = (readManifest f p).toOption := by
  have unreadable {f : Files} {e : Files.Fault} (hfind : f.find p = .error e) :
      (readManifest f p).toOption = none := by
    cases hread : readManifest f p with
    | error => rfl
    | ok c =>
      obtain ⟨content, text, hfile, -⟩ := readManifest_eq_ok_iff.1 hread
      simp [hfind] at hfile
  cases hg : g.find p with
  | ok e =>
    cases hf : f.find p with
    | ok e' =>
      obtain rfl : e = e' := by simpa [hg, hf, Except.toOption] using h
      rw [readManifest_congr (hg.trans hf.symm)]
    | error => simp [hg, hf, Except.toOption] at h
  | error e =>
    cases hf : f.find p with
    | ok => simp [hg, hf, Except.toOption] at h
    | error e' => rw [unreadable hg, unreadable hf]

theorem mem_extensions_iff : ext ∈ extensions ↔ ext = "yaml" ∨ ext = "yml" := by
  simp [extensions]

/-- What is said of a text that leads out of its directory. -/
def escapes (what value : String) : Error :=
  .invalid s!"{what} '{value}' must stay inside the prompts directory"

theorem confine_eq : confine what value =
    if Path.isConfined value then .ok () else .error (escapes what value) := rfl

theorem pathFor_eq : d.pathFor t = if Path.isConfined t then .ok (d.named t "yaml")
    else .error (escapes "task type" t) := by
  rw [pathFor, confine_eq]
  cases Path.isConfined t <;> rfl

/-- What the file with the task type's name says about the task type. -/
def glance (d : Directory) (f : Files) (t ext : String) : Except Error (Option Config) :=
  if f.isFile (d.named t ext) then
    (readManifest f (d.named t ext)).map fun c => if c.taskType = t then some c else none
  else .ok none

theorem loadNamed_cons {exts : List String} : d.loadNamed f t (ext :: exts) =
    match d.glance f t ext with
    | .ok (some c) => .ok (some c)
    | .ok none => d.loadNamed f t exts
    | .error e => .error e := by
  rw [loadNamed, glance]
  by_cases hfile : f.isFile (d.named t ext)
  · cases hread : readManifest f (d.named t ext) with
    | error e => simp [hfile, Except.map]
    | ok c =>
      by_cases hc : c.taskType = t
      · simp [hfile, hc, Except.map]
      · simp [hfile, hc, Except.map]
  · simp [hfile]

theorem loadNamed_congr {exts : List String}
    (h : ∀ ext ∈ exts, d.glance g t ext = d.glance f t ext) :
    d.loadNamed g t exts = d.loadNamed f t exts := by
  induction exts with
  | nil => rfl
  | cons ext exts ih =>
    rw [loadNamed_cons, loadNamed_cons, h ext List.mem_cons_self,
      ih fun x hx => h x (List.mem_cons_of_mem _ hx)]

/-- The manifest in a file, if it can be read and declares the task type. -/
def declared (f : Files) (t : String) (p : Path) : Option Config :=
  (readManifest f p).toOption.filter fun c => c.taskType = t

theorem declared_eq_some_iff :
    declared f t p = some c ↔ readManifest f p = .ok c ∧ c.taskType = t := by
  unfold declared
  cases readManifest f p <;> simp [Except.toOption, Option.filter_eq_some_iff]

theorem find?_readable : (d.readable f).find? (fun c => c.taskType = t) =
    (d.manifestFiles f).findSome? (declared f t) := by
  unfold readable
  induction d.manifestFiles f with
  | nil => rfl
  | cons p ps ih =>
    rw [List.filterMap_cons, List.findSome?_cons, declared]
    cases (readManifest f p).toOption with
    | none => exact ih
    | some c =>
      by_cases hc : c.taskType = t
      · simp [Option.filter, hc]
      · simpa [Option.filter, hc] using ih

theorem mem_manifestFiles_iff : p ∈ d.manifestFiles f ↔ ∃ name names content,
    f.resolve d.root = .ok names ∧ f.hasDirectory names = true ∧ '/' ∉ name.toList ∧
      f.entryAt? (names ++ [name]) = some (.file content) ∧ hasManifestExtension name = true ∧
        p = d.root.join name := by
  rw [manifestFiles, List.mem_filterMap]
  constructor
  · rintro ⟨⟨name, e⟩, hmem, h⟩
    obtain ⟨names, hroot, dir, hslash, hentry⟩ := Files.mem_list_iff.1 hmem
    cases e with
    | file content =>
      have hext : hasManifestExtension name = true ∧ d.root.join name = p := by
        simpa [Entry.isFile] using h
      exact ⟨name, names, content, hroot, dir, hslash, hentry, hext.1, hext.2.symm⟩
    | _ => simp [Entry.isFile] at h
  · rintro ⟨name, names, content, hroot, dir, hslash, hentry, hext, rfl⟩
    exact ⟨(name, .file content), Files.mem_list_iff.2 ⟨names, hroot, dir, hslash, hentry⟩,
      by simp [Entry.isFile, hext]⟩

/-- A manifest that says no more than its task type. -/
def bareManifest (t : String) : Entry :=
  .file s!"apiVersion: v\nkind: PromptConfig\nmetadata:\n name: n\nspec:\n task_type: {t}\n".toUTF8

def promptsTree (entries : List (String × Entry)) : Files where
  entries :=
    Dict.ofList (("/prompts", .directory) :: entries.map fun e => ("/prompts/" ++ e.1, e.2))

theorem loadPrompt_congr (unmapped : d.mappings.get? t = none)
    (named : ∀ ext ∈ extensions, d.glance g t ext = d.glance f t ext)
    (scanned : (d.manifestFiles g).findSome? (declared g t) =
      (d.manifestFiles f).findSome? (declared f t)) :
    d.loadPrompt t g = d.loadPrompt t f := by
  simp only [loadPrompt, unmapped, loadNamed_congr named, find?_readable, scanned]

end PromptAssembly.Repository.Directory
