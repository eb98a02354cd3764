import Mathlib.Data.List.Find
import PromptAssembly.Assembly.Fragments
import PromptAssembly.Proofs.Repository.Keeping

/-!
# Staying inside

Whatever is looked up by a text of the caller's, the path that is followed lies below the directory
that the look-up is for, and a text that would lead out is turned down before any file is looked at.
That nothing else is read is said by way of two file systems: if they agree on what is found below
the directory, a look-up cannot tell them apart.
-/
namespace PromptAssembly.Repository.Directory
open Prompt (Config Fragment)
open Files (Path Entry Grows)

variable {d : Directory} {f g : Files} {p : Path} {t ext what value : String} {c : Config}

/-- The same is found in both on every path into the directory. -/
def Agree (dir : Path) (f g : Files) : Prop := ∀ p, Path.Below dir p → g.find p = f.find p

theorem readFile_congr (h : g.find p = f.find p) : readFile g p = readFile f p := by
  simp [readFile, Files.readText, h]

theorem below_named (hconf : Path.isConfined t = true) (hext : ext ∈ extensions) :
    Path.Below d.root (d.named t ext) :=
  Path.below_join d.root (isConfined_named hconf hext)

theorem glance_congr (h : g.find (d.named t ext) = f.find (d.named t ext)) :
    d.glance g t ext = d.glance f t ext := by
  rw [glance, glance, Files.isFile, Files.isFile, h, readManifest_congr h]

theorem isConfined_of_manifest {name : String} (hslash : '/' ∉ name.toList)
    (hext : hasManifestExtension name = true) : Path.isConfined name = true := by
  rw [Path.isConfined_iff, Path.parts_of_not_mem hslash, List.mem_singleton]
  refine ⟨Path.isAbsolute_of_not_mem hslash, ?_⟩
  rintro rfl
  exact absurd hext (by decide)

theorem readable_congr (agree : Agree d.root f g) (listed : g.list d.root = f.list d.root) :
    d.readable g = d.readable f := by
  have hfiles : d.manifestFiles g = d.manifestFiles f := by
    rw [manifestFiles, manifestFiles, listed]
  rw [readable, readable, hfiles]
  refine List.filterMap_congr fun p hp => ?_
  obtain ⟨name, names, content, -, -, hslash, -, hext, rfl⟩ := mem_manifestFiles_iff.1 hp
  rw [readManifest_congr (agree _ (Path.below_join d.root (isConfined_of_manifest hslash hext)))]

theorem loadPrompt_eq_of_agree (unmapped : d.mappings.get? t = none) (agree : Agree d.root f g)
    (listed : g.list d.root = f.list d.root) : d.loadPrompt t g = d.loadPrompt t f := by
  refine loadPrompt_congr_of_confined unmapped fun hconf => ⟨fun ext hext => ?_, ?_⟩
  · exact glance_congr (agree _ (below_named hconf hext))
  · rw [← find?_readable, ← find?_readable, readable_congr agree listed]

theorem loadPrompt_escape (unmapped : d.mappings.get? t = none) (hconf : Path.isConfined t = false)
    (f : Files) : d.loadPrompt t f = .error (escapes "task type" t) := by
  simp [loadPrompt, unmapped, confine_eq, hconf]

/-- Besides directories that were made, only the file has changed to which a path leads. -/
def WritesOnly (p : Path) (f g : Files) : Prop := ∃ made, Grows f made ∧
  (g = made ∨ ∃ place content, g = made.put place (.file content) ∧ g.resolve p = .ok place)

theorem savePrompt_writesOnly (c : Config) (f : Files) :
    WritesOnly (d.named c.taskType "yaml") f (d.savePrompt c f).2 := by
  cases hsave : d.savePrompt c f with
  | mk result g =>
    cases result with
    | ok =>
      obtain ⟨made, place, hmade, hg, -, hplace⟩ := exists_of_saved hsave
      exact ⟨made, by simpa [hmade] using Files.grows_createAll f d.root,
        .inr ⟨place, _, hg, hplace⟩⟩
    | error e =>
      cases stopped_of_savePrompt hsave with
      | atOnce _ same => exact ⟨f, .refl f, .inl same⟩
      | beforeFile _ root => exact ⟨_, Files.grows_createAll f d.root, .inl root⟩
      | amidFile _ _ root _ _ written =>
        obtain ⟨place, hg, -, hplace⟩ := Files.exists_of_write written
        exact ⟨_, by simpa [root] using Files.grows_createAll f d.root, .inr ⟨place, _, hg, hplace⟩⟩

theorem savePrompt_escape (hconf : Path.isConfined c.taskType = false) (f : Files) :
    (d.savePrompt c f).1 ≠ .ok () ∧ Grows f (d.savePrompt c f).2 := by
  cases hsave : d.savePrompt c f with
  | mk result g =>
    cases result with
    | ok => simp [(exists_of_savePrompt hsave).2.1] at hconf
    | error e =>
      refine ⟨nofun, ?_⟩
      cases stopped_of_savePrompt hsave with
      | atOnce _ same => exact same ▸ .refl f
      | beforeFile _ root => exact root ▸ Files.grows_createAll f d.root
      | amidFile _ confined => simp [confined] at hconf

theorem savePrompt_escape_root (hconf : Path.isConfined c.taskType = false)
    (root : f.isDirectory d.root = true) :
    d.savePrompt c f = (.error (escapes "task type" c.taskType), f) := by
  have hne : c.taskType.isEmpty = false := by
    rw [← Bool.not_eq_true, String.isEmpty_iff]
    intro hempty
    rw [hempty] at hconf
    exact absurd hconf (by decide)
  simp [savePrompt, hne, Files.createAll_of_isDirectory root, pathFor_eq, hconf]

/-- The directory in which a fragment is looked for, and the text by which it is, with its kind. -/
def fragmentSource (d : Directory) (r : Assembly.Resolved) (base : Option Path) :
    Path × String × String :=
  match r.path.filter fun p => !p.isEmpty with
  | some p => (base.getD d.root, "fragment path", p)
  | none => (d.fragmentsDir, "fragment name", r.name)

def fragmentFile (d : Directory) (r : Assembly.Resolved) (base : Option Path) (f : Files) : Path :=
  match r.path.filter fun p => !p.isEmpty with
  | some p => (base.getD d.root).join p
  | none =>
    ((extensions.map fun ext => d.fragmentsDir.join s!"{r.name}.{ext}").find? f.contains).getD
      (d.fragmentsDir.join s!"{r.name}.yaml")

variable {r : Assembly.Resolved} {base : Option Path} {dir : Path}
  (source : d.fragmentSource r base = (dir, what, value))
include source

theorem fragmentPath_eq (f : Files) : d.fragmentPath r.name r.path base f =
    if Path.isConfined value then .ok (d.fragmentFile r base f)
    else .error (escapes what value) := by
  unfold fragmentSource at source
  unfold fragmentPath fragmentFile
  cases hpath : r.path.filter fun p => !p.isEmpty with
  | some p =>
    simp only [hpath, Prod.mk.injEq] at source
    obtain ⟨-, rfl, rfl⟩ := source
    simp only [confine_eq]
    cases Path.isConfined p <;> rfl
  | none =>
    simp only [hpath, Prod.mk.injEq] at source
    obtain ⟨-, rfl, rfl⟩ := source
    simp only [confine_eq]
    cases Path.isConfined r.name <;> rfl

theorem below_fragmentFile (hconf : Path.isConfined value = true) (f : Files) :
    Path.Below dir (d.fragmentFile r base f) := by
  unfold fragmentSource at source
  unfold fragmentFile
  cases hpath : r.path.filter fun p => !p.isEmpty with
  | some p =>
    simp only [hpath, Prod.mk.injEq] at source
    obtain ⟨rfl, -, rfl⟩ := source
    exact Path.below_join _ hconf
  | none =>
    simp only [hpath, Prod.mk.injEq] at source
    obtain ⟨rfl, -, rfl⟩ := source
    have below {ext : String} (hext : ext ∈ extensions) :
        Path.Below d.fragmentsDir (d.fragmentsDir.join s!"{r.name}.{ext}") :=
      Path.below_join _ (isConfined_named hconf hext)
    cases hfound : (extensions.map fun ext => d.fragmentsDir.join s!"{r.name}.{ext}").find?
        f.contains with
    | none =>
      exact Path.below_join _ (Path.isConfined_append (s := ".yaml") hconf (by decide) (by decide))
    | some q =>
      obtain ⟨ext, hext, rfl⟩ := List.mem_map.1 (List.mem_of_find?_eq_some hfound)
      exact below hext

theorem fragmentFile_congr (hconf : Path.isConfined value = true) (agree : Agree dir f g) :
    d.fragmentFile r base g = d.fragmentFile r base f := by
  unfold fragmentSource at source
  unfold fragmentFile
  cases hpath : r.path.filter fun p => !p.isEmpty with
  | some p => rfl
  | none =>
    simp only [hpath, Prod.mk.injEq] at source
    obtain ⟨rfl, -, rfl⟩ := source
    have same {ext : String} (hext : ext ∈ extensions) :
        g.contains (d.fragmentsDir.join s!"{r.name}.{ext}") =
          f.contains (d.fragmentsDir.join s!"{r.name}.{ext}") := by
      rw [Files.contains, Files.contains, agree _ (Path.below_join _ (isConfined_named hconf hext))]
    have found :
        (extensions.map fun ext => d.fragmentsDir.join s!"{r.name}.{ext}").find? g.contains =
          (extensions.map fun ext => d.fragmentsDir.join s!"{r.name}.{ext}").find? f.contains := by
      refine List.find?_congr fun p hp => ?_
      obtain ⟨ext, hext, rfl⟩ := List.mem_map.1 hp
      exact same hext
    simp only [found]

theorem loadFragment_escape (hconf : Path.isConfined value = false) (f : Files) :
    d.loadFragment r.name r.path base f = .error (escapes what value) := by
  simp [loadFragment, fragmentPath_eq source, hconf]

theorem loadFragment_eq_of_agree (agree : Agree dir f g) :
    d.loadFragment r.name r.path base g = d.loadFragment r.name r.path base f := by
  cases hconf : Path.isConfined value with
  | false => rw [loadFragment_escape source hconf, loadFragment_escape source hconf]
  | true =>
    have hread := readFile_congr (agree _ (below_fragmentFile source hconf f))
    rw [loadFragment, loadFragment, fragmentPath_eq source, fragmentPath_eq source,
      fragmentFile_congr source hconf agree]
    simp only [hconf, if_true, hread, ok_bind]

theorem exists_of_loadFragment {fragment : Fragment}
    (h : d.loadFragment r.name r.path base f = .ok fragment) :
    ∃ p text, fragment.sourceFile = some p ∧ Path.Below dir p ∧ readFile f p = .ok text := by
  cases hconf : Path.isConfined value with
  | false => simp [loadFragment_escape source hconf] at h
  | true =>
    refine ⟨d.fragmentFile r base f, ?_⟩
    rw [loadFragment, fragmentPath_eq source] at h
    simp only [hconf, if_true, ok_bind] at h
    cases hread : readFile f (d.fragmentFile r base f) with
    | error e => simp [hread] at h
    | ok text =>
      refine ⟨text, ?_, below_fragmentFile source hconf f, rfl⟩
      by_cases hext : hasManifestExtension (d.fragmentFile r base f)
      · cases hparse : (Yaml.Node.parse? text).bind Fragment.read? with
        | none => simp [hread, hext, hparse] at h
        | some v =>
          simp only [hread, ok_bind, hext, if_true, hparse, pure_eq_ok] at h
          exact congrArg Fragment.sourceFile (Except.ok.inj h).symm
      · simp only [hread, ok_bind, hext] at h
        exact congrArg Fragment.sourceFile (Except.ok.inj h).symm

omit source

/-- Paths of prompts stay below the root, and those of fragments below the directory for fragments
or, where a reference gives a path, below the base directory or else the root; nothing is read
elsewhere, nor is a file written elsewhere. A text that would lead out is turned down, whatever the
files: a task type without a mapping, a fragment's path, and its name if it has no path. (That
permissions hide nothing is a limit of `Files`.) -/
theorem lookups_confined (d : Directory) :
    (∀ t, d.mappings.get? t = none →
      (Path.isConfined t = true → ∀ ext ∈ extensions, Path.Below d.root (d.named t ext)) ∧
      (Path.isConfined t = false → ∀ f, d.loadPrompt t f = .error (escapes "task type" t)) ∧
      ∀ f g, Agree d.root f g → g.list d.root = f.list d.root →
        d.loadPrompt t g = d.loadPrompt t f) ∧
    (∀ t, (∀ p, d.pathFor t = .ok p → Path.Below d.root p) ∧
      (Path.isConfined t = false → d.pathFor t = .error (escapes "task type" t))) ∧
    (∀ c f, (Path.isConfined c.taskType = true → ∃ p, d.pathFor c.taskType = .ok p ∧
        WritesOnly p f (d.savePrompt c f).2) ∧
      (Path.isConfined c.taskType = false →
        (d.savePrompt c f).1 ≠ .ok () ∧ Grows f (d.savePrompt c f).2 ∧
          (f.isDirectory d.root = true →
            d.savePrompt c f = (.error (escapes "task type" c.taskType), f)))) ∧
    (∀ (r : Assembly.Resolved) (base : Option Path) (dir : Path) (what value : String),
      d.fragmentSource r base = (dir, what, value) →
      (∀ f p, d.fragmentPath r.name r.path base f = .ok p → Path.Below dir p) ∧
      (∀ f fragment, d.loadFragment r.name r.path base f = .ok fragment → ∃ p text,
        fragment.sourceFile = some p ∧ Path.Below dir p ∧ readFile f p = .ok text) ∧
      (Path.isConfined value = false → ∀ f,
        d.loadFragment r.name r.path base f = .error (escapes what value)) ∧
      ∀ f g, Agree dir f g →
        d.loadFragment r.name r.path base g = d.loadFragment r.name r.path base f) := by
  refine ⟨fun t unmapped => ⟨fun hconf ext hext => below_named hconf hext,
    loadPrompt_escape unmapped, fun f g => loadPrompt_eq_of_agree unmapped⟩, fun t => ⟨?_, ?_⟩,
    fun c f => ⟨?_, ?_⟩, fun r base dir what value source => ⟨?_, ?_, ?_, ?_⟩⟩
  · intro p hp
    rw [pathFor_eq] at hp
    split at hp
    · next hconf =>
      obtain rfl := Except.ok.inj hp
      exact below_named hconf (mem_extensions_iff.2 (.inl rfl))
    · cases hp
  · intro hconf
    simp [pathFor_eq, hconf]
  · intro hconf
    exact ⟨_, by simp only [pathFor_eq, hconf, if_true], savePrompt_writesOnly c f⟩
  · intro hconf
    obtain ⟨failed, grows⟩ := savePrompt_escape (d := d) hconf f
    exact ⟨failed, grows, savePrompt_escape_root hconf⟩
  · intro f p hp
    rw [fragmentPath_eq source] at hp
    split at hp
    · next hconf =>
      obtain rfl := Except.ok.inj hp
      exact below_fragmentFile source hconf f
    · cases hp
  · exact fun f fragment => exists_of_loadFragment source
  · exact loadFragment_escape source
  · exact fun f g => loadFragment_eq_of_agree source

/-- A variable that puts two dots into a reference's path gains nothing by it. -/
theorem lookups_confined_injected :
    let d : Directory := { root := "prompts" }
    let vars : Template.Vars := Dict.ofList [("v", "../secret")]
    let r := Assembly.resolveRef vars { name := "n", path := some "\x7b\x7bv\x7d\x7d.md" }
    d.loadFragment r.name r.path none (promptsTree []) =
      .error (escapes "fragment path" "../secret.md") := by
  intro d vars r
  have source : d.fragmentSource r none = ("prompts", "fragment path", "../secret.md") := by
    decide +kernel
  have hconf : Path.isConfined "../secret.md" = false := by decide +kernel
  exact ((lookups_confined d).2.2.2 r none _ _ _ source).2.2.1 hconf _

/-- The name of a reference that has a path is only a name. -/
theorem escaping_name_accepted : ¬ ∀ (d : Directory) (name : String) (path : Option String)
    (base : Option Path) (f : Files), Path.isConfined name = false →
      ∃ why, d.loadFragment name path base f = .error (.invalid why) := by
  intro h
  let f := promptsTree [("rules.md", .file "R".toUTF8)]
  obtain ⟨why, hwhy⟩ :=
    h { root := "prompts" } "../x" (some "rules.md") none f (by decide +kernel)
  have loaded : (loadFragment { root := "prompts" } "../x" (some "rules.md") none f).toOption =
      some { content := "R", sourceFile := some "prompts/rules.md" } := by decide +kernel
  simp [hwhy, Except.toOption] at loaded

end PromptAssembly.Repository.Directory
