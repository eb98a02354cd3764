import PromptAssembly.Proofs.Repository.Listing

/-!
# The outcomes of a look-up

A task type without a mapping is searched for by name and then by declaration. The search by name
ends at the first file that declares the task type or cannot be read; if there is none, the scan
takes the first manifest in the root, by file name, that declares it, and passes over broken ones.
So what is loaded, when nothing is found and what is reported are settled by the files alone
(`loadPrompt_outcomes`).
-/
namespace PromptAssembly.Repository.Directory
open Prompt (Config)
open Files (Path Entry)

variable {d : Directory} {f : Files} {p : Path} {t ext : String} {exts : List String} {c : Config}
  {e : Error}

/-- The file can be read and declares the task type. -/
def Declares (f : Files) (t : String) (p : Path) : Prop :=
  ∃ c, readManifest f p = .ok c ∧ c.taskType = t

/-- The file with the task type's name is not there, or it declares another task type. -/
def PassedOver (d : Directory) (f : Files) (t ext : String) : Prop :=
  f.isFile (d.named t ext) = true →
    ∃ c, readManifest f (d.named t ext) = .ok c ∧ c.taskType ≠ t

/-- The search passes over all files before the one with this extension. -/
def Reached (d : Directory) (f : Files) (t : String) (exts : List String) (ext : String) : Prop :=
  ∃ earlier later, exts = earlier ++ ext :: later ∧ ∀ x ∈ earlier, PassedOver d f t x

theorem glance_eq_none_iff : d.glance f t ext = .ok none ↔ PassedOver d f t ext := by
  unfold glance PassedOver
  by_cases hfile : f.isFile (d.named t ext)
  · cases hread : readManifest f (d.named t ext) with
    | error e => simp [hfile, Except.map]
    | ok c => simp [hfile, Except.map]
  · simp [hfile]

theorem glance_eq_error_iff : d.glance f t ext = .error e ↔
    f.isFile (d.named t ext) = true ∧ readManifest f (d.named t ext) = .error e := by
  unfold glance
  by_cases hfile : f.isFile (d.named t ext)
  · cases hread : readManifest f (d.named t ext) <;> simp [hfile, Except.map]
  · simp [hfile]

theorem reached_cons_iff {x : String} : Reached d f t (x :: exts) ext ↔
    ext = x ∨ PassedOver d f t x ∧ Reached d f t exts ext := by
  constructor
  · rintro ⟨earlier, later, split, passed⟩
    cases earlier with
    | nil => exact .inl (List.cons.inj split).1.symm
    | cons y earlier =>
      obtain ⟨rfl, rest⟩ := List.cons.inj split
      obtain ⟨first, others⟩ := List.forall_mem_cons.1 passed
      exact .inr ⟨first, earlier, later, rest, others⟩
  · rintro (rfl | ⟨first, earlier, later, rfl, others⟩)
    · exact ⟨[], exts, rfl, by simp⟩
    · exact ⟨x :: earlier, later, rfl, List.forall_mem_cons.2 ⟨first, others⟩⟩

theorem not_reached_nil : ¬ Reached d f t [] ext := by
  rintro ⟨earlier, later, split, -⟩
  simp at split

theorem exists_reached_cons_iff {x : String} {P : String → Prop} :
    (∃ ext, Reached d f t (x :: exts) ext ∧ P ext) ↔
      P x ∨ PassedOver d f t x ∧ ∃ ext, Reached d f t exts ext ∧ P ext := by
  simp only [reached_cons_iff, or_and_right, exists_or, exists_eq_left, and_assoc, exists_and_left]

theorem loadNamed_eq_none_iff :
    d.loadNamed f t exts = .ok none ↔ ∀ ext ∈ exts, PassedOver d f t ext := by
  induction exts with
  | nil => simp [loadNamed]
  | cons x exts ih =>
    rw [loadNamed_cons, List.forall_mem_cons, ← glance_eq_none_iff, ← ih]
    rcases d.glance f t x with e | found | c <;> simp

theorem loadNamed_eq_some_iff : d.loadNamed f t exts = .ok (some c) ↔
    ∃ ext, Reached d f t exts ext ∧ readManifest f (d.named t ext) = .ok c ∧ c.taskType = t := by
  induction exts with
  | nil => simp [loadNamed, not_reached_nil]
  | cons x exts ih =>
    rw [loadNamed_cons, exists_reached_cons_iff, ← ih, ← glance_eq_none_iff, ← glance_eq_some_iff]
    rcases d.glance f t x with e | found | b <;> simp

theorem loadNamed_eq_error_iff : d.loadNamed f t exts = .error e ↔
    ∃ ext, Reached d f t exts ext ∧ f.isFile (d.named t ext) = true ∧
      readManifest f (d.named t ext) = .error e := by
  induction exts with
  | nil => simp [loadNamed, not_reached_nil]
  | cons x exts ih =>
    rw [loadNamed_cons, exists_reached_cons_iff, ← ih, ← glance_eq_none_iff, ← glance_eq_error_iff]
    rcases d.glance f t x with e | found | b <;> simp

theorem isNotFound_of_readManifest (hfile : f.isFile p = true) (h : readManifest f p = .error e) :
    e.isNotFound = false := by
  obtain ⟨content, hfind⟩ := Files.isFile_iff.1 hfile
  unfold readManifest readFile Files.readText at h
  cases htext : String.fromUTF8? content with
  | none =>
    obtain rfl : Error.io _ = e := by simpa [hfind, htext] using h
    rfl
  | some text =>
    cases hparse : Config.parse text with
    | ok c => simp [hfind, htext, hparse] at h
    | error fault =>
      obtain rfl : Error.invalid _ = e := by simpa [hfind, htext, hparse] using h
      rfl

/-- A file of this name lies in the root, with the extension of a manifest. -/
def HasManifest (d : Directory) (f : Files) (name : String) : Prop :=
  (∃ content, (name, .file content) ∈ f.list d.root) ∧ hasManifestExtension name = true

def manifestNames (d : Directory) (f : Files) : List String :=
  (f.list d.root).filterMap fun (name, e) =>
    if e.isFile && hasManifestExtension name then some name else none

theorem manifestFiles_eq_map : d.manifestFiles f = (d.manifestNames f).map d.root.join := by
  rw [manifestFiles, manifestNames, List.map_filterMap]
  refine List.filterMap_congr ?_
  rintro ⟨name, e⟩ -
  by_cases h : e.isFile && hasManifestExtension name <;> simp [h]

theorem mem_manifestNames_iff {name : String} :
    name ∈ d.manifestNames f ↔ HasManifest d f name := by
  rw [manifestNames, HasManifest, List.mem_filterMap]
  constructor
  · rintro ⟨⟨other, e⟩, hmem, h⟩
    cases e with
    | file content =>
      obtain ⟨hext, rfl⟩ : hasManifestExtension other = true ∧ other = name := by
        simpa [Entry.isFile] using h
      exact ⟨⟨content, hmem⟩, hext⟩
    | _ => simp [Entry.isFile] at h
  · rintro ⟨⟨content, hmem⟩, hext⟩
    exact ⟨_, hmem, by simp [Entry.isFile, hext]⟩

theorem sorted_manifestNames (d : Directory) (f : Files) :
    (d.manifestNames f).Pairwise (· < ·) := by
  refine List.pairwise_filterMap.2 ((Files.sorted_list f d.root).imp fun {a b} less x hx y hy => ?_)
  obtain ⟨-, rfl⟩ : _ ∧ a.1 = x := by simpa using hx
  obtain ⟨-, rfl⟩ : _ ∧ b.1 = y := by simpa using hy
  exact less

theorem findSome?_eq_some_iff_of_sorted {α : Type} {names : List String}
    (sorted : names.Pairwise (· < ·)) {F : String → Option α} {a : α} :
    names.findSome? F = some a ↔
      ∃ name ∈ names, F name = some a ∧ ∀ other ∈ names, other < name → F other = none := by
  rw [List.findSome?_eq_some_iff]
  constructor
  · rintro ⟨before, name, after, rfl, found, none⟩
    refine ⟨name, by simp, found, fun other hother less => ?_⟩
    rcases List.mem_append.1 hother with hother | hother
    · exact none other hother
    · have later := (List.pairwise_append.1 sorted).2.1
      rcases List.mem_cons.1 hother with rfl | hother
      · exact absurd less (String.lt_irrefl _)
      · exact absurd less (String.lt_asymm (List.rel_of_pairwise_cons later hother))
  · rintro ⟨name, hname, found, none⟩
    obtain ⟨before, after, rfl⟩ := List.append_of_mem hname
    refine ⟨before, name, after, rfl, found, fun other hother => ?_⟩
    have less := (List.pairwise_append.1 sorted).2.2 other hother name List.mem_cons_self
    exact none other (List.mem_append_left _ hother) less

theorem declared_eq_none_iff : declared f t p = none ↔ ¬ Declares f t p := by
  rw [Option.eq_none_iff_forall_ne_some, Declares, not_exists]
  simp only [ne_eq, declared_eq_some_iff]

theorem scan_eq_some_iff : (d.manifestFiles f).findSome? (declared f t) = some c ↔
    ∃ name, HasManifest d f name ∧ readManifest f (d.root.join name) = .ok c ∧ c.taskType = t ∧
      ∀ other < name, HasManifest d f other → ¬ Declares f t (d.root.join other) := by
  rw [manifestFiles_eq_map, List.findSome?_map,
    findSome?_eq_some_iff_of_sorted (d.sorted_manifestNames f)]
  simp only [Function.comp_apply, mem_manifestNames_iff, declared_eq_some_iff, declared_eq_none_iff,
    and_assoc]
  refine exists_congr fun name => ?_
  tauto

theorem scan_eq_none_iff : (d.manifestFiles f).findSome? (declared f t) = none ↔
    ∀ name, HasManifest d f name → ¬ Declares f t (d.root.join name) := by
  rw [manifestFiles_eq_map, List.findSome?_map, List.findSome?_eq_none_iff]
  simp only [Function.comp_apply, mem_manifestNames_iff, declared_eq_none_iff]

theorem loadPrompt_eq_error_iff (unmapped : d.mappings.get? t = none)
    (confined : Path.isConfined t = true) : d.loadPrompt t f = .error e ↔
      d.loadNamed f t extensions = .error e ∨ d.loadNamed f t extensions = .ok none ∧
        (d.manifestFiles f).findSome? (declared f t) = none ∧
          e = .notFound s!"prompt '{t}' in {d.root}" := by
  simp only [loadPrompt, unmapped, confine_eq, confined, find?_readable]
  cases hnamed : d.loadNamed f t extensions with
  | error e => simp
  | ok found =>
    cases found with
    | some c => simp
    | none =>
      cases hscan : (d.manifestFiles f).findSome? (declared f t) with
      | some c => simp
      | none => simp [eq_comm]

/-- Let a task type have no mapping and not lead out of the root, and let permissions hide nothing. A
configuration is loaded if and only if it declares the task type and comes from the first file with
the name that is not passed over or, if there is none, from the first manifest in the root, by file
name, that declares the task type. Nothing is found if and only if all files with the name are passed
over and no manifest in the root declares the task type. Any other error is that of the first file
with the name that is not passed over. -/
theorem loadPrompt_outcomes (unmapped : d.mappings.get? t = none)
    (confined : Path.isConfined t = true) (f : Files) :
    (∀ c, d.loadPrompt t f = .ok c ↔ c.taskType = t ∧
      ((∃ ext, Reached d f t extensions ext ∧ readManifest f (d.named t ext) = .ok c) ∨
        (∀ ext ∈ extensions, PassedOver d f t ext) ∧
          ∃ name, HasManifest d f name ∧ readManifest f (d.root.join name) = .ok c ∧
            ∀ other < name, HasManifest d f other → ¬ Declares f t (d.root.join other))) ∧
    ((∃ what, d.loadPrompt t f = .error (.notFound what)) ↔
      (∀ ext ∈ extensions, PassedOver d f t ext) ∧
        ∀ name, HasManifest d f name → ¬ Declares f t (d.root.join name)) ∧
    ∀ e, e.isNotFound = false → (d.loadPrompt t f = .error e ↔
      ∃ ext, Reached d f t extensions ext ∧ f.isFile (d.named t ext) = true ∧
        readManifest f (d.named t ext) = .error e) := by
  refine ⟨fun c => ?loaded, ?missing, fun e other => ?failed⟩
  case loaded =>
    rw [loadPrompt_eq_ok_iff unmapped, loadNamed_eq_some_iff, loadNamed_eq_none_iff,
      scan_eq_some_iff]
    constructor
    · rintro ⟨-, ⟨ext, reached, hread, hc⟩ | ⟨passed, name, here, hread, hc, first⟩⟩
      · exact ⟨hc, .inl ⟨ext, reached, hread⟩⟩
      · exact ⟨hc, .inr ⟨passed, name, here, hread, first⟩⟩
    · rintro ⟨hc, ⟨ext, reached, hread⟩ | ⟨passed, name, here, hread, first⟩⟩
      · exact ⟨confined, .inl ⟨ext, reached, hread, hc⟩⟩
      · exact ⟨confined, .inr ⟨passed, name, here, hread, hc, first⟩⟩
  case missing =>
    rw [← loadNamed_eq_none_iff, ← scan_eq_none_iff]
    constructor
    · rintro ⟨what, h⟩
      rcases (loadPrompt_eq_error_iff unmapped confined).1 h with h | ⟨named, scanned, -⟩
      · obtain ⟨ext, -, hfile, hread⟩ := loadNamed_eq_error_iff.1 h
        cases isNotFound_of_readManifest hfile hread
      · exact ⟨named, scanned⟩
    · rintro ⟨named, scanned⟩
      exact ⟨_, (loadPrompt_eq_error_iff unmapped confined).2 (.inr ⟨named, scanned, rfl⟩)⟩
  case failed =>
    rw [loadPrompt_eq_error_iff unmapped confined, loadNamed_eq_error_iff]
    refine or_iff_left ?_
    rintro ⟨-, -, rfl⟩
    cases other

/-- A file with the name that declares another task type, a broken one, two manifests that declare
the task type, and a name that nothing declares. -/
theorem loadPrompt_outcomes_crowded :
    let d : Directory := { root := "prompts", mappings := Dict.ofList [("z", "a.yaml")] }
    let first : Entry := .file ("apiVersion: v\nkind: PromptConfig\nmetadata:\n name: n\n" ++
      "spec:\n task_type: a\n system_template: S\n").toUTF8
    let f := promptsTree [("a.yaml", bareManifest "z"), ("b.yaml", .file "kind: [".toUTF8),
      ("c.yml", first), ("d.yaml", bareManifest "a")]
    let c : Config := { taskType := "a", template := "S" }
    (∀ t ∈ ["a", "b", "q"], d.mappings.get? t = none ∧ Path.isConfined t = true) ∧
      d.loadPrompt "a" f = .ok c ∧
      (∀ ext ∈ extensions, PassedOver d f "a" ext) ∧
      (∃ name, HasManifest d f name ∧ readManifest f (d.root.join name) = .ok c ∧
        ∀ other < name, HasManifest d f other → ¬ Declares f "a" (d.root.join other)) ∧
      (∀ name, HasManifest d f name → ¬ Declares f "q" (d.root.join name)) ∧
      ∃ e, d.loadPrompt "b" f = .error e ∧ ∃ ext, Reached d f "b" extensions ext ∧
        f.isFile (d.named "b" ext) = true ∧ readManifest f (d.named "b" ext) = .error e := by
  intro d first f c
  have apart : ∀ t ∈ ["a", "b", "q"], d.mappings.get? t = none ∧ Path.isConfined t = true := by
    decide +kernel
  have outcomes (t : String) (ht : t ∈ ["a", "b", "q"]) :=
    loadPrompt_outcomes (apart t ht).1 (apart t ht).2 f
  have loaded : d.loadPrompt "a" f = .ok c := toOption_eq_some_iff.1 (by decide +kernel)
  have missing : d.loadPrompt "q" f = .error (.notFound "prompt 'q' in prompts") := by
    decide +kernel
  have broken : d.loadPrompt "b" f = .error (.invalid "prompts/b.yaml: Failed to parse YAML") := by
    decide +kernel
  have passed : ∀ ext ∈ extensions, PassedOver d f "a" ext := by
    intro ext hext hfile
    obtain rfl | rfl := mem_extensions_iff.1 hext
    · exact ⟨{ taskType := "z" }, toOption_eq_some_iff.1 (by decide +kernel), by decide⟩
    · exact absurd hfile (by decide +kernel)
  refine ⟨apart, loaded, passed, ?_, ((outcomes "q" (by decide)).2.1.1 ⟨_, missing⟩).2,
    _, broken, ((outcomes "b" (by decide)).2.2 _ rfl).1 broken⟩
  obtain ⟨declares, ⟨ext, ⟨_, later, split, -⟩, hread⟩ | ⟨-, scanned⟩⟩ :=
    ((outcomes "a" (by decide)).1 c).1 loaded
  · -- No file with the name declares the task type.
    obtain ⟨content, text, hfind, -⟩ := readManifest_eq_ok_iff.1 hread
    obtain ⟨other, hother, differs⟩ :=
      passed ext (by simp [split]) (Files.isFile_iff.2 ⟨content, hfind⟩)
    rw [hread] at hother
    exact absurd (Except.ok.inj hother ▸ declares) differs
  · exact scanned

end PromptAssembly.Repository.Directory
