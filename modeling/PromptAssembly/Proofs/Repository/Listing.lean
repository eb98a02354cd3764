import PromptAssembly.Proofs.Repository.Confinement

/-!
# Listing and loading

The task types that are listed are those that the manifests in the root declare, and a symbolic link
is no manifest. Loading tries the files with the task type's name first, links among them: a task
type may be loaded that is not listed if such a file does not lie in the root, and one may be listed
that is not loaded if such a file cannot be read (`listed_and_loaded`).
-/
namespace PromptAssembly.Repository.Directory
open Prompt (Config Fragment)
open Files (Path Entry Leads)

variable {d : Directory} {f g : Files} {p : Path} {t ext : String} {c : Config}

theorem get?_of_isEmpty (unmapped : d.mappings.isEmpty = true) (t : String) :
    d.mappings.get? t = none := by
  have hentries : d.mappings.entries = [] := by simpa [Dict.isEmpty] using unmapped
  simp [Dict.get?, hentries]

theorem mem_listPrompts_iff (unmapped : d.mappings.isEmpty = true) : t ∈ d.listPrompts f ↔
    ∃ p ∈ d.manifestFiles f, ∃ c, readManifest f p = .ok c ∧ c.taskType = t := by
  have hlist : d.listPrompts f =
      (Dict.ofList ((d.readable f).map fun c => (c.taskType, ()))).keys := by
    simp [listPrompts, unmapped]
  rw [hlist, Dict.mem_keys_ofList]
  constructor
  · rintro ⟨_, he, rfl⟩
    obtain ⟨c, hc, rfl⟩ := List.mem_map.1 he
    obtain ⟨p, hp, hread⟩ := List.mem_filterMap.1 hc
    exact ⟨p, hp, c, toOption_eq_some_iff.1 hread, rfl⟩
  · rintro ⟨p, hp, c, hread, rfl⟩
    have hc : c ∈ d.readable f := List.mem_filterMap.2 ⟨p, hp, toOption_eq_some_iff.2 hread⟩
    exact ⟨_, List.mem_map.2 ⟨c, hc, rfl⟩, rfl⟩

theorem glance_eq_some_iff : d.glance f t ext = .ok (some c) ↔
    readManifest f (d.named t ext) = .ok c ∧ c.taskType = t := by
  unfold glance
  constructor
  · intro h
    split at h
    · cases hread : readManifest f (d.named t ext) with
      | error e => simp [hread, Except.map] at h
      | ok b =>
        by_cases hb : b.taskType = t
        · obtain rfl : b = c := by simpa [hread, Except.map, hb] using h
          exact ⟨rfl, hb⟩
        · simp [hread, Except.map, hb] at h
    · simp at h
  · rintro ⟨hread, hc⟩
    obtain ⟨content, text, hfind, -⟩ := readManifest_eq_ok_iff.1 hread
    rw [if_pos (Files.isFile_iff.2 ⟨content, hfind⟩), hread]
    simp [Except.map, hc]

theorem exists_of_loadNamed {exts : List String} (h : d.loadNamed f t exts = .ok (some c)) :
    ∃ ext ∈ exts, readManifest f (d.named t ext) = .ok c ∧ c.taskType = t := by
  induction exts with
  | nil => simp [loadNamed] at h
  | cons ext exts ih =>
    rw [loadNamed_cons] at h
    cases hglance : d.glance f t ext with
    | error e => simp [hglance] at h
    | ok found =>
      cases found with
      | some b =>
        obtain rfl : b = c := by simpa [hglance] using h
        exact ⟨ext, List.mem_cons_self, glance_eq_some_iff.1 hglance⟩
      | none =>
        rw [hglance] at h
        obtain ⟨x, hx, hread⟩ := ih h
        exact ⟨x, List.mem_cons_of_mem _ hx, hread⟩

theorem exists_loadNamed {exts : List String} (legible : ∀ ext ∈ exts,
    f.isFile (d.named t ext) = true → ∃ b, readManifest f (d.named t ext) = .ok b) :
    ∃ found, d.loadNamed f t exts = .ok found := by
  induction exts with
  | nil => exact ⟨none, rfl⟩
  | cons ext exts ih =>
    obtain ⟨found, hfound⟩ := ih fun x hx => legible x (List.mem_cons_of_mem _ hx)
    rw [loadNamed_cons, glance]
    by_cases hfile : f.isFile (d.named t ext)
    · obtain ⟨b, hb⟩ := legible ext List.mem_cons_self hfile
      by_cases hdeclares : b.taskType = t
      · exact ⟨some b, by simp [hfile, hb, Except.map, hdeclares]⟩
      · exact ⟨found, by simp [hfile, hb, Except.map, hdeclares, hfound]⟩
    · exact ⟨found, by simp [hfile, hfound]⟩

theorem loadPrompt_eq_ok_iff (unmapped : d.mappings.get? t = none) : d.loadPrompt t f = .ok c ↔
    Path.isConfined t = true ∧ (d.loadNamed f t extensions = .ok (some c) ∨
      d.loadNamed f t extensions = .ok none ∧
        (d.manifestFiles f).findSome? (declared f t) = some c) := by
  simp only [loadPrompt, unmapped, confine_eq, find?_readable]
  cases hconf : Path.isConfined t with
  | false => simp
  | true =>
    cases hnamed : d.loadNamed f t extensions with
    | error e => simp
    | ok found =>
      cases found with
      | some b => simp
      | none =>
        cases hscan : (d.manifestFiles f).findSome? (declared f t) <;> simp

theorem exists_of_loadPrompt (unmapped : d.mappings.get? t = none)
    (loaded : d.loadPrompt t f = .ok c) : c.taskType = t ∧
      ((∃ ext ∈ extensions, readManifest f (d.named t ext) = .ok c) ∨
        ∃ p ∈ d.manifestFiles f, readManifest f p = .ok c) := by
  obtain ⟨-, hnamed | ⟨-, hscan⟩⟩ := (loadPrompt_eq_ok_iff unmapped).1 loaded
  · obtain ⟨ext, hext, hread, hc⟩ := exists_of_loadNamed hnamed
    exact ⟨hc, .inl ⟨ext, hext, hread⟩⟩
  · obtain ⟨p, hp, hdeclared⟩ := List.exists_of_findSome?_eq_some hscan
    obtain ⟨hread, hc⟩ := declared_eq_some_iff.1 hdeclared
    exact ⟨hc, .inr ⟨p, hp, hread⟩⟩

theorem loaded_of_listed (unmapped : d.mappings.isEmpty = true) (hconf : Path.isConfined t = true)
    (legible : ∀ ext ∈ extensions, f.isFile (d.named t ext) = true →
      ∃ b, readManifest f (d.named t ext) = .ok b)
    (listed : t ∈ d.listPrompts f) : ∃ c, d.loadPrompt t f = .ok c := by
  obtain ⟨found, hfound⟩ := exists_loadNamed legible
  cases found with
  | some c =>
    exact ⟨c, (loadPrompt_eq_ok_iff (get?_of_isEmpty unmapped t)).2 ⟨hconf, .inl hfound⟩⟩
  | none =>
    obtain ⟨p, hp, b, hread, hb⟩ := (mem_listPrompts_iff unmapped).1 listed
    cases hscan : (d.manifestFiles f).findSome? (declared f t) with
    | none =>
      have hnone := List.findSome?_eq_none_iff.1 hscan p hp
      rw [declared_eq_some_iff.2 ⟨hread, hb⟩] at hnone
      cases hnone
    | some c =>
      exact ⟨c, (loadPrompt_eq_ok_iff (get?_of_isEmpty unmapped t)).2 ⟨hconf, .inr ⟨hfound, hscan⟩⟩⟩

/-- What is loaded is listed, or it comes from a file with its name that is not scanned. -/
theorem listed_or_named_of_loaded (unmapped : d.mappings.isEmpty = true)
    (loaded : d.loadPrompt t f = .ok c) : t ∈ d.listPrompts f ∨ ∃ ext ∈ extensions,
      readManifest f (d.named t ext) = .ok c ∧
        ∀ p ∈ d.manifestFiles f, ¬ f.Meet p (d.named t ext) := by
  obtain ⟨hc, ⟨ext, hext, hread⟩ | ⟨p, hp, hread⟩⟩ :=
    exists_of_loadPrompt (get?_of_isEmpty unmapped t) loaded
  · by_cases met : ∃ p ∈ d.manifestFiles f, f.Meet p (d.named t ext)
    · obtain ⟨p, hp, meet⟩ := met
      have hmeet := readManifest_of_meet meet hread
      exact .inl ((mem_listPrompts_iff unmapped).2 ⟨p, hp, c, hmeet, hc⟩)
    · exact .inr ⟨ext, hext, hread, fun p hp meet => met ⟨p, hp, meet⟩⟩
  · exact .inl ((mem_listPrompts_iff unmapped).2 ⟨p, hp, c, hread, hc⟩)

theorem fileName?_of_parts {name : String} (hparts : Path.parts name = [name]) (hne : name ≠ "")
    (hdot : name ≠ ".") (hdots : name ≠ "..") : Path.fileName? name = some name := by
  have hsteps : Path.steps name = [name] := by
    unfold Path.steps
    rw [hparts]
    split
    · next h => exact absurd (List.cons.inj h).1 hdot
    · simp [hne, hdot]
  unfold Path.fileName?
  rw [hsteps]
  split
  · next h => exact absurd (Option.some.inj h) hdot
  · next h => exact absurd (Option.some.inj h) hdots
  · rfl

theorem extension?_of_fileName? {name : String} (hname : Path.fileName? name = some name)
    (hchars : name.toList = t.toList ++ '.' :: ext.toList) (hne : t ≠ "")
    (hplain : '.' ∉ ext.toList) : Path.extension? name = some ext := by
  obtain ⟨x, xs, hx⟩ : ∃ x xs, t.toList.reverse = x :: xs :=
    List.exists_cons_of_ne_nil (by simpa using hne)
  have hreverse : name.toList.reverse = ext.toList.reverse ++ '.' :: x :: xs := by
    simp [hchars, hx]
  have hbefore : ∀ c ∈ ext.toList.reverse, decide (c ≠ '.') = true := by
    intro c hc
    simpa using fun hdot : c = '.' => hplain (hdot ▸ List.mem_reverse.1 hc)
  have hafter : name.toList.reverse.takeWhile (· ≠ '.') = ext.toList.reverse := by
    rw [hreverse, List.takeWhile_append_of_pos hbefore]
    simp
  have hrest : name.toList.reverse.drop ext.toList.reverse.length = '.' :: x :: xs := by
    rw [hreverse, List.drop_left]
  unfold Path.extension?
  rw [hname]
  simp only [Option.bind_eq_bind, Option.bind_some, hafter, hrest]
  simp

/-- A file with the name of a task type is a manifest, unless the name is only an extension. -/
theorem hasManifestExtension_named (hslash : '/' ∉ t.toList) (hne : t ≠ "")
    (hext : ext ∈ extensions) :
    '/' ∉ s!"{t}.{ext}".toList ∧ hasManifestExtension s!"{t}.{ext}" = true := by
  have hchars : s!"{t}.{ext}".toList = t.toList ++ '.' :: ext.toList := by
    simp [toString, String.toList_append]
  have hplain : '/' ∉ ext.toList ∧ '.' ∉ ext.toList ∧ 2 < ext.toList.length := by
    rcases mem_extensions_iff.1 hext with rfl | rfl <;> decide
  have hslash' : '/' ∉ s!"{t}.{ext}".toList := by
    rw [hchars]
    simp [hslash, hplain.1]
  have long {short : String} (hshort : short.toList.length ≤ 2) : s!"{t}.{ext}" ≠ short := by
    intro h
    have hlength := congrArg (fun s => s.toList.length) h
    simp only [hchars, List.length_append, List.length_cons] at hlength
    omega
  have hname := fileName?_of_parts (Path.parts_of_not_mem hslash') (long (by decide))
    (long (by decide)) (long (by decide))
  refine ⟨hslash', ?_⟩
  rw [hasManifestExtension, extension?_of_fileName? hname hchars hne hplain.2.1]
  simpa using hext

/-- A task type without a slash names a file of the root, so that it is listed if it is loaded, but
for a link of that name. -/
theorem listed_of_loaded (unmapped : d.mappings.isEmpty = true) (hroot : d.root ≠ "")
    (hslash : '/' ∉ t.toList)
    (direct : ∀ ext ∈ extensions, ∀ target, (s!"{t}.{ext}", .link target) ∉ f.list d.root)
    (loaded : d.loadPrompt t f = .ok c) : t ∈ d.listPrompts f := by
  rcases listed_or_named_of_loaded unmapped loaded with listed | ⟨ext, hext, hread, apart⟩
  · exact listed
  · obtain ⟨content, text, hfind, -, hparse⟩ := readManifest_eq_ok_iff.1 hread
    have hne : t ≠ "" := by
      rw [← (exists_of_loadPrompt (get?_of_isEmpty unmapped t) loaded).1]
      exact (Config.exists_of_parse hparse).1
    obtain ⟨hslash', hext'⟩ := hasManifestExtension_named hslash hne hext
    obtain ⟨place, hplace, hfile⟩ := Files.find_eq_ok_iff.1 hfind
    obtain ⟨names, hnames, dir, hname⟩ := exists_of_resolve_name hroot hslash' hext' hplace hfile
    obtain rfl := hname.resolve_right fun ⟨target, link⟩ =>
      direct ext hext target (Files.mem_list_iff.2 ⟨names, hnames, dir, hslash', link⟩)
    have hmem : d.named t ext ∈ d.manifestFiles f :=
      mem_manifestFiles_iff.2 ⟨_, names, content, hnames, dir, hslash', hfile, hext', rfl⟩
    exact absurd (.refl hplace) (apart _ hmem)

/-- In any tree of files, as long as permissions hide nothing: a task type that is listed is loaded, if
it does not lead out of the root and no file with its name is broken. One that is loaded is listed,
or its file is none of those scanned. So both agree on plain names that no link bears. -/
theorem listed_and_loaded (unmapped : d.mappings.isEmpty = true) (f : Files) (t : String) :
    (t ∈ d.listPrompts f → Path.isConfined t = true →
      (∀ ext ∈ extensions, f.isFile (d.named t ext) = true →
        ∃ b, readManifest f (d.named t ext) = .ok b) → ∃ c, d.loadPrompt t f = .ok c) ∧
    (∀ c, d.loadPrompt t f = .ok c → t ∈ d.listPrompts f ∨ ∃ ext ∈ extensions,
      readManifest f (d.named t ext) = .ok c ∧
        ∀ p ∈ d.manifestFiles f, ¬ f.Meet p (d.named t ext)) ∧
    (d.root ≠ "" → '/' ∉ t.toList → t ≠ ".." →
      (∀ ext ∈ extensions, f.isFile (d.named t ext) = true →
        ∃ b, readManifest f (d.named t ext) = .ok b) →
      (∀ ext ∈ extensions, ∀ target, (s!"{t}.{ext}", .link target) ∉ f.list d.root) →
      (t ∈ d.listPrompts f ↔ ∃ c, d.loadPrompt t f = .ok c)) := by
  refine ⟨fun listed hconf legible => loaded_of_listed unmapped hconf legible listed,
    fun c => listed_or_named_of_loaded unmapped,
    fun hroot hslash hdots legible direct => ⟨?_, ?_⟩⟩
  · intro listed
    have hconf : Path.isConfined t = true := by
      rw [Path.isConfined_iff, Path.parts_of_not_mem hslash, List.mem_singleton]
      exact ⟨Path.isAbsolute_of_not_mem hslash, hdots.symm⟩
    exact loaded_of_listed unmapped hconf legible listed
  · rintro ⟨c, loaded⟩
    exact listed_of_loaded unmapped hroot hslash direct loaded

/-- A link is loaded and not listed. -/
example :
    let d : Directory := { root := "prompts" }
    let f := promptsTree [("a.yaml", .link "../prompts/a.txt"), ("a.txt", bareManifest "a")]
    d.loadPrompt "a" f = .ok { taskType := "a" } ∧ d.listPrompts f = [] := by
  decide +kernel

/-- A prompt in a file with another's name. -/
theorem listed_and_loaded_elsewhere :
    let d : Directory := { root := "prompts" }
    let f := promptsTree [("a.yaml", bareManifest "z"), ("b.yml", bareManifest "a")]
    "a" ∈ d.listPrompts f ∧ ∃ c, d.loadPrompt "a" f = .ok c := by
  intro d f
  have legible : ∀ ext ∈ extensions, f.isFile (d.named "a" ext) = true →
      ∃ b, readManifest f (d.named "a" ext) = .ok b := by
    intro ext hext hfile
    obtain rfl | rfl := mem_extensions_iff.1 hext
    · exact ⟨{ taskType := "z" }, toOption_eq_some_iff.1 (by decide +kernel)⟩
    · exact absurd hfile (by decide +kernel)
  have direct : ∀ ext ∈ extensions, ∀ target, (s!"a.{ext}", .link target) ∉ f.list d.root := by
    intro ext _ target hmem
    have files : (f.list d.root).all (fun e => e.2.isFile) = true := by decide +kernel
    cases List.all_eq_true.1 files _ hmem
  have listed : "a" ∈ d.listPrompts f := by decide +kernel
  exact ⟨listed,
    ((listed_and_loaded rfl f "a").2.2 (by decide) (by decide) (by decide) legible direct).1 listed⟩

/-- A broken file hides the manifest that declares its name. -/
theorem listed_not_loaded : ¬ ∀ (d : Directory) (f : Files) (t : String), f.IsTree →
    d.mappings.isEmpty = true → (t ∈ d.listPrompts f ↔ ∃ c, d.loadPrompt t f = .ok c) := by
  intro h
  let d : Directory := { root := "prompts" }
  let f := promptsTree [("a.yaml", .file "kind: [".toUTF8), ("b.yaml", bareManifest "a")]
  obtain ⟨c, hc⟩ := (h d f "a" (by decide +kernel) rfl).1 (by decide +kernel)
  have failed : (d.loadPrompt "a" f).toOption = none := by decide +kernel
  simp [hc, Except.toOption] at failed

end PromptAssembly.Repository.Directory
