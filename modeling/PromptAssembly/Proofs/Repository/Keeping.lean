import PromptAssembly.Proofs.Repository.Saving

/-!
# What a save leaves as it is

A save changes one file. Every other prompt is found where it was, by name (`glance_put`) as well as
by declaration (`findSome?_declared_put`), so all that is lost is what that file declared before
(`load_other_after_save`).
-/
namespace PromptAssembly.Repository.Directory
open Prompt (Config Fragment)
open Files (Path Entry Grows Leads Meet location)

variable {d : Directory} {f g made : Files} {p q : Path} {t ext : String} {c : Config}
  {place names : List String} {content : ByteArray}

/-- The manifest that an entry stands for if it lies in the directory `names`. -/
def manifestAt (d : Directory) (names : List String) (entry : String × Entry) : Option Path :=
  match entry.1.dropPrefix? (location names ++ "/") with
  | some name =>
    if name.copy.toList.contains '/' then none
    else if entry.2.isFile && hasManifestExtension name.copy then
      some (d.root.join name.copy)
    else none
  | none => none

theorem manifestFiles_eq (hroot : f.resolve d.root = .ok names)
    (dir : f.hasDirectory names = true) :
    d.manifestFiles f = f.entries.entries.filterMap (d.manifestAt names) := by
  rw [manifestFiles, Files.list, hroot]
  simp only [dir, if_true, Files.children, List.filterMap_filterMap]
  refine List.filterMap_congr fun entry _ => ?_
  unfold manifestAt
  cases entry.1.dropPrefix? (location names ++ "/") with
  | none => rfl
  | some name => by_cases hslash : '/' ∈ name.copy.toList <;> simp [hslash]

theorem findSome?_insertEntry {α β : Type} {F : String × α → Option β} {k : String} {v : α}
    {xs : List (String × α)} (silent : ∀ v, F (k, v) = none) :
    (Dict.insertEntry k v xs).findSome? F = xs.findSome? F := by
  induction xs with
  | nil => simp [Dict.insertEntry, silent]
  | cons e es ih =>
    obtain ⟨key, w⟩ := e
    rw [Dict.insertEntry]
    split
    · simp [silent]
    · split
      · next same =>
        obtain rfl : k = key := same
        simp [silent]
      · rw [List.findSome?_cons, List.findSome?_cons, ih]

theorem exists_of_manifestAt {entry : String × Entry} (h : d.manifestAt names entry = some p) :
    ∃ name, entry.1 = location (names ++ [name]) ∧ '/' ∉ name.toList ∧
      hasManifestExtension name = true ∧ p = d.root.join name := by
  unfold manifestAt at h
  split at h
  · next name hdrop =>
    have hkey := Files.exists_dropPrefix?_iff.1 ⟨name, hdrop, rfl⟩
    by_cases hslash : '/' ∈ name.copy.toList
    · simp [hslash] at h
    · have hp : entry.2.isFile = true ∧ hasManifestExtension name.copy = true ∧
          d.root.join name.copy = p := by
        simpa [hslash, and_assoc] using h
      exact ⟨name.copy, by rw [hkey, Files.location_append], hslash, hp.2.1, hp.2.2.symm⟩
  · cases h

/-- A manifest that is found under its name below the root lies in the root, if that name is no
link. -/
theorem exists_of_resolve_name {name : String} {text : ByteArray} (hroot : d.root ≠ "")
    (hslash : '/' ∉ name.toList) (hext : hasManifestExtension name = true)
    (h : f.resolve (d.root.join name) = .ok place) (hfile : f.entryAt? place = some (.file text)) :
    ∃ names, f.resolve d.root = .ok names ∧ f.hasDirectory names = true ∧
      (place = names ++ [name] ∨ ∃ target, f.entryAt? (names ++ [name]) = some (.link target)) := by
  obtain ⟨names, n, hnames, dir, hleads⟩ :=
    Files.exists_of_resolve_join hroot (Path.isAbsolute_of_not_mem hslash) h
  refine ⟨names, hnames, dir, ?_⟩
  rw [Path.parts_of_not_mem hslash] at hleads
  cases hleads with
  | stay _ _ rest =>
    cases rest
    rw [Files.hasDirectory_iff.1 dir] at hfile
    cases hfile
  | up => exact absurd hext (by decide)
  | down _ _ _ _ _ _ rest =>
    cases rest
    exact .inl rfl
  | link _ _ _ _ there => exact .inr ⟨_, there⟩

section put

/- The file that is written declares another task type than this one, and so did the file that it
takes the place of. -/
variable (free : f.Free place)
  (written : (f.put place (.file content)).resolve p = .ok place)
  (new : ∀ q, (f.put place (.file content)).Meet q p →
    readManifest (f.put place (.file content)) q = .ok c)
  (other : c.taskType ≠ t)
  (old : ∀ b, readManifest f p = .ok b → b.taskType ≠ t)
include free written new other old

theorem declared_put : declared (f.put place (.file content)) t = declared f t := by
  funext q
  rcases Files.find_put content free q with ⟨a, ha, same⟩ | same
  · have meet : (f.put place (.file content)).Meet q p := ⟨a, place, ha, written, same⟩
    have hnew : declared (f.put place (.file content)) t q = none := by
      simp [declared, new q meet, Except.toOption, Option.filter, other]
    rw [hnew]
    cases hq : declared f t q with
    | none => rfl
    | some b =>
      obtain ⟨hread, hb⟩ := declared_eq_some_iff.1 hq
      obtain ⟨text, _, hfind, -⟩ := readManifest_eq_ok_iff.1 hread
      exact absurd hb (old b (readManifest_of_meet (meet.of_put free written hfind).symm hread))
  · rw [declared, declared, toOption_readManifest_congr same]

theorem glance_put
    (legible : f.Meet (d.named t ext) p → f.isFile p = true → ∃ b, readManifest f p = .ok b) :
    d.glance (f.put place (.file content)) t ext = d.glance f t ext := by
  rcases Files.find_put content free (d.named t ext) with ⟨a, ha, same⟩ | same
  · have meet : (f.put place (.file content)).Meet (d.named t ext) p :=
      ⟨a, place, ha, written, same⟩
    have hnew : d.glance (f.put place (.file content)) t ext = .ok none := by
      simp [glance, new _ meet, Except.map, other]
    rw [hnew, glance]
    split
    · next hfile =>
      obtain ⟨text, hfind⟩ := Files.isFile_iff.1 hfile
      have hmeet := meet.of_put free written hfind
      obtain ⟨b, hb⟩ := legible hmeet (Files.isFile_iff.2 ⟨text, hmeet.symm.find hfind⟩)
      simp [readManifest_of_meet hmeet hb, Except.map, old b hb]
    · rfl
  · have hfile :
        (f.put place (.file content)).isFile (d.named t ext) = f.isFile (d.named t ext) := by
      rw [Files.isFile, Files.isFile, same]
    rw [glance, glance, hfile]
    split
    · next hfile =>
      obtain ⟨text, hfind⟩ := Files.isFile_iff.1 hfile
      have hfind' : ((f.put place (.file content)).find (d.named t ext)) = .ok (.file text) := by
        cases hg : (f.put place (.file content)).find (d.named t ext) <;>
          simp_all [Except.toOption]
      rw [readManifest_congr (hfind'.trans hfind.symm)]
    · rfl

theorem findSome?_declared_put :
    (d.manifestFiles (f.put place (.file content))).findSome?
        (declared (f.put place (.file content)) t) =
      (d.manifestFiles f).findSome? (declared f t) := by
  rw [declared_put free written new other old]
  cases root : f.isDirectory d.root with
  | false =>
    have root' : (f.put place (.file content)).isDirectory d.root = false := by
      rw [← Bool.not_eq_true] at root ⊢
      intro h
      obtain ⟨names, hroot⟩ := Files.isDirectory_iff_exists.1 h
      exact root (Files.isDirectory_iff_exists.2
        ⟨names, (Files.resolve_put_directory_iff free).1 hroot⟩)
    rw [manifestFiles, manifestFiles, Files.list_eq_nil root, Files.list_eq_nil root']
  | true =>
    obtain ⟨names, hroot, dir⟩ := Files.isDirectory_iff_exists.1 root
    obtain ⟨hroot', dir'⟩ := (Files.resolve_put_directory_iff free).2 ⟨hroot, dir⟩
    rw [manifestFiles_eq hroot dir, manifestFiles_eq hroot' dir', ← List.head?_filterMap,
      ← List.head?_filterMap, List.filterMap_filterMap, List.filterMap_filterMap,
      List.head?_filterMap, List.head?_filterMap]
    refine findSome?_insertEntry fun e => ?_
    cases hq : d.manifestAt names (location place, e) with
    | none => rfl
    | some q =>
      -- the entry lies in the root, so that its manifest is the one that is written over
      obtain ⟨name, hkey, hslash, hext, rfl⟩ := exists_of_manifestAt hq
      cases hdec : declared f t (d.root.join name) with
      | none => exact hdec
      | some b =>
        obtain ⟨hread, hb⟩ := declared_eq_some_iff.1 hdec
        obtain ⟨text, _, hfind, -⟩ := readManifest_eq_ok_iff.1 hread
        obtain ⟨a, ha, hentry⟩ := Files.find_eq_ok_iff.1 hfind
        obtain ⟨ns, hns, -, hname⟩ := exists_of_resolve_name (Files.ne_empty_of_resolve hroot)
          hslash hext ha hentry
        obtain rfl : ns = names := Except.ok.inj (hns.symm.trans hroot)
        obtain rfl := hname.resolve_right (by
          rintro ⟨target, link⟩
          cases free _ ((Files.entryAt?_congr hkey).trans link))
        have hplace := Files.resolve_of_put free written
          (by rw [Files.entryAt?_congr hkey, hentry]; rfl)
        have hmeet : f.Meet p (d.root.join name) := ⟨place, _, hplace, ha, hkey⟩
        exact absurd hb (old b (readManifest_of_meet hmeet hread))

end put

/-- The file that a task type names lies as deep as the task type says. -/
theorem isConfined_named (hconf : Path.isConfined t = true) (hext : ext ∈ extensions) :
    Path.isConfined s!"{t}.{ext}" = true := by
  have hs : s!"{t}.{ext}" = t ++ ("." ++ ext) := by
    simp [toString, String.append_assoc]
  rw [hs]
  rcases mem_extensions_iff.1 hext with rfl | rfl
  · exact Path.isConfined_append hconf (by decide) (by decide)
  · exact Path.isConfined_append hconf (by decide) (by decide)

theorem loadPrompt_congr_of_confined (unmapped : d.mappings.get? t = none)
    (h : Path.isConfined t = true → (∀ ext ∈ extensions, d.glance g t ext = d.glance f t ext) ∧
      (d.manifestFiles g).findSome? (declared g t) = (d.manifestFiles f).findSome? (declared f t)) :
    d.loadPrompt t g = d.loadPrompt t f := by
  by_cases hconf : Path.isConfined t
  · exact loadPrompt_congr unmapped (h hconf).1 (h hconf).2
  · simp [loadPrompt, unmapped, confine_eq, hconf]

section root
variable (tree : f.IsTree) (hmade : f.createAll d.root = (.ok (), made)) (hne : d.root ≠ "")
  (root : f.isDirectory d.root = false) (onward : ".." ∉ Path.parts d.root)

include hne root in
theorem isFile_of_no_root {rest : Path} (hrel : rest.isAbsolute = false) :
    f.isFile (d.root.join rest) = false := by
  rw [← Bool.not_eq_true, Files.isFile_iff]
  rintro ⟨content, hfind⟩
  obtain ⟨place, hplace, -⟩ := Files.find_eq_ok_iff.1 hfind
  obtain ⟨names, -, hnames, dir, -⟩ := Files.exists_of_resolve_join hne hrel hplace
  simp [Files.isDirectory_iff_exists.2 ⟨names, hnames, dir⟩] at root

include hmade in
theorem grows_root : Grows f made := by
  simpa [hmade] using Files.grows_createAll f d.root

include tree hmade hne root onward

theorem isFile_new_root {rest : Path} (hconf : Path.isConfined rest = true) :
    made.isFile (d.root.join rest) = false := by
  rw [← Bool.not_eq_true, Files.isFile_iff]
  rintro ⟨content, hfind⟩
  obtain ⟨place, hplace, hfile⟩ := Files.find_eq_ok_iff.1 hfind
  obtain ⟨hrel, hdots⟩ := (Path.isConfined_iff rest).1 hconf
  obtain ⟨names, n, hnames, -, hleads⟩ := Files.exists_of_resolve_join hne hrel hplace
  obtain ⟨names', hnames', absent⟩ := tree.exists_of_made hne onward root hmade
  obtain rfl : names' = names := Except.ok.inj (hnames'.symm.trans hnames)
  have absent' := tree.absent_of_leads (grows_root hmade) hleads hdots
    (fun _ => Path.slash_not_mem_of_mem_parts) absent
  simp [(grows_root hmade).file hfile] at absent'

theorem manifestFiles_new_root : d.manifestFiles made = [] := by
  refine List.eq_nil_iff_forall_not_mem.2 fun p hp => ?_
  obtain ⟨name, names, content, hnames, -, hslash, hfile, -⟩ := mem_manifestFiles_iff.1 hp
  obtain ⟨names', hnames', absent⟩ := tree.exists_of_made hne onward root hmade
  obtain rfl : names' = names := Except.ok.inj (hnames'.symm.trans hnames)
  have absent' := tree.absent_append absent hslash
  simp [(grows_root hmade).file hfile] at absent'

theorem loadPrompt_new_root (unmapped : d.mappings.get? t = none) :
    d.loadPrompt t made = d.loadPrompt t f := by
  refine loadPrompt_congr_of_confined unmapped fun hconf => ⟨fun ext hext => ?_, ?_⟩
  · have hname := isConfined_named hconf hext
    have hmade' : made.isFile (d.named t ext) = false :=
      isFile_new_root tree hmade hne root onward hname
    have hbefore : f.isFile (d.named t ext) = false :=
      isFile_of_no_root hne root ((Path.isConfined_iff _).1 hname).1
    simp [glance, hmade', hbefore]
  · rw [manifestFiles_new_root tree hmade hne root onward, manifestFiles, Files.list_eq_nil root]
    rfl

end root

/-- In any tree of files, as long as permissions hide nothing, a save takes nothing away but what the
file that it writes declared before. -/
theorem load_other_after_save (lasting : c.Lasting) (tree : f.IsTree)
    (unmapped : d.mappings.get? t = none) (saved : d.savePrompt c f = (.ok (), g))
    (other : t ≠ c.taskType) (root : f.isDirectory d.root = true ∨ ".." ∉ Path.parts d.root)
    (old : ∀ b, readManifest f (d.named c.taskType "yaml") = .ok b → b.taskType ≠ t)
    (legible : ∀ ext ∈ extensions, f.Meet (d.named t ext) (d.named c.taskType "yaml") →
      ∃ b, readManifest f (d.named c.taskType "yaml") = .ok b) :
    d.loadPrompt t g = d.loadPrompt t f := by
  have new : ∀ q, g.Meet q (d.named c.taskType "yaml") → readManifest g q = .ok c :=
    fun q meet => readManifest_of_saved lasting saved meet
  obtain ⟨-, hconf, -⟩ := exists_of_savePrompt saved
  obtain ⟨made, place, hmade, rfl, free, hplace⟩ := exists_of_saved saved
  by_cases same : made = f
  · subst same
    refine loadPrompt_congr_of_confined unmapped fun _ => ⟨fun ext hext => ?_, ?_⟩
    · exact glance_put free hplace new other.symm old fun meet _ => legible ext hext meet
    · exact findSome?_declared_put free hplace new other.symm old
  · have hne : d.root ≠ "" := by
      intro hempty
      rw [hempty, Files.createAll_empty] at hmade
      exact same (Prod.mk.inj hmade).2.symm
    have hroot : f.isDirectory d.root = false := by
      rw [← Bool.not_eq_true]
      intro dir
      rw [Files.createAll_of_isDirectory dir] at hmade
      exact same (Prod.mk.inj hmade).2.symm
    have onward := root.resolve_left (by simp [hroot])
    have absent : made.isFile (d.named c.taskType "yaml") = false :=
      isFile_new_root tree hmade hne hroot onward
        (isConfined_named hconf (mem_extensions_iff.2 (.inl rfl)))
    have old' : ∀ b, readManifest made (d.named c.taskType "yaml") = .ok b → b.taskType ≠ t := by
      intro b hb
      obtain ⟨content, _, hfind, -⟩ := readManifest_eq_ok_iff.1 hb
      simp [Files.isFile_iff.2 ⟨content, hfind⟩] at absent
    rw [← loadPrompt_new_root tree hmade hne hroot onward unmapped]
    refine loadPrompt_congr_of_confined unmapped fun _ => ⟨fun ext _ => ?_, ?_⟩
    · exact glance_put free hplace new other.symm old' fun _ hfile => by simp [absent] at hfile
    · exact findSome?_declared_put free hplace new other.symm old'

/-- A prompt beside the one that is saved, where the file that is written declared a third one. -/
theorem load_other_after_save_beside :
    let d : Directory := { root := "prompts" }
    let f := promptsTree [("a.yaml", bareManifest "z"), ("m.yml", bareManifest "b")]
    ∃ g, d.savePrompt { taskType := "a" } f = (.ok (), g) ∧
      d.loadPrompt "b" f = .ok { taskType := "b" } ∧ d.loadPrompt "b" g = d.loadPrompt "b" f := by
  intro d f
  have saved : d.savePrompt { taskType := "a" } f =
      (.ok (), (d.savePrompt { taskType := "a" } f).2) :=
    Prod.ext (toOption_eq_some_iff.1 (by decide +kernel)) rfl
  have written : readManifest f (d.named "a" "yaml") = .ok { taskType := "z" } :=
    toOption_eq_some_iff.1 (by decide +kernel)
  refine ⟨_, saved, toOption_eq_some_iff.1 (by decide +kernel), ?_⟩
  refine load_other_after_save lasting_bare (by decide +kernel) rfl saved (by decide)
    (.inl (by decide +kernel)) (fun b hb => ?_) fun _ _ _ => ⟨_, written⟩
  obtain rfl := Except.ok.inj (written.symm.trans hb)
  decide

/-- A prompt that another file than its own declares is lost when that file is saved to. -/
theorem other_lost_by_save : ¬ ∀ (d : Directory) (f g : Files) (c : Config) (t : String),
    f.IsTree → d.mappings = Dict.empty → c.Lasting → d.savePrompt c f = (.ok (), g) →
      t ≠ c.taskType → d.loadPrompt t g = d.loadPrompt t f := by
  intro h
  let d : Directory := { root := "prompts" }
  let f := promptsTree [("a.yaml", bareManifest "refunds")]
  let c : Config := { taskType := "a" }
  have saved : d.savePrompt c f = (.ok (), (d.savePrompt c f).2) :=
    Prod.ext (toOption_eq_some_iff.1 (by decide +kernel)) rfl
  have same := h d f _ c "refunds" (by decide +kernel) rfl lasting_bare saved (by decide)
  have found : (d.loadPrompt "refunds" f).toOption = some { taskType := "refunds" } := by
    decide +kernel
  have missing : (d.loadPrompt "refunds" (d.savePrompt c f).2).toOption = none := by decide +kernel
  rw [same, found] at missing
  cases missing

end PromptAssembly.Repository.Directory
