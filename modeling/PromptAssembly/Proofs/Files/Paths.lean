import PromptAssembly.Files.Path

/-!
# Joined paths

A path that is joined to a directory has the directory's parts first and its own parts behind them,
as long as it is relative (`Path.components_join`), and an extension touches its last part only
(`exists_parts`). So a confined path stays below the directory, with any extension.
-/
namespace PromptAssembly.Files

theorem splitParts_append_slash (s t : List Char) :
    splitParts (s ++ '/' :: t) = splitParts s ++ splitParts t := by
  induction s with
  | nil => simp [splitParts]
  | cons c s ih =>
    by_cases hc : c = '/'
    · simp [splitParts, hc, ih]
    · obtain ⟨p, ps, hs⟩ := List.exists_cons_of_ne_nil (splitParts_ne_nil s)
      simp [splitParts, hc, ih, hs]

theorem splitParts_of_not_mem {s : List Char} (h : '/' ∉ s) : splitParts s = [s] := by
  induction s with
  | nil => rfl
  | cons c s ih =>
    rw [List.mem_cons, not_or] at h
    simp [splitParts, Ne.symm h.1, ih h.2]

theorem exists_splitParts (s : List Char) : ∃ before last,
    splitParts s = before ++ [last] ∧ '/' ∉ last ∧
      ∀ t, '/' ∉ t → splitParts (s ++ t) = before ++ [last ++ t] := by
  induction s with
  | nil => exact ⟨[], [], rfl, by simp, fun t ht => splitParts_of_not_mem ht⟩
  | cons c s ih =>
    obtain ⟨before, last, hs, hlast, hext⟩ := ih
    by_cases hc : c = '/'
    · refine ⟨[] :: before, last, by simp [splitParts, hc, hs], hlast, fun t ht => ?_⟩
      simp [splitParts, hc, hext t ht]
    · cases before with
      | nil =>
        refine ⟨[], c :: last, by simp [splitParts, hc, hs], ?_, fun t ht => ?_⟩
        · simp [Ne.symm hc, hlast]
        · simp [splitParts, hc, hext t ht]
      | cons p ps =>
        refine ⟨(c :: p) :: ps, last, by simp [splitParts, hc, hs], hlast, fun t ht => ?_⟩
        simp [splitParts, hc, hext t ht]

namespace Path

theorem slash_not_mem_of_mem_parts {p : Path} {part : String} (h : part ∈ parts p) :
    '/' ∉ part.toList := by
  obtain ⟨cs, hcs, rfl⟩ := List.mem_map.1 h
  rw [String.toList_ofList]
  exact slash_not_mem_of_mem_splitParts hcs

theorem parts_ne_nil (p : Path) : parts p ≠ [] := by
  simp [parts, splitParts_ne_nil]

theorem parts_of_not_mem {p : Path} (h : '/' ∉ p.toList) : parts p = [p] := by
  simp [parts, splitParts_of_not_mem h]

@[simp] theorem parts_empty : parts "" = [""] := by decide

@[simp] theorem parts_append_slash (p q : Path) : parts (p ++ "/" ++ q) = parts p ++ parts q := by
  simp [parts, String.toList_append, splitParts_append_slash]

/-- The parts of a path and what becomes of them when something is put behind the path. -/
theorem exists_parts (p : Path) : ∃ before last, parts p = before ++ [last] ∧
    ∀ t : String, '/' ∉ t.toList → parts (p ++ t) = before ++ [last ++ t] := by
  obtain ⟨before, last, hp, -, hext⟩ := exists_splitParts p.toList
  refine ⟨before.map String.ofList, String.ofList last, by simp [parts, hp], fun t ht => ?_⟩
  rw [parts, String.toList_append, hext _ ht]
  simp [String.ofList_append]

theorem isAbsolute_iff (p : Path) : p.isAbsolute = true ↔ ∃ s, p.toList = '/' :: s := by
  rw [isAbsolute, String.startsWith_string_iff]
  exact ⟨fun ⟨s, h⟩ => ⟨s, h.symm⟩, fun ⟨s, h⟩ => ⟨s, h.symm⟩⟩

theorem isAbsolute_of_not_mem {p : Path} (h : '/' ∉ p.toList) : isAbsolute p = false := by
  rw [← Bool.not_eq_true, isAbsolute_iff]
  rintro ⟨rest, hrest⟩
  simp [hrest] at h

theorem isAbsolute_append {p : Path} (hp : p ≠ "") (q : String) :
    isAbsolute (p ++ q) = isAbsolute p := by
  cases hs : p.toList with
  | nil => exact absurd (String.toList_eq_nil_iff.1 hs) hp
  | cons c s =>
    rw [Bool.eq_iff_iff, isAbsolute_iff, isAbsolute_iff, String.toList_append, hs]
    simp

/-- A directory's path in front of a relative one, its closing slash left out. -/
theorem exists_join {dir rest : Path} (hdir : dir ≠ "") (hrest : isAbsolute rest = false) :
    ∃ d, join dir rest = d ++ "/" ++ rest ∧ (dir = d ∨ dir = d ++ "/") := by
  have hne : dir.isEmpty = false := by simpa using hdir
  by_cases hslash : dir.endsWith "/"
  · have hsuffix : "/".toList <:+ dir.toList := by
      simpa [← String.endsWith_toSlice] using hslash
    obtain ⟨s, hs⟩ := hsuffix
    have hd : dir = String.ofList s ++ "/" := String.toList_injective (by simp [← hs])
    exact ⟨String.ofList s, by simp [join, hrest, hne, hslash, ← hd], .inr hd⟩
  · exact ⟨dir, by simp [join, hrest, hne, hslash], .inl rfl⟩

theorem join_empty (rest : Path) : join "" rest = rest := by
  simp [join]

/-- The names that a path goes through. -/
def names (p : Path) : List String := (parts p).filter fun part => part ≠ "" && part ≠ "."

/-- The root, if the path starts there, and the names that it goes through. -/
def components (p : Path) : List String := (if isAbsolute p then ["/"] else []) ++ names p

@[simp] theorem names_append_slash (p q : Path) : names (p ++ "/" ++ q) = names p ++ names q := by
  simp [names]

@[simp] theorem components_empty : components "" = [] := by decide

theorem components_join (dir : Path) {rest : Path} (hrest : isAbsolute rest = false) :
    components (join dir rest) = components dir ++ names rest := by
  by_cases hdir : dir = ""
  · rw [hdir, join_empty, components_empty]
    simp [components, hrest]
  · obtain ⟨d, hjoin, hd⟩ := exists_join hdir hrest
    have habs : isAbsolute (d ++ "/" ++ rest) = isAbsolute dir := by
      rcases hd with rfl | rfl
      · rw [String.append_assoc, isAbsolute_append hdir]
      · rw [isAbsolute_append hdir]
    have hnames : names dir = names d := by
      rcases hd with rfl | rfl
      · rfl
      · have : names "" = [] := by decide
        rw [← String.append_empty (s := d ++ "/"), names_append_slash, this, List.append_nil]
    rw [components, hjoin, habs, names_append_slash, ← hnames, ← List.append_assoc, components]

/-- Whether a path leads into a directory by its components alone. -/
def Below (dir p : Path) : Prop := ∃ rest, components p = components dir ++ rest ∧ ".." ∉ rest

theorem isConfined_iff (p : Path) :
    isConfined p = true ↔ isAbsolute p = false ∧ ".." ∉ parts p := by
  simp [isConfined]

theorem below_join (dir : Path) {rest : Path} (h : isConfined rest = true) :
    Below dir (join dir rest) := by
  obtain ⟨hrel, hdots⟩ := (isConfined_iff rest).1 h
  exact ⟨names rest, components_join dir hrel, fun hm => hdots ((List.mem_filter.1 hm).1)⟩

theorem isConfined_append {p s : String} (hp : isConfined p = true) (hs : '/' ∉ s.toList)
    (long : 2 < s.length) : isConfined (p ++ s) = true := by
  rw [isConfined_iff] at hp ⊢
  constructor
  · by_cases hne : p = ""
    · rw [← Bool.not_eq_true, isAbsolute_iff]
      rintro ⟨t, ht⟩
      exact hs (by simp [hne] at ht; simp [ht])
    · rw [isAbsolute_append hne, hp.1]
  · obtain ⟨before, last, hparts, hext⟩ := exists_parts p
    rw [hext s hs, List.mem_append, List.mem_singleton, not_or]
    refine ⟨fun hm => hp.2 (by simp [hparts, hm]), fun hlast => ?_⟩
    have hlen := congrArg String.length hlast
    have htwo : "..".length = 2 := rfl
    rw [String.length_append] at hlen
    omega

theorem parts_intercalate {xs : List String} (hne : xs ≠ []) (slashless : ∀ x ∈ xs, '/' ∉ x.toList) :
    parts ("/".intercalate xs) = xs := by
  induction xs with
  | nil => exact absurd rfl hne
  | cons x xs ih =>
    obtain ⟨hx, hxs⟩ := List.forall_mem_cons.1 slashless
    cases xs with
    | nil => rw [String.intercalate_singleton, parts_of_not_mem hx]
    | cons y ys =>
      rw [String.intercalate_cons_cons, parts_append_slash, parts_of_not_mem hx,
        ih (List.cons_ne_nil y ys) hxs]
      rfl

theorem exists_parts_of_isAbsolute {p : Path} (h : isAbsolute p = true) :
    ∃ rest, parts p = "" :: rest := by
  obtain ⟨s, hs⟩ := (isAbsolute_iff p).1 h
  exact ⟨(splitParts s).map String.ofList, by simp [parts, hs, splitParts]⟩

theorem parts_absolute (s : Path) : parts ("/" ++ s) = "" :: parts s := by
  have split := parts_append_slash "" s
  rwa [String.empty_append, parts_empty] at split

theorem exists_steps (p : Path) : ∃ front, steps p = front ++ names p ∧
    (front = [] ∨ front = ["."] ∧ isAbsolute p = false) := by
  unfold steps
  split
  · next rest hparts =>
    refine ⟨["."], by simp [names, hparts], .inr ⟨rfl, ?_⟩⟩
    rw [← Bool.not_eq_true]
    intro habs
    obtain ⟨rest', hrest'⟩ := exists_parts_of_isAbsolute habs
    simp [hparts] at hrest'
  · exact ⟨[], rfl, .inl rfl⟩

theorem proper_of_mem_names {p : Path} {name : String} (h : name ∈ names p) :
    '/' ∉ name.toList ∧ name ≠ "" ∧ name ≠ "." := by
  obtain ⟨hmem, proper⟩ := List.mem_filter.1 h
  exact ⟨slash_not_mem_of_mem_parts hmem, by simpa using proper⟩

theorem parts_of_steps {front before : List String} (hfront : front = [] ∨ front = ["."])
    (hne : front ++ before ≠ []) (proper : ∀ x ∈ before, '/' ∉ x.toList ∧ x ≠ "" ∧ x ≠ ".") :
    parts ("/".intercalate (front ++ before)) = front ++ before ∧
      (front ++ before).filter (fun x => x ≠ "" && x ≠ ".") = before := by
  constructor
  · refine parts_intercalate hne fun x hx => ?_
    rcases List.mem_append.1 hx with hx | hx
    · rcases hfront with rfl | rfl <;> simp_all
    · exact (proper x hx).1
  · have all : before.filter (fun x => x ≠ "" && x ≠ ".") = before :=
      List.filter_eq_self.2 fun x hx => by simpa using (proper x hx).2
    rcases hfront with rfl | rfl <;> simpa using all

theorem names_of_parent {p q : Path} (h : parent? p = some q) (hne : q ≠ "") :
    isAbsolute q = isAbsolute p ∧ ∃ name, names p = names q ++ [name] := by
  obtain ⟨front, hsteps, hfront⟩ := exists_steps p
  unfold parent? at h
  split at h
  · cases h
  · next last hlast =>
    cases habs : isAbsolute p with
    | false => simp [habs, hne.symm] at h
    | true =>
      obtain rfl : "/" = q := by simpa [habs] using h
      obtain rfl := hfront.resolve_right (by simp [habs])
      have root : names "/" = [] := by decide
      refine ⟨(isAbsolute_iff "/").2 ⟨[], rfl⟩, last, ?_⟩
      simpa [hsteps, root] using congrArg List.reverse hlast
  · next last rest several hreverse =>
    have hlast : front ++ names p = rest.reverse ++ [last] := by
      simpa [hsteps] using congrArg List.reverse hreverse
    obtain ⟨before, hbefore, hnames⟩ :
        ∃ before, rest.reverse = front ++ before ∧ names p = before ++ [last] := by
      rcases List.eq_nil_or_concat (names p) with hnil | ⟨before, name, hname⟩
      · have short := congrArg List.length hlast
        rcases hfront with rfl | ⟨rfl, -⟩ <;> simp_all
      · rw [hname, List.concat_eq_append, ← List.append_assoc] at hlast
        obtain ⟨hrest, hlast⟩ := List.append_inj' hlast rfl
        exact ⟨before, hrest.symm, by simp [hname, List.cons.inj hlast]⟩
    have proper : ∀ x ∈ before, '/' ∉ x.toList ∧ x ≠ "" ∧ x ≠ "." := fun x hx =>
      proper_of_mem_names (p := p) (by simp [hnames, hx])
    obtain ⟨hparts, hfilter⟩ := parts_of_steps (hfront.imp_right And.left)
      (fun hnil => several (List.reverse_eq_nil_iff.1 (hbefore.trans hnil))) proper
    rw [← hbefore] at hparts
    cases habs : isAbsolute p with
    | true =>
      obtain rfl : "/" ++ "/".intercalate rest.reverse = q := by simpa [habs] using h
      refine ⟨(isAbsolute_iff _).2 ⟨_, by rw [String.toList_append]; rfl⟩, last, ?_⟩
      rw [hnames, names, parts_absolute, hparts, List.filter_cons_of_neg (by simp), hbefore, hfilter]
    | false =>
      obtain rfl : "/".intercalate rest.reverse = q := by simpa [habs] using h
      refine ⟨?_, last, by rw [hnames, names, hparts, hbefore, hfilter]⟩
      rw [← Bool.not_eq_true]
      intro hq
      obtain ⟨others, hothers⟩ := exists_parts_of_isAbsolute hq
      rw [hparts, hbefore] at hothers
      rcases hfront with rfl | ⟨rfl, -⟩
      · rw [List.nil_append] at hothers
        exact (proper "" (hothers ▸ List.mem_cons_self)).2.1 rfl
      · simp at hothers

end Path
end PromptAssembly.Files
