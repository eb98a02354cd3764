import PromptAssembly.Proofs.Template.Joining

/-!
# What scanning finds

Placeholders do not overlap, and whatever stands in front of one ends before it begins: a text falls
apart at any placeholder in it (`references_append_placeholder`). So the scan from the left passes
over none, whatever braces stand around it, and the names it finds are in the order in which they
first stand in the text (`findPlaceholders_complete`).
-/
namespace PromptAssembly.Template

variable {text name x y : String} {s t n : List Char}

theorem mem_of_append_eq_append_cons {a b c d : List Char} {z : Char} (h : a ++ b = c ++ z :: d)
    (short : b.length ≤ d.length) : z ∈ a := by
  rcases List.append_eq_append_iff.1 h with ⟨e, -, later⟩ | ⟨e, rfl, later⟩
  · have := congrArg List.length later
    simp only [List.length_append, List.length_cons] at this
    omega
  · cases e with
    | nil =>
      have := congrArg List.length later
      simp only [List.nil_append, List.length_cons] at this
      omega
    | cons w e =>
      obtain ⟨rfl, -⟩ := List.cons.inj later
      simp

theorem chars_placeholder_append (n s : List Char) :
    (Piece.placeholder n).chars ++ s = '{' :: '{' :: (n ++ '}' :: '}' :: s) := by
  simp [Piece.chars]

theorem not_straddles_placeholder (s n t : List Char) :
    ¬ Straddles s ((Piece.placeholder n).chars ++ t) := by
  rintro ⟨before, m, after, ⟨nonempty, named⟩, together, starts, ends⟩
  have opening : '{' ∉ m := fun h => by simpa [isNameChar] using named _ h
  rcases List.append_eq_append_iff.1 together with ⟨u, rfl, -⟩ | ⟨u, rfl, second⟩
  · simp only [List.length_append] at starts
    omega
  rw [chars_placeholder_append] at ends
  rw [chars_placeholder_append, chars_placeholder_append] at second
  rcases u with - | ⟨_, - | ⟨_, u⟩⟩
  · simp at starts
  · -- The second brace of the one would be the first of the other.
    obtain ⟨c, m, rfl⟩ := List.exists_cons_of_ne_nil nonempty
    simp only [List.cons_append, List.nil_append, List.cons.injEq] at second
    exact opening (by simp [second.2.2.1])
  · simp only [List.cons_append, List.cons.injEq] at second
    have inside : (m ++ ['}', '}']) ++ after = u ++ '{' :: '{' :: (n ++ '}' :: '}' :: t) := by
      simpa using second.2.2
    have := mem_of_append_eq_append_cons inside (Nat.le_of_lt_succ (by simpa using ends))
    exact opening (by simpa using this)

theorem pieces_append_placeholder (alone : (Piece.placeholder n).StandsAlone) (s t : List Char) :
    pieces (s ++ ((Piece.placeholder n).chars ++ t)) = pieces s ++ .placeholder n :: pieces t := by
  rw [pieces_append (not_straddles_placeholder s n t), pieces_chars_append alone]

/-- Text of which a placeholder's name can be made. -/
def IsName (name : String) : Prop := name ≠ "" ∧ '{' ∉ name.toList ∧ '}' ∉ name.toList

instance (name : String) : Decidable (IsName name) := inferInstanceAs (Decidable (_ ∧ _ ∧ _))

def braced (name : String) : String := "\x7b\x7b" ++ name ++ "\x7d\x7d"

/-- The name stands between double braces behind the first `i` characters of the text. -/
def StandsAt (text name : String) (i : Nat) : Prop :=
  ∃ before after, text = before ++ braced name ++ after ∧ before.length = i

theorem toList_braced (name : String) :
    (braced name).toList = (Piece.placeholder name.toList).chars := by
  simp [braced, Piece.chars]

theorem isName_iff : IsName name ↔ (Piece.placeholder name.toList).StandsAlone := by
  have chars : (∀ c ∈ name.toList, isNameChar c) ↔ '{' ∉ name.toList ∧ '}' ∉ name.toList := by
    constructor
    · intro named
      exact ⟨fun h => by simpa [isNameChar] using named _ h,
        fun h => by simpa [isNameChar] using named _ h⟩
    · rintro ⟨opening, closing⟩ c hc
      rw [isNameChar, Bool.and_eq_true, decide_eq_true_iff, decide_eq_true_iff]
      exact ⟨fun h => opening (h ▸ hc), fun h => closing (h ▸ hc)⟩
  rw [IsName, Piece.StandsAlone, chars, ne_eq, ne_eq, String.toList_eq_nil_iff]

theorem references_append_placeholder (hname : IsName name) (before after : String) :
    references (before ++ braced name ++ after) =
      references before ++ name :: references after := by
  have cut : (before ++ braced name ++ after).toList =
      before.toList ++ ((Piece.placeholder name.toList).chars ++ after.toList) := by
    simp [toList_braced]
  rw [references, cut, pieces_append_placeholder (isName_iff.1 hname)]
  simp [references, Piece.name?]

theorem exists_of_mem_references (h : name ∈ references text) :
    IsName name ∧ ∃ before after, text = before ++ braced name ++ after := by
  obtain ⟨p, hp, hname⟩ := mem_references.1 h
  cases p with
  | char c => simp [Piece.name?] at hname
  | placeholder n =>
    obtain rfl : String.ofList n = name := by simpa [Piece.name?] using hname
    refine ⟨isName_iff.2 ?_, ?_⟩
    · rw [String.toList_ofList]
      exact standsAlone_of_mem_pieces hp
    · obtain ⟨ps, qs, split⟩ := List.append_of_mem hp
      refine ⟨.ofList (ps.flatMap Piece.chars), .ofList (qs.flatMap Piece.chars), ?_⟩
      apply String.toList_inj.1
      rw [← flatMap_chars_pieces text.toList, split]
      simp [toList_braced]

theorem mem_references_iff : name ∈ references text ↔ IsName name ∧ ∃ i, StandsAt text name i := by
  constructor
  · intro h
    obtain ⟨hname, before, after, whole⟩ := exists_of_mem_references h
    exact ⟨hname, _, before, after, whole, rfl⟩
  · rintro ⟨hname, _, before, after, rfl, -⟩
    rw [references_append_placeholder hname]
    simp

theorem exists_of_standsAt (hname : IsName y) {j : Nat} (h : StandsAt text y j) :
    ∃ earlier later, references text = earlier ++ y :: later ∧
      ∀ x ∈ earlier, ∃ i < j, StandsAt text x i := by
  obtain ⟨before, after, rfl, rfl⟩ := h
  refine ⟨_, _, references_append_placeholder hname before after, fun x hx => ?_⟩
  obtain ⟨-, front, back, rfl⟩ := exists_of_mem_references hx
  refine ⟨front.length, ?_, front, back ++ braced y ++ after, ?_, rfl⟩
  · simp only [String.length_append, braced]
    have : "\x7b\x7b".length = 2 := rfl
    omega
  · simp only [String.append_assoc]

theorem pairwise_eraseDups (names : List String) : names.eraseDups.Pairwise fun x y =>
    ∀ earlier later, names = earlier ++ y :: later → x ∈ earlier := by
  induction hlen : names.length using Nat.strongRecOn generalizing names with
  | ind _ ih =>
    cases names with
    | nil => exact .nil
    | cons first names =>
      subst hlen
      have other : ∀ y ∈ (names.filter fun x => !x == first).eraseDups, y ≠ first := by
        intro y hy
        simpa using (List.mem_filter.1 (List.mem_eraseDups.1 hy)).2
      rw [List.eraseDups_cons]
      refine List.pairwise_cons.2 ⟨fun y hy earlier later h => ?_, ?_⟩
      · cases earlier with
        | nil => exact absurd (List.cons.inj h).1.symm (other y hy)
        | cons z earlier =>
          obtain ⟨rfl, -⟩ := List.cons.inj h
          exact List.mem_cons_self
      · have shorter : (names.filter fun x => !x == first).length < (first :: names).length :=
          Nat.lt_succ_of_le (List.length_filter_le _ _)
        refine (ih _ shorter _ rfl).imp_of_mem fun {x y} _ hy before earlier later h => ?_
        cases earlier with
        | nil => exact absurd (List.cons.inj h).1.symm (other y hy)
        | cons z earlier =>
          obtain ⟨rfl, rfl⟩ := List.cons.inj h
          have kept := before (earlier.filter fun x => !x == first)
            (later.filter fun x => !x == first) (by simp [other y hy])
          exact List.mem_cons_of_mem _ (List.mem_filter.1 kept).1

/-- Every name between double braces is found, each once, and nothing else. A name is found before
another if it stands somewhere before the other stands first. -/
theorem findPlaceholders_complete (text : String) :
    (findPlaceholders text).Nodup ∧
    (∀ name, name ∈ findPlaceholders text ↔
      name ≠ "" ∧ '{' ∉ name.toList ∧ '}' ∉ name.toList ∧ ∃ i, StandsAt text name i) ∧
    (findPlaceholders text).Pairwise fun x y =>
      ∀ j, StandsAt text y j → ∃ i < j, StandsAt text x i := by
  have found (name : String) : name ∈ findPlaceholders text ↔
      IsName name ∧ ∃ i, StandsAt text name i := by
    rw [findPlaceholders, List.mem_eraseDups, mem_references_iff]
  refine ⟨?once, ?all, ?ordered⟩
  case once =>
    rw [findPlaceholders, ← noteAll_nil]
    exact nodup_noteAll _ .nil
  case all =>
    intro name
    rw [found, IsName, and_assoc, and_assoc]
  case ordered =>
    refine (pairwise_eraseDups (references text)).imp_of_mem fun {x y} _ hy before j hj => ?_
    obtain ⟨earlier, later, split, stands⟩ := exists_of_standsAt ((found y).1 hy).1 hj
    exact stands x (before earlier later split)

-- Braces that are left over on either side, and an opening that no name follows.
example : findPlaceholders "\x7b{{a}}\x7b\x7bx{{b}}{{a}}\x7d" = ["a", "b"] := by decide +kernel

/-- A search from the left takes the placeholder that begins first, with the text in front of it, and
goes on behind it. What is left over in the end holds none. -/
inductive Search : List Char → List (List Char × List Char) → List Char → Prop
  | done {s : List Char} (free : ∀ m, (Piece.placeholder m).StandsAlone →
      ¬ (Piece.placeholder m).chars <:+: s) : Search s [] s
  | next {before n after rest : List Char} {found : List (List Char × List Char)}
      (alone : (Piece.placeholder n).StandsAlone)
      (first : ∀ m, (Piece.placeholder m).StandsAlone → ∀ front back,
        before ++ ((Piece.placeholder n).chars ++ after) =
          front ++ ((Piece.placeholder m).chars ++ back) → before.length ≤ front.length)
      (later : Search after found rest) :
      Search (before ++ ((Piece.placeholder n).chars ++ after)) ((before, n) :: found) rest

theorem pieces_of_free (free : ∀ m, (Piece.placeholder m).StandsAlone →
    ¬ (Piece.placeholder m).chars <:+: s) : pieces s = s.map Piece.char := by
  fun_induction pieces s with
  | case1 => rfl
  | case2 c s n rest found _ ih =>
    have whole := placeholderAt?_eq_some found
    exact absurd ⟨[], rest, whole.symm⟩ (free n (name_of_placeholderAt? found))
  | case3 c s none ih =>
    rw [List.map_cons, ih fun m alone h => free m alone (h.trans (List.suffix_cons c s).isInfix)]

/-- The pieces of a text are the placeholders that a search finds, and the characters between
them. -/
theorem pieces_of_search {found : List (List Char × List Char)} {rest : List Char}
    (h : Search s found rest) : pieces s =
      found.flatMap (fun m => m.1.map Piece.char ++ [.placeholder m.2]) ++ rest.map Piece.char := by
  induction h with
  | done free => simpa using pieces_of_free free
  | @next before n after rest found alone first _ ih =>
    have free : ∀ m, (Piece.placeholder m).StandsAlone →
        ¬ (Piece.placeholder m).chars <:+: before := by
      rintro m standing ⟨front, back, rfl⟩
      have least := first m standing front (back ++ ((Piece.placeholder n).chars ++ after)) (by simp)
      have nonempty : 0 < (Piece.placeholder m).chars.length := by simp [Piece.chars]
      simp only [List.length_append] at least
      omega
    rw [pieces_append_placeholder alone, pieces_of_free free, ih]
    simp

theorem exists_search (s : List Char) : ∃ found rest, Search s found rest := by
  fun_induction pieces s with
  | case1 =>
    refine ⟨[], [], .done fun m _ h => ?_⟩
    simp [Piece.chars] at h
  | case2 c s n rest here _ ih =>
    obtain ⟨found, left, later⟩ := ih
    rw [placeholderAt?_eq_some here]
    have first : Search ([] ++ ((Piece.placeholder n).chars ++ rest)) (([], n) :: found) left :=
      .next (name_of_placeholderAt? here) (fun _ _ _ _ _ => Nat.zero_le _) later
    exact ⟨_, left, first⟩
  | case3 c s none ih =>
    have elsewhere : ∀ m, (Piece.placeholder m).StandsAlone → ∀ back,
        c :: s ≠ (Piece.placeholder m).chars ++ back := by
      intro m alone back whole
      rw [whole, placeholderAt?_append alone] at none
      cases none
    obtain ⟨found, left, search⟩ := ih
    cases search with
    | done free =>
      refine ⟨[], c :: s, .done fun m alone h => ?_⟩
      rcases List.infix_cons_iff.1 h with ⟨back, whole⟩ | inside
      · exact elsewhere m alone back whole.symm
      · exact free m alone inside
    | @next before n after _ found alone first later =>
      have longer : Search ((c :: before) ++ ((Piece.placeholder n).chars ++ after))
          ((c :: before, n) :: found) left := by
        refine .next alone (fun m standing front back h => ?_) later
        cases front with
        | nil => exact absurd h (elsewhere m standing back)
        | cons d front => exact Nat.succ_le_succ (first m standing front back (List.cons.inj h).2)
      exact ⟨_, left, longer⟩

/-- Whatever search is made, the names are those of its matches, each where it is met first. -/
theorem findPlaceholders_eq_of_search {found : List (List Char × List Char)} {rest : List Char}
    (h : Search text.toList found rest) :
    findPlaceholders text = (found.map fun m => String.ofList m.2).eraseDups := by
  have chars (cs : List Char) : (cs.map Piece.char).filterMap Piece.name? = [] := by
    simp [List.filterMap_map, Function.comp_def, Piece.name?]
  rw [findPlaceholders, references, pieces_of_search h]
  simp [List.filterMap_flatMap, chars, Piece.name?, ← List.map_eq_flatMap]

/-- One pass copies what lies between the matches of a search, and puts in values. -/
theorem toList_substituteOnce_of_search {vars : Vars} {found : List (List Char × List Char)}
    {rest : List Char} (h : Search text.toList found rest) :
    (substituteOnce text vars).toList =
      found.flatMap (fun m => m.1 ++ (Piece.placeholder m.2).substitute vars) ++ rest := by
  have chars (cs : List Char) : (cs.map Piece.char).flatMap (Piece.substitute vars) = cs := by
    simp [List.flatMap_map, Piece.substitute, Piece.name?, Piece.chars]
  rw [toList_substituteOnce, pieces_of_search h]
  simp [List.flatMap_append, List.flatMap_assoc, chars]

end PromptAssembly.Template
