import PromptAssembly.Proofs.Template.Flat
import PromptAssembly.Proofs.Template.Unbound

/-!
# Tidy texts

A piece that is no stray brace is read as itself whatever stands behind it, so pieces of that kind
can be put together and cut apart again (`pieces_flatMap_chars`). If neither a template nor a value
that can be reached from it has a stray brace, what it expands to has none either, and its
placeholders are the ones that stayed unbound (`Expands.references_eq`): rendering it again changes
nothing (`Renderer.rendered_stable`).
-/
namespace PromptAssembly.Template

/-- No brace stands outside the placeholders. -/
def isBraceClean (text : String) : Bool :=
  (pieces text.toList).all fun
    | .char c => isNameChar c
    | .placeholder _ => true

/-- A piece that is read as itself whatever stands behind it. -/
def Piece.StandsAlone : Piece → Prop
  | .char c => isNameChar c
  | .placeholder name => name ≠ [] ∧ ∀ c ∈ name, isNameChar c

theorem name_of_placeholderAt? {s name rest : List Char}
    (h : placeholderAt? s = some (name, rest)) : (Piece.placeholder name).StandsAlone := by
  unfold placeholderAt? at h
  split at h
  · next t =>
    split at h
    · next c n r htake hdrop =>
      simp only [Option.some.injEq, Prod.mk.injEq] at h
      obtain ⟨rfl, rfl⟩ := h
      have named := List.all_takeWhile (p := isNameChar) (l := t)
      rw [htake] at named
      exact ⟨List.cons_ne_nil c n, List.all_eq_true.1 named⟩
    · simp at h
  · simp at h

theorem standsAlone_of_mem_pieces {s name : List Char} (h : .placeholder name ∈ pieces s) :
    (Piece.placeholder name).StandsAlone := by
  fun_induction pieces s with
  | case1 => simp at h
  | case2 c s first rest hp _ ih =>
    rcases List.mem_cons.1 h with h | h
    · obtain rfl := Piece.placeholder.inj h
      exact name_of_placeholderAt? hp
    · exact ih h
  | case3 c s hp ih => exact ih (by simpa using h)

theorem isBraceClean_iff {text : String} :
    isBraceClean text ↔ ∀ p ∈ pieces text.toList, p.StandsAlone := by
  rw [isBraceClean, List.all_eq_true]
  constructor
  · intro clean p hp
    cases p with
    | char c => exact clean _ hp
    | placeholder name => exact standsAlone_of_mem_pieces hp
  · intro alone p hp
    cases p with
    | char c => exact alone _ hp
    | placeholder name => rfl

theorem placeholderAt?_append {name : List Char} (h : (Piece.placeholder name).StandsAlone)
    (s : List Char) : placeholderAt? ((Piece.placeholder name).chars ++ s) = some (name, s) := by
  obtain ⟨nonempty, named⟩ := h
  have opened : (Piece.placeholder name).chars ++ s = '{' :: '{' :: (name ++ '}' :: '}' :: s) := by
    simp [Piece.chars]
  have htake : (name ++ '}' :: '}' :: s).takeWhile isNameChar = name := by
    rw [List.takeWhile_append_of_pos named]
    simp [isNameChar]
  have hdrop : (name ++ '}' :: '}' :: s).dropWhile isNameChar = '}' :: '}' :: s := by
    rw [List.dropWhile_append_of_pos named]
    simp [isNameChar]
  obtain ⟨c, rest, rfl⟩ := List.exists_cons_of_ne_nil nonempty
  rw [opened, placeholderAt?, htake, hdrop]
  rfl

theorem pieces_chars_append {p : Piece} (h : p.StandsAlone) (s : List Char) :
    pieces (p.chars ++ s) = p :: pieces s := by
  cases p with
  | char c =>
    have plain : placeholderAt? (c :: s) = none := by
      unfold placeholderAt?
      split
      · next heq =>
        obtain ⟨rfl, _⟩ := List.cons.inj heq
        simp [Piece.StandsAlone, isNameChar] at h
      · rfl
    show pieces (c :: s) = _
    rw [pieces]
    split
    · next heq => simp [plain] at heq
    · rfl
  | placeholder name =>
    have found := placeholderAt?_append h s
    show pieces ('{' :: _) = _
    rw [pieces]
    split
    · next heq =>
      obtain ⟨rfl, rfl⟩ := Prod.mk.inj (Option.some.inj (heq.symm.trans found))
      rfl
    · next heq => cases heq.symm.trans found

theorem pieces_flatMap_chars {ps : List Piece} (h : ∀ p ∈ ps, p.StandsAlone) :
    pieces (ps.flatMap Piece.chars) = ps := by
  induction ps with
  | nil => rw [List.flatMap_nil, pieces]
  | cons p ps ih =>
    obtain ⟨hp, hps⟩ := List.forall_mem_cons.1 h
    rw [List.flatMap_cons, pieces_chars_append hp, ih hps]

variable {vars : Vars} {text out name value : String} {ps : List Piece} {missing : List String}

/-- No brace stands outside the placeholders, in the text and in all values reached from it. -/
structure IsTidy (vars : Vars) (text : String) : Prop where
  clean : isBraceClean text
  values : ∀ name value, Reachable vars text name → vars.get? name = some value →
    isBraceClean value

theorem IsTidy.of_entries (clean : isBraceClean text)
    (values : ∀ e ∈ vars.entries, isBraceClean e.2) : IsTidy vars text :=
  ⟨clean, fun _ _ _ hv => values _ (Dict.mem_of_get? hv)⟩

namespace Expands

theorem exists_left (h : Expands vars ps out missing) (alone : ∀ p ∈ ps, p.StandsAlone)
    (within : Within vars text ps) (values : ∀ name value, Reachable vars text name →
      vars.get? name = some value → isBraceClean value) : ∃ left : List Piece,
      out.toList = left.flatMap Piece.chars ∧ (∀ p ∈ left, p.StandsAlone) ∧
        left.filterMap Piece.name? = missing := by
  induction h with
  | nil => exact ⟨[], rfl, by simp, rfl⟩
  | @char c _ _ _ _ ih =>
    obtain ⟨hc, hrest⟩ := List.forall_mem_cons.1 alone
    obtain ⟨left, hout, hleft, hnames⟩ := ih hrest within.tail
    refine ⟨.char c :: left, ?_, List.forall_mem_cons.2 ⟨hc, hleft⟩, ?_⟩
    · simp [hout]
    · rw [List.filterMap_cons_none rfl, hnames]
  | @unbound name _ _ _ _ _ ih =>
    obtain ⟨hname, hrest⟩ := List.forall_mem_cons.1 alone
    obtain ⟨left, hout, hleft, hnames⟩ := ih hrest within.tail
    refine ⟨.placeholder name :: left, ?_, List.forall_mem_cons.2 ⟨hname, hleft⟩, ?_⟩
    · simp [hout]
    · simpa [Piece.name?] using hnames
  | @bound name value _ _ _ _ _ held _ _ ihInner ihRest =>
    have hx : Reachable vars text (String.ofList name) := within.head rfl
    -- The value is a text of its own: what is left of it comes before what is left of the rest.
    have clean := isBraceClean_iff.1 (values _ value hx held)
    obtain ⟨inner, hinner, hinnerAlone, hinnerNames⟩ := ihInner clean (.of_value hx held)
    obtain ⟨left, hout, hleft, hnames⟩ := ihRest (List.forall_mem_cons.1 alone).2 within.tail
    refine ⟨inner ++ left, ?_, List.forall_mem_append.2 ⟨hinnerAlone, hleft⟩, ?_⟩
    · simp [hinner, hout]
    · rw [List.filterMap_append, hinnerNames, hnames]

theorem references_eq (h : Expands vars (pieces text.toList) out missing)
    (tidy : IsTidy vars text) : isBraceClean out ∧ references out = missing := by
  obtain ⟨left, hout, hleft, hnames⟩ :=
    h.exists_left (isBraceClean_iff.1 tidy.clean) (.self vars text) tidy.values
  have cut : pieces out.toList = left := by rw [hout, pieces_flatMap_chars hleft]
  exact ⟨isBraceClean_iff.2 (cut ▸ hleft), by rw [references, cut, hnames]⟩

theorem eq_chars_of_unbound (h : Expands vars ps out missing)
    (free : ∀ p ∈ ps, ∀ name, p.name? = some name → vars.get? name = none) :
    out = String.ofList (ps.flatMap Piece.chars) := by
  induction h with
  | nil => rfl
  | char _ ih =>
    rw [ih (List.forall_mem_cons.1 free).2, List.flatMap_cons, String.ofList_append]
  | unbound _ _ ih =>
    rw [ih (List.forall_mem_cons.1 free).2, List.flatMap_cons, String.ofList_append]
  | bound held => simp [(List.forall_mem_cons.1 free).1 _ rfl] at held

theorem eq_of_unbound (h : Expands vars (pieces text.toList) out missing)
    (free : ∀ name ∈ references text, vars.get? name = none) : out = text := by
  have chars := h.eq_chars_of_unbound fun p hp name hname =>
    free name (mem_references.2 ⟨p, hp, hname⟩)
  rwa [flatMap_chars_pieces, String.ofList_toList] at chars

end Expands

namespace Renderer
variable {r : Renderer} {template : String}

theorem render_of_unbound (lenient : r.strict = false)
    (free : ∀ name ∈ references text, vars.get? name = none) : r.render text vars = .ok text := by
  have flat : Flat vars text := fun name hname value hv => by simp [free name hname] at hv
  obtain ⟨⟨out, p⟩, hrun⟩ := exists_expand_of_flat flat r.maxDepth_pos
  obtain ⟨missing, hx, _⟩ := expands_of_expand hrun
  rw [render_eq, hrun, conclude_lenient lenient, hx.eq_of_unbound free]

/-- Let a lenient renderer yield a text for a template and variables without stray braces. That text
has none either, its placeholders are what a strict renderer reports of the template, and it renders
to itself. -/
theorem rendered_stable (r : Renderer) (lenient : r.strict = false) {template out : String}
    {vars : Vars} (tidy : IsTidy vars template) (h : r.render template vars = .ok out) :
    isBraceClean out ∧
      (∀ names, (r.withStrict true).render template vars = .error (.unresolvedPlaceholders names) ↔
        names = findPlaceholders out ∧ names ≠ []) ∧
      ((∃ text, (r.withStrict true).render template vars = .ok text) ↔ findPlaceholders out = []) ∧
      r.render out vars = .ok out := by
  have same : r.withStrict false = r := by rw [withStrict, ← lenient]
  obtain ⟨missing, hx, hstrict⟩ := exists_render_strict (same.symm ▸ h)
  obtain ⟨clean, left⟩ := hx.references_eq tidy
  have found : findPlaceholders out = missing.eraseDups := by rw [findPlaceholders, left]
  have empty : missing.eraseDups = [] ↔ missing = [] := by
    cases missing <;> simp [List.eraseDups_cons]
  refine ⟨clean, ?names, ?silent, ?again⟩
  case names =>
    intro names
    rw [hstrict, found]
    split
    · next complete => simp [complete]
    · next lacking =>
      constructor
      · intro h
        obtain rfl := RenderError.unresolvedPlaceholders.inj (Except.error.inj h)
        exact ⟨rfl, mt empty.1 lacking⟩
      · rintro ⟨rfl, _⟩
        rfl
  case silent =>
    rw [hstrict, found, empty]
    split
    · next complete => simp [complete]
    · next lacking => simp [lacking]
  case again =>
    apply render_of_unbound lenient
    intro name hname
    rw [left] at hname
    exact (hx.mem_missing_iff.1 hname).2

/-- Placeholders side by side, unbound names at three depths and one of them met again. -/
theorem rendered_stable_nested :
    let vars : Vars := Dict.ofList [("a", "{{b}}{{y}}"), ("b", "[{{x}}]"), ("c", "")]
    let r : Renderer := { maxDepth := 2 }
    let out := "[{{x}}]{{y}}{{z}}[{{x}}]"
    IsTidy vars "{{a}}{{c}}{{z}}{{b}}" ∧ r.render "{{a}}{{c}}{{z}}{{b}}" vars = .ok out ∧
      isBraceClean out ∧ findPlaceholders out = ["x", "y", "z"] ∧
      (r.withStrict true).render "{{a}}{{c}}{{z}}{{b}}" vars =
        .error (.unresolvedPlaceholders ["x", "y", "z"]) ∧
      r.render out vars = .ok out := by
  intro vars r out
  have tidy : IsTidy vars "{{a}}{{c}}{{z}}{{b}}" :=
    .of_entries (by decide +kernel) (by decide +kernel)
  have rendered : r.render "{{a}}{{c}}{{z}}{{b}}" vars = .ok out := by decide +kernel
  have found : findPlaceholders out = ["x", "y", "z"] := by decide +kernel
  obtain ⟨clean, reported, _, again⟩ := rendered_stable r rfl tidy rendered
  exact ⟨tidy, rendered, clean, found, (reported _).2 ⟨found.symm, by decide⟩, again⟩

end Renderer
end PromptAssembly.Template
