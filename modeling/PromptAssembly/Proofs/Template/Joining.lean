import PromptAssembly.Proofs.Template.Filling
import PromptAssembly.Proofs.Template.Passes

/-!
# Texts put together

Where no placeholder straddles the seam between two texts, they are read together as they are read
apart (`pieces_append`). The second is then expanded with the table that the first has left. What
the table has is not expanded again, and it has all that this leads to, so the expansion gets
through wherever it would have got through with less in the table (`follows_of_ahead`): templates
that render apart render together, each as its own text (`Renderer.render_append`).
-/
namespace PromptAssembly.Template

/-- A placeholder begins in the first text and ends in the second. -/
def Straddles (s t : List Char) : Prop :=
  ∃ before name after, (Piece.placeholder name).StandsAlone ∧
    s ++ t = before ++ ((Piece.placeholder name).chars ++ after) ∧
    before.length < s.length ∧ after.length < t.length

theorem Straddles.append_left {s t : List Char} (h : Straddles s t) (u : List Char) :
    Straddles (u ++ s) t := by
  obtain ⟨before, name, after, alone, together, starts, ends⟩ := h
  refine ⟨u ++ before, name, after, alone, ?_, ?_, ends⟩
  · rw [List.append_assoc, together, List.append_assoc]
  · simpa using starts

theorem straddles_iff {s t : List Char} : Straddles s t ↔ ∃ i ∈ List.range s.length,
    (placeholderAt? ((s ++ t).drop i)).any (fun found => found.2.length < t.length) := by
  constructor
  · rintro ⟨before, name, after, alone, together, starts, ends⟩
    refine ⟨before.length, List.mem_range.2 starts, ?_⟩
    rw [together, List.drop_left, placeholderAt?_append alone]
    simpa using ends
  · rintro ⟨i, hi, found⟩
    cases here : placeholderAt? ((s ++ t).drop i) with
    | none => simp [here] at found
    | some result =>
      obtain ⟨name, after⟩ := result
      refine ⟨(s ++ t).take i, name, after, name_of_placeholderAt? here, ?_, ?_, ?_⟩
      · rw [← placeholderAt?_eq_some here, List.take_append_drop]
      · have starts := List.mem_range.1 hi
        simp only [List.length_take]
        omega
      · simpa [here] using found

instance (s t : List Char) : Decidable (Straddles s t) := decidable_of_iff _ straddles_iff.symm

theorem pieces_cons_of_none {c : Char} {s : List Char} (h : placeholderAt? (c :: s) = none) :
    pieces (c :: s) = .char c :: pieces s := by
  rw [pieces]
  split
  · next found => simp [h] at found
  · rfl

theorem placeholderAt?_append_eq_none {c : Char} {s t : List Char} (apart : ¬ Straddles (c :: s) t)
    (h : placeholderAt? (c :: s) = none) : placeholderAt? (c :: s ++ t) = none := by
  cases found : placeholderAt? (c :: s ++ t) with
  | none => rfl
  | some result =>
    obtain ⟨name, after⟩ := result
    have alone := name_of_placeholderAt? found
    have together := placeholderAt?_eq_some found
    rcases List.append_eq_append_iff.1 together with ⟨u, first, second⟩ | ⟨u, first, _⟩
    · cases u with
      | nil =>
        have inside := placeholderAt?_append alone []
        rw [List.append_nil, first, List.append_nil] at inside
        simp [h] at inside
      | cons d u =>
        have ends : after.length < t.length := by
          simp only [second, List.length_append, List.length_cons]
          omega
        exact absurd ⟨[], name, after, alone, together, by simp, ends⟩ apart
    · rw [first, placeholderAt?_append alone] at h
      cases h

theorem pieces_append {s t : List Char} (apart : ¬ Straddles s t) :
    pieces (s ++ t) = pieces s ++ pieces t := by
  fun_induction pieces s with
  | case1 => rfl
  | case2 c s name rest found _ ih =>
    have whole := placeholderAt?_eq_some found
    have later : ¬ Straddles rest t := fun h => apart (whole ▸ h.append_left _)
    rw [whole, List.append_assoc, pieces_chars_append (name_of_placeholderAt? found), ih later]
    rfl
  | case3 c s none ih =>
    have later : ¬ Straddles s t := fun h => apart (h.append_left [c])
    have here := placeholderAt?_append_eq_none apart none
    rw [List.cons_append] at here ⊢
    rw [pieces_cons_of_none here, ih later]
    rfl

namespace Follows
variable {α : Type} {R R' : Progress → Progress → Prop} {excused : RenderError → Prop}
  {first second : Except RenderError (α × Progress)} {a : α} {q : Progress}

theorem of_ok (h : Follows R excused first second) (add : ∀ a q p, first = .ok (a, q) →
    second = .ok (a, p) → R q p → R' q p) : Follows R' excused first second := by
  cases h with
  | ok h => exact .ok (add _ _ _ rfl rfl h)
  | error => exact .error
  | excused h => exact .excused h

theorem exists_ok (h : Follows R excused first second) (hfirst : first = .ok (a, q)) :
    ∃ p, second = .ok (a, p) ∧ R q p := by
  subst hfirst
  cases h with
  | ok h => exact ⟨_, rfl, h⟩

end Follows

variable {vars : Vars} {maxDepth remaining : Nat} {chain : List String} {name value text : String}
  {p q : Progress}

/-- A table as successful runs leave it. -/
structure Progress.Sound (vars : Vars) (p : Progress) : Prop where
  faithful : p.Faithful vars
  closed : p.Closed vars

namespace Progress.Sound

theorem start (vars : Vars) : Progress.Sound vars {} :=
  ⟨faithful_of_resolved_eq_nil rfl, closed_of_resolved_eq_nil rfl⟩

theorem hand (sound : p.Sound vars) (text : String) : (p.hand text).Sound vars :=
  ⟨sound.faithful.hand text, sound.closed.hand text⟩

theorem note (sound : p.Sound vars) (x : String) : (p.note x).Sound vars :=
  ⟨sound.faithful.note x, sound.closed.note x⟩

theorem of_resolve (sound : p.Sound vars) (hv : vars.get? name = some value)
    (h : (resolve vars maxDepth remaining chain name value).run p = .ok (text, q)) :
    q.Sound vars := by
  obtain ⟨_, _, _, faithful⟩ := unfolds_resolve _ _ _ _ _ _ _ _ hv sound.faithful h
  exact ⟨faithful, (completes_resolve _ _ _ _ _ _ _ _ hv sound.closed h).closed sound.closed⟩

end Progress.Sound

/-- The second table has all that the first has. -/
structure Ahead (vars : Vars) (q p : Progress) : Prop where
  behind : q.Sound vars
  ahead : p.Sound vars
  sub : ∀ x, q.Holds x → p.Holds x

theorem Ahead.hand (h : Ahead vars q p) (text : String) : Ahead vars (q.hand text) (p.hand text) :=
  ⟨h.behind.hand text, h.ahead.hand text, h.sub⟩

theorem Ahead.note (h : Ahead vars q p) (x : String) : Ahead vars (q.note x) (p.note x) :=
  ⟨h.behind.note x, h.ahead.note x, by simpa using h.sub⟩

/-- A variable that only the second table has is looked up in one run and expanded in the other, to
the same text. What is entered meanwhile the second table had before. -/
theorem follows_of_holds (hv : vars.get? name = some value) (h : Ahead vars q p)
    (hl : p.resolved.lookup name = some text) :
    Follows (fun q p => ∀ x, q.Holds x → p.Holds x) (fun _ => True)
      ((resolve vars maxDepth remaining chain name value).run q)
      ((resolve vars maxDepth remaining chain name value).run p) := by
  rw [run_resolve_of_lookup hl]
  cases hq : (resolve vars maxDepth remaining chain name value).run q with
  | error e => exact .excused trivial
  | ok result =>
    obtain ⟨out, q'⟩ := result
    obtain ⟨_, expanded, _⟩ := unfolds_resolve _ _ _ _ _ _ _ _ hv h.behind.faithful hq
    obtain ⟨_, known, _⟩ := h.ahead.faithful.known hv hl
    obtain ⟨rfl, _⟩ := expanded.unique known
    refine .ok fun x held => ?_
    have filled := completes_resolve _ _ _ _ _ _ _ _ hv h.behind.closed hq
    rcases (filled x).1 held with held | ⟨bound, y, hy, leads⟩
    · exact h.sub x held
    · obtain rfl := List.mem_singleton.1 hy
      exact h.ahead.closed.holds ⟨_, hl⟩ leads bound

theorem follows_of_ahead (hv : vars.get? name = some value) (h : Ahead vars q p) :
    Follows (Ahead vars) (fun _ => True)
      ((resolve vars maxDepth remaining chain name value).run q)
      ((resolve vars maxDepth remaining chain name value).run p) := by
  induction remaining using Nat.strongRecOn generalizing chain name value q p with
  | ind remaining ih =>
    -- Tables stay sound in any run: what has to be seen is that the second keeps ahead.
    suffices sub : Follows (fun q p => ∀ x, q.Holds x → p.Holds x) (fun _ => True)
        ((resolve vars maxDepth remaining chain name value).run q)
        ((resolve vars maxDepth remaining chain name value).run p) from
      sub.of_ok fun _ _ _ hq hp sub => ⟨h.behind.of_resolve hv hq, h.ahead.of_resolve hv hp, sub⟩
    cases hl : p.resolved.lookup name with
    | some known => exact follows_of_holds hv h hl
    | none =>
      have missed : q.resolved.lookup name = none := Progress.lookup_eq_none_of_not_holds
        fun held => by simpa [Progress.Holds, hl] using h.sub name held
      by_cases hc : name ∈ chain
      · rw [run_resolve_of_mem missed hc]
        exact .excused trivial
      cases remaining with
      | zero =>
        rw [run_resolve_zero missed hc]
        exact .excused trivial
      | succ remaining =>
        have inner : Follows (Ahead vars) (fun _ => True)
            ((expandText vars (resolve vars maxDepth remaining (chain ++ [name])) value).run q)
            ((expandText vars (resolve vars maxDepth remaining (chain ++ [name])) value).run p) :=
          .expandText (h.hand value) (fun _ _ => rfl) (fun _ _ x h => h.note x)
            fun _ _ _ hu _ _ h => ih remaining (Nat.lt_succ_self _) hu h
        rw [run_resolve_succ missed hc, run_resolve_succ hl hc]
        refine (inner.of_ok fun _ _ _ _ _ h => h.sub).bind fun _ _ _ _ sub => .ok fun x held => ?_
        rw [Progress.holds_remember] at held ⊢
        exact held.imp_right (sub x)

theorem expandPieces_append {resolver : String → String → Expansion String} (ps qs : List Piece) :
    expandPieces vars resolver (ps ++ qs) = (do
      let first ← expandPieces vars resolver ps
      let second ← expandPieces vars resolver qs
      return first ++ second) := by
  induction ps with
  | nil => simp only [List.nil_append, expandPieces, pure_bind, String.empty_append, bind_pure]
  | cons p ps ih =>
    simp only [List.cons_append, expandPieces, ih, bind_assoc, pure_bind, String.append_assoc]

theorem expand_append {s t a b : String} (apart : ¬ Straddles s.toList t.toList)
    (hs : expand vars maxDepth s = .ok (a, p)) (ht : expand vars maxDepth t = .ok (b, q)) :
    ∃ r, expand vars maxDepth (s ++ t) = .ok (a ++ b, r) ∧
      ∀ x, x ∈ r.unresolved ↔ x ∈ p.unresolved ∨ x ∈ q.unresolved := by
  have cut : pieces (s ++ t).toList = pieces s.toList ++ pieces t.toList := by
    rw [String.toList_append, pieces_append apart]
  have follows {ps : List Piece} {p q : Progress} (ahead : Ahead vars q p) :
      Follows (Ahead vars) (fun _ => True)
        ((expandPieces vars (resolve vars maxDepth maxDepth []) ps).run q)
        ((expandPieces vars (resolve vars maxDepth maxDepth []) ps).run p) :=
    .expandPieces ahead (fun _ _ _ _ => rfl) (fun _ _ x h => h.note x)
      fun _ _ _ _ _ hu _ _ h => follows_of_ahead hu h
  have start (text : String) : Progress.Sound vars (Progress.hand {} text) :=
    (Progress.Sound.start vars).hand text
  obtain ⟨p', hp', ahead⟩ := (follows ⟨start s, start (s ++ t), fun _ held => held⟩).exists_ok
    ((run_expandText s {}).symm.trans hs)
  have nothing : ∀ x, ¬ (Progress.hand {} t).Holds x := by simp [Progress.Holds]
  obtain ⟨r, hr, _⟩ := (follows ⟨start t, ahead.ahead, fun x held => absurd held (nothing x)⟩).exists_ok
    ((run_expandText t {}).symm.trans ht)
  have joined : expand vars maxDepth (s ++ t) = .ok (a ++ b, r) := by
    rw [expand, run_expandText, cut, expandPieces_append]
    exact run_bind_eq_ok.2 ⟨a, p', hp', run_bind_eq_ok.2 ⟨b, r, hr, rfl⟩⟩
  refine ⟨r, joined, fun x => ?_⟩
  obtain ⟨_, hx, noted⟩ := expands_of_expand hs
  obtain ⟨_, hy, noted'⟩ := expands_of_expand ht
  obtain ⟨_, hz, noted''⟩ := expands_of_expand joined
  rw [cut] at hz
  obtain ⟨_, rfl⟩ := hz.unique (hx.append hy)
  rw [noted, noted', noted'']
  simp [mem_noteAll]

namespace Renderer
variable {r : Renderer} {result : Except RenderError (String × Progress)} {out : String}

theorem conclude_eq_ok_iff : r.conclude result = .ok out ↔
    ∃ p, result = .ok (out, p) ∧ (r.strict → p.unresolved = []) := by
  constructor
  · intro h
    obtain ⟨p, rfl⟩ := conclude_eq_ok h
    refine ⟨p, rfl, fun strict => ?_⟩
    simpa [conclude, strict] using h
  · rintro ⟨p, rfl, complete⟩
    cases strict : r.strict with
    | false => exact conclude_lenient strict out p
    | true => simp [conclude, complete strict]

theorem render_append {s t a b : String} (apart : ¬ Straddles s.toList t.toList)
    (hs : r.render s vars = .ok a) (ht : r.render t vars = .ok b) :
    r.render (s ++ t) vars = .ok (a ++ b) := by
  rw [render_eq, conclude_eq_ok_iff] at hs ht ⊢
  obtain ⟨p, hp, boundFirst⟩ := hs
  obtain ⟨q, hq, boundSecond⟩ := ht
  obtain ⟨result, joined, unbound⟩ := expand_append apart hp hq
  refine ⟨result, joined, fun strict => List.eq_nil_iff_forall_not_mem.2 fun x hx => ?_⟩
  simpa [boundFirst strict, boundSecond strict] using (unbound x).1 hx

end Renderer
end PromptAssembly.Template
