import PromptAssembly.Proofs.Template.Rendering

/-!
# Expansion without a table

The same expansion with every variable expanded afresh wherever it is met. The table changes nothing
but errors of depth: what has been expanded once is not measured again below a longer chain.
-/
namespace PromptAssembly.Template
open Relation (TransGen ReflTransGen)

/-- Expands a variable below `chain` as `resolve` does, but knows no table. -/
def resolveAfresh (vars : Vars) (maxDepth : Nat) (remaining : Nat) (chain : List String)
    (name value : String) : Expansion String := do
  if name ∈ chain then throw (.circularReference (chain ++ [name]))
  match remaining with
  | 0 => throw (.depthExceeded name maxDepth)
  | remaining + 1 => expandText vars (resolveAfresh vars maxDepth remaining (chain ++ [name])) value

def expandAfresh (vars : Vars) (maxDepth : Nat) (template : String) :
    Except RenderError (String × Progress) :=
  (expandText vars (resolveAfresh vars maxDepth maxDepth []) template).run {}

def Renderer.renderAfresh (r : Renderer) (template : String) (vars : Vars) :
    Except RenderError String :=
  if hasOpening template.toList then r.conclude (expandAfresh vars r.maxDepth template)
  else .ok template

def RenderError.IsDepth (e : RenderError) : Prop :=
  ∃ name maxDepth, e = .depthExceeded name maxDepth

variable {vars : Vars} {maxDepth remaining : Nat} {chain : List String} {name value text : String}
  {p q : Progress} {e : RenderError}

theorem run_resolveAfresh_of_mem (hc : name ∈ chain) :
    (resolveAfresh vars maxDepth remaining chain name value).run q =
      .error (.circularReference (chain ++ [name])) := by
  unfold resolveAfresh
  simp only [hc, if_true]
  rfl

theorem run_resolveAfresh_zero (hc : name ∉ chain) :
    (resolveAfresh vars maxDepth 0 chain name value).run q =
      .error (.depthExceeded name maxDepth) := by
  unfold resolveAfresh
  simp only [hc, if_false]
  rfl

theorem resolveAfresh_succ (hc : name ∉ chain) :
    resolveAfresh vars maxDepth (remaining + 1) chain name value =
      expandText vars (resolveAfresh vars maxDepth remaining (chain ++ [name])) value := by
  conv => lhs; unfold resolveAfresh
  simp [hc]

theorem fails_of_run_resolveAfresh (hv : vars.get? name = some value)
    (h : (resolveAfresh vars maxDepth remaining chain name value).run q = .error e) :
    Fails vars maxDepth remaining chain name e := by
  induction remaining using Nat.strongRecOn generalizing chain name value q with
  | ind remaining ih =>
    by_cases hc : name ∈ chain
    · rw [run_resolveAfresh_of_mem hc, Except.error.injEq] at h
      exact h ▸ .again hc
    cases remaining with
    | zero =>
      rw [run_resolveAfresh_zero hc, Except.error.injEq] at h
      exact h ▸ .full hc
    | succ remaining =>
      rw [resolveAfresh_succ hc] at h
      obtain ⟨y, hy, u, q, hu, he⟩ := exists_of_run_expandText_error h
      exact .within hc hv hy ⟨u, hu⟩ (ih remaining (Nat.lt_succ_self _) hu he)

theorem genuine_of_expandAfresh (h : expandAfresh vars maxDepth text = .error e) :
    Genuine vars maxDepth text e := by
  obtain ⟨name, hname, value, q, hv, he⟩ := exists_of_run_expandText_error h
  exact (fails_of_run_resolveAfresh hv he).genuine ⟨hname, value, hv, trivial⟩ .nil (by simp)

theorem exists_of_run_resolveAfresh_ok {r : String × Progress}
    (h : (resolveAfresh vars maxDepth remaining chain name value).run q = .ok r) :
    ∃ less, remaining = less + 1 ∧
      (expandText vars (resolveAfresh vars maxDepth less (chain ++ [name])) value).run q = .ok r := by
  by_cases hc : name ∈ chain
  · simp [run_resolveAfresh_of_mem hc] at h
  cases remaining with
  | zero => simp [run_resolveAfresh_zero hc] at h
  | succ remaining => exact ⟨remaining, rfl, by rwa [← resolveAfresh_succ hc]⟩

theorem length_lt_of_run_resolveAfresh {xs : List String} {r : String × Progress}
    (h : (resolveAfresh vars maxDepth remaining chain name value).run q = .ok r)
    (trail : IsTrail vars value xs) : xs.length < remaining := by
  induction xs generalizing remaining chain name value q r with
  | nil =>
    obtain ⟨less, rfl, _⟩ := exists_of_run_resolveAfresh_ok h
    simp
  | cons x xs ih =>
    obtain ⟨less, rfl, hrun⟩ := exists_of_run_resolveAfresh_ok h
    obtain ⟨hx, u, hu, hxs⟩ := trail
    obtain ⟨q', r', hr⟩ := exists_of_run_expandText_ok hrun hx hu
    have := ih hr hxs
    simp only [List.length_cons]
    omega

theorem length_le_of_expandAfresh {xs : List String} {r : String × Progress}
    (h : expandAfresh vars maxDepth text = .ok r) (trail : IsTrail vars text xs) :
    xs.length ≤ maxDepth := by
  cases xs with
  | nil => simp
  | cons x xs =>
    obtain ⟨hx, u, hu, hxs⟩ := trail
    obtain ⟨q, r', hr⟩ := exists_of_run_expandText_ok h hx hu
    exact length_lt_of_run_resolveAfresh hr hxs

/-- No name of the pieces leads to the chain. -/
def Avoids (vars : Vars) (ps : List Piece) (chain : List String) : Prop :=
  ∀ p ∈ ps, ∀ x, p.name? = some x → ∀ y ∈ chain, ¬ ReflTransGen (Refers vars) x y

theorem Avoids.tail {p : Piece} {ps : List Piece} (h : Avoids vars (p :: ps) chain) :
    Avoids vars ps chain :=
  fun p' hp' => h p' (List.mem_cons_of_mem p hp')

theorem avoids_value (hv : vars.get? name = some value)
    (acc : ∀ y ∈ references value, Acc (flip (Refers vars)) y)
    (apart : ∀ y ∈ chain, ¬ ReflTransGen (Refers vars) name y) :
    Avoids vars (pieces value.toList) (chain ++ [name]) := by
  intro piece hp x hx y hy hxy
  have step : Refers vars name x := ⟨value, hv, mem_references.2 ⟨piece, hp, hx⟩⟩
  rcases List.mem_append.1 hy with hy | hy
  · exact apart y hy (.head step hxy)
  · obtain rfl := List.mem_singleton.1 hy
    exact not_transGen_self_of_acc (acc_of_value hv acc) (TransGen.head' step hxy)

/-- Where there is a full expansion to be found, a run without a table finds it unless the bound is
in the way. -/
theorem run_expandPieces_afresh {ps : List Piece} {out : String} {missing : List String}
    (h : Expands vars ps out missing) (avoids : Avoids vars ps chain) :
    (∃ q', (expandPieces vars (resolveAfresh vars maxDepth remaining chain) ps).run q =
        .ok (out, q') ∧ q'.unresolved = noteAll q.unresolved missing) ∨
      ∃ e, (expandPieces vars (resolveAfresh vars maxDepth remaining chain) ps).run q = .error e ∧
        e.IsDepth := by
  induction h generalizing remaining chain q with
  | nil => exact .inl ⟨q, rfl, rfl⟩
  | char _ ih =>
    rcases ih avoids.tail with ⟨q', hrun, hq'⟩ | ⟨e, hrun, he⟩
    · exact .inl ⟨q', run_bind_eq_ok.2 ⟨_, q, rfl, run_bind_eq_ok.2 ⟨_, q', hrun, rfl⟩⟩, hq'⟩
    · exact .inr ⟨e, run_bind_eq_error.2 (.inr ⟨_, q, rfl, run_bind_eq_error.2 (.inl hrun)⟩), he⟩
  | @unbound name _ _ missing free _ ih =>
    have head : (expandPiece vars (resolveAfresh vars maxDepth remaining chain)
        (.placeholder name)).run q = .ok (_, q.note (String.ofList name)) :=
      run_expandPiece_unbound free q
    rcases ih avoids.tail with ⟨q', hrun, hq'⟩ | ⟨e, hrun, he⟩
    · refine .inl ⟨q', run_bind_eq_ok.2 ⟨_, _, head, run_bind_eq_ok.2 ⟨_, q', hrun, rfl⟩⟩, ?_⟩
      rw [hq', Progress.unresolved_note, ← noteAll_append, List.singleton_append]
    · exact .inr ⟨e, run_bind_eq_error.2 (.inr ⟨_, _, head, run_bind_eq_error.2 (.inl hrun)⟩), he⟩
  | @bound name value _ _ _ _ _ held inner _ ihInner ihRest =>
    have apart := avoids _ List.mem_cons_self _ rfl
    have inside := avoids_value held inner.acc apart
    have fresh : String.ofList name ∉ chain := fun hc => apart _ hc .refl
    cases remaining with
    | zero =>
      refine .inr ⟨.depthExceeded (String.ofList name) maxDepth, run_bind_eq_error.2 (.inl ?_),
        _, _, rfl⟩
      rw [expandPiece_bound held]
      exact run_resolveAfresh_zero fresh
    | succ remaining =>
      have head : (expandPiece vars (resolveAfresh vars maxDepth (remaining + 1) chain)
          (.placeholder name)).run q = (expandPieces vars
            (resolveAfresh vars maxDepth remaining (chain ++ [String.ofList name]))
            (pieces value.toList)).run (q.hand value) := by
        rw [expandPiece_bound held, resolveAfresh_succ fresh, run_expandText]
      rcases ihInner inside with ⟨q₁, hinner, hq₁⟩ | ⟨e, hinner, he⟩
      · rw [← head] at hinner
        rcases ihRest avoids.tail with ⟨q₂, hrest, hq₂⟩ | ⟨e, hrest, he⟩
        · refine .inl ⟨q₂, run_bind_eq_ok.2 ⟨_, q₁, hinner, ?_⟩, ?_⟩
          · exact run_bind_eq_ok.2 ⟨_, q₂, hrest, rfl⟩
          · rw [hq₂, hq₁, Progress.unresolved_hand, noteAll_append]
        · exact .inr ⟨e, run_bind_eq_error.2
            (.inr ⟨_, q₁, hinner, run_bind_eq_error.2 (.inl hrest)⟩), he⟩
      · rw [← head] at hinner
        exact .inr ⟨e, run_bind_eq_error.2 (.inl hinner), he⟩

theorem run_resolveAfresh_of_expands {out : String} {missing : List String}
    (h : Expands vars (pieces value.toList) out missing) (fresh : name ∉ chain)
    (avoids : Avoids vars (pieces value.toList) (chain ++ [name])) :
    (∃ q', (resolveAfresh vars maxDepth remaining chain name value).run q = .ok (out, q') ∧
        q'.unresolved = noteAll q.unresolved missing) ∨
      ∃ e, (resolveAfresh vars maxDepth remaining chain name value).run q = .error e ∧
        e.IsDepth := by
  cases remaining with
  | zero => exact .inr ⟨_, run_resolveAfresh_zero fresh, name, maxDepth, rfl⟩
  | succ remaining =>
    rw [resolveAfresh_succ fresh, run_expandText]
    exact run_expandPieces_afresh h avoids

/-- A run without a table beside one with a faithful table: both have noted the same names. -/
def Alongside (vars : Vars) (q p : Progress) : Prop :=
  q.unresolved = p.unresolved ∧ p.Faithful vars

theorem Alongside.hand (h : Alongside vars q p) (text : String) :
    Alongside vars (q.hand text) (p.hand text) :=
  ⟨h.1, h.2.hand text⟩

theorem Alongside.note (h : Alongside vars q p) (x : String) :
    Alongside vars (q.note x) (p.note x) := by
  refine ⟨?_, h.2.note x⟩
  rw [Progress.unresolved_note, Progress.unresolved_note, h.1]

/-- Below a chain that leads to it, a variable with a full expansion is looked up or expanded, with
one outcome. -/
theorem follows_of_lookup (hv : vars.get? name = some value)
    (above : ∀ y ∈ chain, TransGen (Refers vars) y name) (beside : Alongside vars q p)
    (hl : p.resolved.lookup name = some text) :
    Follows (Alongside vars) RenderError.IsDepth
      ((resolveAfresh vars maxDepth remaining chain name value).run q)
      ((resolve vars maxDepth remaining chain name value).run p) := by
  obtain ⟨missing, hx, hnoted, _⟩ := beside.2.known hv hl
  have apart : ∀ y ∈ chain, ¬ ReflTransGen (Refers vars) name y := fun y hy back =>
    not_transGen_self_of_acc (acc_of_value hv hx.acc) (TransGen.trans_right back (above y hy))
  have fresh : name ∉ chain := fun hc => apart name hc .refl
  have avoids := avoids_value hv hx.acc apart
  rw [run_resolve_of_lookup hl]
  rcases run_resolveAfresh_of_expands hx fresh avoids with ⟨q', hrun, hq'⟩ | ⟨e, hrun, he⟩
  · rw [hrun]
    exact .ok ⟨by rw [hq', beside.1, ← hnoted], beside.2⟩
  · rw [hrun]
    exact .excused he

theorem follows_resolve (hv : vars.get? name = some value)
    (above : ∀ y ∈ chain, TransGen (Refers vars) y name) (beside : Alongside vars q p) :
    Follows (Alongside vars) RenderError.IsDepth
      ((resolveAfresh vars maxDepth remaining chain name value).run q)
      ((resolve vars maxDepth remaining chain name value).run p) := by
  induction remaining using Nat.strongRecOn generalizing chain name value q p with
  | ind remaining ih =>
    cases hl : p.resolved.lookup name with
    | some text => exact follows_of_lookup hv above beside hl
    | none =>
      by_cases hc : name ∈ chain
      · rw [run_resolveAfresh_of_mem hc, run_resolve_of_mem hl hc]
        exact .error
      cases remaining with
      | zero =>
        rw [run_resolveAfresh_zero hc, run_resolve_zero hl hc]
        exact .error
      | succ remaining =>
        have inner : Follows (Alongside vars) RenderError.IsDepth
            ((expandText vars (resolveAfresh vars maxDepth remaining (chain ++ [name])) value).run q)
            ((expandText vars (resolve vars maxDepth remaining (chain ++ [name])) value).run p) := by
          refine .expandText (beside.hand value) (fun _ _ => rfl) (fun _ _ x h => h.note x) ?_
          intro x hmem u hu q p beside
          have below : ∀ y ∈ chain ++ [name], TransGen (Refers vars) y x := by
            intro y hy
            have step : Refers vars name x := ⟨value, hv, hmem⟩
            rcases List.mem_append.1 hy with hy | hy
            · exact (above y hy).tail step
            · obtain rfl := List.mem_singleton.1 hy
              exact .single step
          exact ih remaining (Nat.lt_succ_self _) hu below beside
        rw [resolveAfresh_succ hc, run_resolve_succ hl hc,
          ← bind_pure (expandText vars (resolveAfresh _ _ _ _) _)]
        refine inner.bind fun text q' p' hrun beside' => ?_
        -- the new entry is a full expansion, for that is what the second run has made of the value
        obtain ⟨missing, hx, hnoted, _⟩ :=
          (unfolds_resolve maxDepth remaining (chain ++ [name])).expandText beside.2 hrun
        refine .ok ⟨beside'.1, beside'.2.remember hv hx fun y hy => ?_⟩
        rw [hnoted]
        exact mem_noteAll.2 (.inr hy)

theorem follows_expand (vars : Vars) (maxDepth : Nat) (text : String) :
    Follows (Alongside vars) RenderError.IsDepth (expandAfresh vars maxDepth text)
      (expand vars maxDepth text) := by
  refine .expandText ⟨rfl, Progress.faithful_of_resolved_eq_nil rfl⟩ (fun _ _ => rfl)
    (fun _ _ x h => h.note x) ?_
  intro x _ u hu q p beside
  exact follows_resolve hu (by simp) beside

theorem follows_resolve_of_le {larger roomier : Nat} (h : remaining ≤ roomier) :
    Follows Eq RenderError.IsDepth ((resolve vars maxDepth remaining chain name value).run p)
      ((resolve vars larger roomier chain name value).run p) := by
  induction remaining using Nat.strongRecOn generalizing roomier chain name value p with
  | ind remaining ih =>
    cases hl : p.resolved.lookup name with
    | some text =>
      rw [run_resolve_of_lookup hl, run_resolve_of_lookup hl]
      exact .ok rfl
    | none =>
      by_cases hc : name ∈ chain
      · rw [run_resolve_of_mem hl hc, run_resolve_of_mem hl hc]
        exact .error
      cases remaining with
      | zero =>
        rw [run_resolve_zero hl hc]
        exact .excused ⟨name, maxDepth, rfl⟩
      | succ remaining =>
        obtain ⟨roomier, rfl⟩ := Nat.exists_eq_add_of_le' (Nat.le_trans (Nat.le_add_left 1 _) h)
        have inner : Follows Eq RenderError.IsDepth
            ((expandText vars (resolve vars maxDepth remaining (chain ++ [name])) value).run p)
            ((expandText vars (resolve vars larger roomier (chain ++ [name])) value).run p) := by
          refine .expandText rfl (fun _ _ => rfl) (fun _ _ x h => h ▸ rfl) ?_
          rintro x _ u _ q p rfl
          exact ih remaining (Nat.lt_succ_self _) (Nat.le_of_succ_le_succ h)
        rw [run_resolve_succ hl hc, run_resolve_succ hl hc]
        refine inner.bind fun text q p _ h => ?_
        exact h ▸ .ok rfl

theorem follows_expand_of_le {larger : Nat} (h : maxDepth ≤ larger) :
    Follows Eq RenderError.IsDepth (expand vars maxDepth text) (expand vars larger text) := by
  refine .expandText rfl (fun _ _ => rfl) (fun _ _ x h => h ▸ rfl) ?_
  rintro x _ u _ q p rfl
  exact follows_resolve_of_le h

namespace Renderer
variable {r : Renderer} {template : String}

theorem renderAfresh_eq (r : Renderer) (template : String) (vars : Vars) :
    r.renderAfresh template vars = r.conclude (expandAfresh vars r.maxDepth template) := by
  unfold renderAfresh
  split
  · rfl
  · next h =>
    have none := references_eq_nil (Bool.not_eq_true _ ▸ h)
    rw [expandAfresh, run_expandText_of_no_references none]
    simp [conclude]

theorem conclude_eq_of_follows {R : Progress → Progress → Prop}
    {first second : Except RenderError (String × Progress)}
    (h : Follows R RenderError.IsDepth first second)
    (noted : ∀ q p, R q p → q.unresolved = p.unresolved) :
    r.conclude first = r.conclude second ∨
      ∃ name d, r.conclude first = .error (.depthExceeded name d) := by
  cases h with
  | ok h => exact .inl (by simp only [conclude, noted _ _ h])
  | error => exact .inl rfl
  | excused h =>
    obtain ⟨name, d, rfl⟩ := h
    exact .inr ⟨name, d, rfl⟩

theorem renderAfresh_eq_render_or_deep (r : Renderer) (template : String) (vars : Vars) :
    r.renderAfresh template vars = r.render template vars ∨
      ∃ name d, r.renderAfresh template vars = .error (.depthExceeded name d) := by
  rw [renderAfresh_eq, render_eq]
  exact conclude_eq_of_follows (follows_expand vars r.maxDepth template) fun _ _ h => h.1

theorem render_eq_render_or_deep {r roomier : Renderer} (same : r.strict = roomier.strict)
    (h : r.maxDepth ≤ roomier.maxDepth) (template : String) (vars : Vars) :
    r.render template vars = roomier.render template vars ∨
      ∃ name d, r.render template vars = .error (.depthExceeded name d) := by
  have alike : r.conclude = roomier.conclude := by
    funext result
    simp only [conclude, same]
  rw [render_eq, render_eq, ← alike]
  exact conclude_eq_of_follows (follows_expand_of_le h) fun _ _ h => h ▸ rfl

theorem renderAfresh_eq_render_of_room (room : vars.entries.length ≤ r.maxDepth) :
    r.renderAfresh template vars = r.render template vars := by
  rcases r.renderAfresh_eq_render_or_deep template vars with same | ⟨name, d, h⟩
  · exact same
  · rw [renderAfresh_eq] at h
    have := (genuine_of_expandAfresh (conclude_eq_deep h)).lt_length
    omega

/-- Renderers that are not stopped by their bounds agree. -/
theorem render_eq_render_of_room {roomy : Renderer} (same : r.strict = roomy.strict)
    (room : vars.entries.length ≤ roomy.maxDepth)
    (shallow : ∀ name d, r.render template vars ≠ .error (.depthExceeded name d)) :
    r.render template vars = roomy.render template vars := by
  rcases Nat.le_total r.maxDepth roomy.maxDepth with le | le
  · rcases render_eq_render_or_deep same le template vars with agree | ⟨name, d, h⟩
    · exact agree
    · exact absurd h (shallow name d)
  · rcases render_eq_render_or_deep same.symm le template vars with agree | ⟨name, d, h⟩
    · exact agree.symm
    · have := (genuine_of_expand (expand_of_render_deep h)).lt_length
      omega

theorem long_trail_of_renderAfresh {name : String} {d : Nat}
    (h : r.renderAfresh template vars = .error (.depthExceeded name d)) :
    d = r.maxDepth ∧ ∃ xs, IsTrail vars template xs ∧ r.maxDepth < xs.length := by
  rw [renderAfresh_eq] at h
  cases genuine_of_expandAfresh (conclude_eq_deep h) with
  | deep trail _ _ full => exact ⟨rfl, _, trail, by simp [full]⟩

theorem renderAfresh_deep_of_long_trail {xs : List String} (acyclic : Acyclic vars template)
    (trail : IsTrail vars template xs) (long : r.maxDepth < xs.length) :
    ∃ name, r.renderAfresh template vars = .error (.depthExceeded name r.maxDepth) := by
  rw [renderAfresh_eq]
  cases hx : expandAfresh vars r.maxDepth template with
  | ok result => exact absurd (length_le_of_expandAfresh hx trail) (by omega)
  | error e =>
    cases genuine_of_expandAfresh hx with
    | circular path _ again _ =>
      obtain ⟨hreach, hcycle⟩ := path.cycle again
      exact absurd hcycle (acyclic _ hreach)
    | @deep _ name _ _ _ _ => exact ⟨name, rfl⟩

/-- The table hides errors of depth and nothing else. What a renderer yields in place of one is what
it would yield afresh with room for all variables; afresh, a template without cycles is too deep if
and only if one of its trails is longer than the bound. -/
theorem table_hides_only_depth (r : Renderer) (template : String) (vars : Vars) :
    ((∀ name d, r.renderAfresh template vars ≠ .error (.depthExceeded name d)) →
      r.render template vars = r.renderAfresh template vars) ∧
    ((∀ name d, r.render template vars ≠ .error (.depthExceeded name d)) →
      ∀ d, vars.entries.length ≤ d →
        r.render template vars = (r.withMaxDepth d).renderAfresh template vars) ∧
    ((∃ name d, r.render template vars = .error (.depthExceeded name d)) →
      ∃ name, r.renderAfresh template vars = .error (.depthExceeded name r.maxDepth)) ∧
    (Acyclic vars template →
      ((∃ name, r.renderAfresh template vars = .error (.depthExceeded name r.maxDepth)) ↔
        ∃ xs, IsTrail vars template xs ∧ r.maxDepth < xs.length)) := by
  refine ⟨fun shallow => ?_, fun shallow d room => ?_, ?_, fun acyclic => ⟨?_, ?_⟩⟩
  · rcases r.renderAfresh_eq_render_or_deep template vars with same | ⟨name, d, h⟩
    · exact same.symm
    · exact absurd h (shallow name d)
  · have roomy : vars.entries.length ≤ (r.withMaxDepth d).maxDepth :=
      Nat.le_trans room (Nat.le_max_left d 1)
    have same : r.strict = (r.withMaxDepth d).strict := rfl
    rw [renderAfresh_eq_render_of_room roomy]
    exact render_eq_render_of_room same roomy shallow
  · rintro ⟨name, d, h⟩
    rcases r.renderAfresh_eq_render_or_deep template vars with same | ⟨name', d', h'⟩
    · rw [← same] at h
      exact ⟨name, (long_trail_of_renderAfresh h).1 ▸ h⟩
    · exact ⟨name', (long_trail_of_renderAfresh h').1 ▸ h'⟩
  · rintro ⟨name, h⟩
    exact (long_trail_of_renderAfresh h).2
  · rintro ⟨xs, trail, long⟩
    exact renderAfresh_deep_of_long_trail acyclic trail long

/-- The order in which the variables are mentioned decides whether the long trail is noticed. -/
theorem table_hides_depth :
    let vars : Vars := Dict.ofList [("a", "{{b}}"), ("b", "{{c}}"), ("c", "x")]
    let r : Renderer := { maxDepth := 2 }
    Acyclic vars "{{b}}{{a}}" ∧ IsTrail vars "{{b}}{{a}}" ["a", "b", "c"] ∧
      r.render "{{b}}{{a}}" vars = .ok "xx" ∧
      r.renderAfresh "{{b}}{{a}}" vars = .error (.depthExceeded "c" 2) ∧
      r.render "{{a}}{{b}}" vars = .error (.depthExceeded "c" 2) := by
  intro vars r
  have found : r.render "{{b}}{{a}}" vars = .ok "xx" := by decide +kernel
  refine ⟨acyclic_of_render found, ?_, found, by decide +kernel, by decide +kernel⟩
  have a : "a" ∈ references "{{b}}{{a}}" := by decide +kernel
  have b : "b" ∈ references "{{b}}" := by decide +kernel
  have c : "c" ∈ references "{{c}}" := by decide +kernel
  exact ⟨a, "{{b}}", by decide +kernel, b, "{{c}}", by decide +kernel, c, "x", by decide +kernel, trivial⟩

/-- All four parts on a template whose long trail comes last, and on one whose trails are short. -/
theorem table_hides_only_depth_shared :
    let vars : Vars := Dict.ofList [("a", "{{b}}"), ("b", "{{c}}"), ("c", "x")]
    let r : Renderer := { maxDepth := 2 }
    r.render "{{b}}{{c}}" vars = r.renderAfresh "{{b}}{{c}}" vars ∧
      r.render "{{b}}{{a}}" vars = (r.withMaxDepth 3).renderAfresh "{{b}}{{a}}" vars ∧
      (∃ name, r.renderAfresh "{{a}}" vars = .error (.depthExceeded name 2)) ∧
      ∃ xs, IsTrail vars "{{b}}{{a}}" xs ∧ 2 < xs.length := by
  intro vars r
  have short : r.renderAfresh "{{b}}{{c}}" vars = .ok "xx" := by decide +kernel
  have hidden : r.render "{{b}}{{a}}" vars = .ok "xx" := by decide +kernel
  have deep : r.render "{{a}}" vars = .error (.depthExceeded "c" 2) := by decide +kernel
  have afresh : r.renderAfresh "{{b}}{{a}}" vars = .error (.depthExceeded "c" 2) := by decide +kernel
  have acyclic := acyclic_of_render hidden
  refine ⟨?_, ?_, ?_, ?_⟩
  · exact (table_hides_only_depth r "{{b}}{{c}}" vars).1 (by simp [short])
  · exact (table_hides_only_depth r "{{b}}{{a}}" vars).2.1 (by simp [hidden]) 3 (by decide)
  · exact (table_hides_only_depth r "{{a}}" vars).2.2.1 ⟨"c", 2, deep⟩
  · exact ((table_hides_only_depth r "{{b}}{{a}}" vars).2.2.2 acyclic).1 ⟨"c", afresh⟩

end Renderer
end PromptAssembly.Template
