import PromptAssembly.Proofs.Template.Rendering

/-!
# Names without a value

A strict renderer expands as a lenient one does and then looks at the names for which it found no
value. They are the unbound names that can be reached from the template (`Expands.mem_missing_iff`),
and they are reported once each, in the order in which the full expansion meets them
(`Renderer.strict_reports_unbound`).
-/
namespace PromptAssembly.Template

theorem nodup_noteAll {known : List String} (names : List String) (h : known.Nodup) :
    (noteAll known names).Nodup := by
  induction names generalizing known with
  | nil => exact h
  | cons name names ih =>
    rw [← List.singleton_append, noteAll_append]
    apply ih
    by_cases met : name ∈ known
    · simpa [noteAll, met] using h
    · simpa [noteAll, met] using nodup_append_singleton h met

theorem noteAll_eq_append (known names : List String) :
    noteAll known names = known ++ (names.filter (· ∉ known)).eraseDups := by
  induction names generalizing known with
  | nil => simp [noteAll]
  | cons name names ih =>
    rw [← List.singleton_append, noteAll_append, ih]
    by_cases met : name ∈ known
    · simp [noteAll, met]
    · have later : names.filter (· ∉ known ++ [name]) =
          (names.filter (· ∉ known)).filter (fun x => !x == name) := by
        rw [List.filter_filter]
        refine List.filter_congr fun x _ => ?_
        by_cases same : x = name <;> simp [same]
      have noted : noteAll known [name] = known ++ [name] := by simp [noteAll, met]
      rw [noted, later, List.append_assoc, List.singleton_append, List.singleton_append,
        List.filter_cons_of_pos (by simpa using met), List.eraseDups_cons]

theorem noteAll_nil (names : List String) : noteAll [] names = names.eraseDups := by
  simp [noteAll_eq_append]

variable {vars : Vars} {text out name value : String} {ps : List Piece} {missing : List String}

/-- All that the pieces name can be reached from the text. -/
def Within (vars : Vars) (text : String) (ps : List Piece) : Prop :=
  ∀ p ∈ ps, ∀ name, p.name? = some name → Reachable vars text name

namespace Within

theorem self (vars : Vars) (text : String) : Within vars text (pieces text.toList) :=
  fun p hp _ hname => .mentioned (mem_references.2 ⟨p, hp, hname⟩)

theorem head {p : Piece} (h : Within vars text (p :: ps)) (hname : p.name? = some name) :
    Reachable vars text name :=
  h p List.mem_cons_self name hname

theorem tail {p : Piece} (h : Within vars text (p :: ps)) : Within vars text ps :=
  fun q hq => h q (List.mem_cons_of_mem p hq)

theorem of_value (hx : Reachable vars text name) (hv : vars.get? name = some value) :
    Within vars text (pieces value.toList) :=
  fun p hp _ hname => hx.step ⟨value, hv, mem_references.2 ⟨p, hp, hname⟩⟩

end Within

namespace Expands

theorem reachable_of_mem_missing (h : Expands vars ps out missing) (within : Within vars text ps)
    (hx : name ∈ missing) : Reachable vars text name ∧ vars.get? name = none := by
  induction h with
  | nil => simp at hx
  | char _ ih => exact ih within.tail hx
  | unbound free _ ih =>
    rcases List.mem_cons.1 hx with rfl | hx
    · exact ⟨within.head rfl, free⟩
    · exact ih within.tail hx
  | bound held _ _ ihInner ihRest =>
    rcases List.mem_append.1 hx with hx | hx
    · exact ihInner (.of_value (within.head rfl) held) hx
    · exact ihRest within.tail hx

theorem cases_of_mem (h : Expands vars ps out missing) {p : Piece} (hp : p ∈ ps)
    (hname : p.name? = some name) : (vars.get? name = none ∧ name ∈ missing) ∨
      ∃ value part less, vars.get? name = some value ∧
        Expands vars (pieces value.toList) part less ∧ less ⊆ missing := by
  induction h with
  | nil => simp at hp
  | char _ ih =>
    rcases List.mem_cons.1 hp with rfl | hp
    · simp [Piece.name?] at hname
    · exact ih hp
  | unbound free _ ih =>
    rcases List.mem_cons.1 hp with rfl | hp
    · obtain rfl := Option.some.inj hname
      exact .inl ⟨free, List.mem_cons_self⟩
    · rcases ih hp with ⟨free, hmem⟩ | ⟨value, part, less, held, hx, hsub⟩
      · exact .inl ⟨free, List.mem_cons_of_mem _ hmem⟩
      · exact .inr ⟨value, part, less, held, hx, List.subset_cons_of_subset _ hsub⟩
  | @bound _ value _ part _ less more held inner _ _ ih =>
    rcases List.mem_cons.1 hp with rfl | hp
    · obtain rfl := Option.some.inj hname
      exact .inr ⟨value, part, less, held, inner, List.subset_append_left less more⟩
    · rcases ih hp with ⟨free, hmem⟩ | ⟨value, part, less', held, hx, hsub⟩
      · exact .inl ⟨free, List.mem_append_right less hmem⟩
      · exact .inr ⟨value, part, less', held, hx, List.subset_append_of_subset_right less hsub⟩

/-- However deep a name lies, some expansion below this one mentions it. -/
theorem exists_of_reachable (h : Expands vars (pieces text.toList) out missing)
    (hx : Reachable vars text name) : ∃ inner part less, name ∈ references inner ∧
      Expands vars (pieces inner.toList) part less ∧ less ⊆ missing := by
  induction hx with
  | mentioned hx => exact ⟨text, out, missing, hx, h, List.Subset.refl missing⟩
  | step _ refers ih =>
    obtain ⟨inner, part, less, hmem, hx, hsub⟩ := ih
    obtain ⟨value, hv, hy⟩ := refers
    obtain ⟨p, hp, hname⟩ := mem_references.1 hmem
    rcases hx.cases_of_mem hp hname with ⟨free, _⟩ | ⟨value', part', less', held, hx', hsub'⟩
    · simp [hv] at free
    · obtain rfl := Option.some.inj (hv.symm.trans held)
      exact ⟨value, part', less', hy, hx', List.Subset.trans hsub' hsub⟩

theorem mem_missing_iff (h : Expands vars (pieces text.toList) out missing) :
    name ∈ missing ↔ Reachable vars text name ∧ vars.get? name = none := by
  constructor
  · exact h.reachable_of_mem_missing (.self vars text)
  · rintro ⟨hx, free⟩
    obtain ⟨inner, part, less, hmem, hinner, hsub⟩ := h.exists_of_reachable hx
    obtain ⟨p, hp, hname⟩ := mem_references.1 hmem
    rcases hinner.cases_of_mem hp hname with ⟨_, hmissing⟩ | ⟨value, _, _, held, _⟩
    · exact hsub hmissing
    · simp [held] at free

end Expands

namespace Renderer
variable {r : Renderer} {template : String}

/-- The expansion is the same in both modes. -/
theorem render_withStrict (r : Renderer) (strict : Bool) (template : String) (vars : Vars) :
    (r.withStrict strict).render template vars =
      (r.withStrict strict).conclude (expand vars r.maxDepth template) :=
  render_eq (r.withStrict strict) template vars

theorem render_strict_of_error {e : RenderError}
    (h : (r.withStrict false).render template vars = .error e) :
    (r.withStrict true).render template vars = .error e := by
  rw [render_withStrict] at h ⊢
  cases hx : expand vars r.maxDepth template with
  | error e' =>
    rw [hx] at h
    exact h
  | ok result =>
    rw [hx, conclude_lenient rfl] at h
    simp at h

/-- Where a lenient renderer yields a text, a strict one yields it too or what is missing in it. -/
theorem exists_render_strict (h : (r.withStrict false).render template vars = .ok out) : ∃ missing,
    Expands vars (pieces template.toList) out missing ∧
      (r.withStrict true).render template vars =
        if missing = [] then .ok out else .error (.unresolvedPlaceholders missing.eraseDups) := by
  rw [render_withStrict] at h
  obtain ⟨p, hp⟩ := conclude_eq_ok h
  obtain ⟨missing, hx, hnoted⟩ := expands_of_expand hp
  refine ⟨missing, hx, ?_⟩
  rw [render_withStrict, hp, conclude, hnoted, noteAll_nil]
  cases missing with
  | nil => rfl
  | cons name names => simp [withStrict, List.eraseDups_cons]

/-- A strict renderer fails as a lenient one does. Where the lenient one yields a text, so does the
strict one if every name that can be reached is bound; otherwise it reports the unbound ones, each
once and in the order in which the full expansion meets them. -/
theorem strict_reports_unbound (r : Renderer) (template : String) (vars : Vars) :
    (∀ e, (r.withStrict false).render template vars = .error e →
      (r.withStrict true).render template vars = .error e) ∧
    (∀ out, (r.withStrict false).render template vars = .ok out →
      ((¬ ∃ name, Reachable vars template name ∧ vars.get? name = none) →
        (r.withStrict true).render template vars = .ok out) ∧
      ((∃ name, Reachable vars template name ∧ vars.get? name = none) →
        ∃ names, (r.withStrict true).render template vars =
            .error (.unresolvedPlaceholders names) ∧
          names.Nodup ∧
          (∀ name, name ∈ names ↔ Reachable vars template name ∧ vars.get? name = none) ∧
          ∃ met, Expands vars (pieces template.toList) out met ∧ names = met.eraseDups)) := by
  refine ⟨fun e h => render_strict_of_error h, fun out h => ?_⟩
  obtain ⟨met, hx, hstrict⟩ := exists_render_strict h
  constructor
  · intro bound
    have complete : met = [] := by
      apply List.eq_nil_iff_forall_not_mem.2
      intro name hname
      exact bound ⟨name, hx.mem_missing_iff.1 hname⟩
    rw [hstrict, if_pos complete]
  · rintro ⟨name, hname⟩
    have lacking : met ≠ [] := List.ne_nil_of_mem (hx.mem_missing_iff.2 hname)
    refine ⟨met.eraseDups, by rw [hstrict, if_neg lacking], ?_, ?_, met, hx, rfl⟩
    · rw [← noteAll_nil]
      exact nodup_noteAll met .nil
    · intro name
      rw [List.mem_eraseDups, hx.mem_missing_iff]

/-- A name that is met first below a variable and again in the template, another behind a variable
that is looked up the second time, and a template whose names are all bound. -/
theorem strict_reports_unbound_shared :
    let vars : Vars := Dict.ofList [("a", "{{b}}{{x}}"), ("b", "{{y}}"), ("c", "{{c}}"), ("d", "")]
    let r : Renderer := { maxDepth := 2 }
    (r.withStrict true).render "{{c}}{{x}}" vars = .error (.circularReference ["c", "c"]) ∧
      (r.withStrict true).render "{{d}}" vars = .ok "" ∧
      (r.withStrict true).render "{{b}}{{a}}{{z}}{{y}}" vars =
        .error (.unresolvedPlaceholders ["y", "x", "z"]) ∧
      (∀ name, name ∈ ["y", "x", "z"] ↔
        Reachable vars "{{b}}{{a}}{{z}}{{y}}" name ∧ vars.get? name = none) ∧
      ∃ met, Expands vars (pieces "{{b}}{{a}}{{z}}{{y}}".toList) "{{y}}{{y}}{{x}}{{z}}{{y}}" met ∧
        ["y", "x", "z"] = met.eraseDups := by
  intro vars r
  have cyclic : (r.withStrict false).render "{{c}}{{x}}" vars =
      .error (.circularReference ["c", "c"]) := by decide +kernel
  have full : (r.withStrict false).render "{{d}}" vars = .ok "" := by decide +kernel
  have partly : (r.withStrict false).render "{{b}}{{a}}{{z}}{{y}}" vars =
      .ok "{{y}}{{y}}{{x}}{{z}}{{y}}" := by decide +kernel
  have reported : (r.withStrict true).render "{{b}}{{a}}{{z}}{{y}}" vars =
      .error (.unresolvedPlaceholders ["y", "x", "z"]) := by decide +kernel
  have z : "z" ∈ references "{{b}}{{a}}{{z}}{{y}}" := by decide +kernel
  have d : references "{{d}}" = ["d"] := by decide +kernel
  have held : vars.get? "d" = some "" := by decide +kernel
  have only : ∀ name, Reachable vars "{{d}}" name → name = "d" := by
    intro name hname
    induction hname with
    | mentioned h => simpa [d] using h
    | step _ refers ih =>
      obtain ⟨value, hv, hy⟩ := refers
      rw [ih, held] at hv
      simp [← Option.some.inj hv, references, pieces] at hy
  refine ⟨(strict_reports_unbound r "{{c}}{{x}}" vars).1 _ cyclic, ?_, reported, ?_⟩
  · refine ((strict_reports_unbound r "{{d}}" vars).2 _ full).1 ?_
    rintro ⟨name, hname, free⟩
    simp [only name hname, held] at free
  · obtain ⟨names, hrun, _, exact, order⟩ := ((strict_reports_unbound r _ vars).2 _ partly).2
      ⟨"z", .mentioned z, by decide +kernel⟩
    obtain rfl : ["y", "x", "z"] = names := by simpa [reported] using hrun
    exact ⟨exact, order⟩

end Renderer
end PromptAssembly.Template
