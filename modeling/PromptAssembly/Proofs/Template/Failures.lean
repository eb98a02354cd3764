import PromptAssembly.Proofs.Template.Runs

/-!
# How expansions fail

An expansion fails for one of two reasons, and each names a trail from the text: a variable that is
met again on its own trail, or one that is met where the trail is as long as the bound allows. The
table plays no part in this: the error depends on the chain alone.
-/
namespace PromptAssembly.Template

/-- What resolving a variable below a chain, on which `remaining` more names fit, may fail with. -/
inductive Fails (vars : Vars) (maxDepth : Nat) : Nat → List String → String → RenderError → Prop
  | again {remaining : Nat} {chain : List String} {name : String} (met : name ∈ chain) :
      Fails vars maxDepth remaining chain name (.circularReference (chain ++ [name]))
  | full {chain : List String} {name : String} (fresh : name ∉ chain) :
      Fails vars maxDepth 0 chain name (.depthExceeded name maxDepth)
  | within {remaining : Nat} {chain : List String} {name value y : String} {e : RenderError}
      (fresh : name ∉ chain) (held : vars.get? name = some value) (mentioned : y ∈ references value)
      (bound : ∃ u, vars.get? y = some u)
      (inner : Fails vars maxDepth remaining (chain ++ [name]) y e) :
      Fails vars maxDepth (remaining + 1) chain name e

/-- Errors with a trail from the text to show for them. -/
inductive Genuine (vars : Vars) (maxDepth : Nat) (text : String) : RenderError → Prop
  | circular {path : List String} {name : String} (trail : IsTrail vars text (path ++ [name]))
      (distinct : path.Nodup) (again : name ∈ path) (short : path.length ≤ maxDepth) :
      Genuine vars maxDepth text (.circularReference (path ++ [name]))
  | deep {path : List String} {name : String} (trail : IsTrail vars text (path ++ [name]))
      (distinct : path.Nodup) (fresh : name ∉ path) (full : path.length = maxDepth) :
      Genuine vars maxDepth text (.depthExceeded name maxDepth)

variable {vars : Vars} {maxDepth remaining : Nat} {chain : List String} {text name value : String}
  {e : RenderError} {p : Progress}

theorem Fails.genuine (h : Fails vars maxDepth remaining chain name e)
    (trail : IsTrail vars text (chain ++ [name])) (distinct : chain.Nodup)
    (room : chain.length + remaining = maxDepth) : Genuine vars maxDepth text e := by
  induction h with
  | again met => exact .circular trail distinct met (by omega)
  | full fresh => exact .deep trail distinct fresh (by omega)
  | within fresh held mentioned bound _ ih =>
    obtain ⟨u, hu⟩ := bound
    have next : IsTrail vars _ [_] := ⟨mentioned, u, hu, trivial⟩
    refine ih (by simpa using trail.extend held next) (nodup_append_singleton distinct fresh) ?_
    simp only [List.length_append, List.length_singleton]
    omega

theorem fails_of_run_resolve (hv : vars.get? name = some value)
    (h : (resolve vars maxDepth remaining chain name value).run p = .error e) :
    Fails vars maxDepth remaining chain name e := by
  induction remaining generalizing chain name value p with
  | zero =>
    rcases run_resolve_error_cases h with ⟨hc, rfl⟩ | ⟨hc, _, rfl⟩ | ⟨_, _, hr, _⟩
    · exact .again hc
    · exact .full hc
    · omega
  | succ remaining ih =>
    rcases run_resolve_error_cases h with ⟨hc, rfl⟩ | ⟨_, hr, _⟩ | ⟨less, hc, hr, hrun⟩
    · exact .again hc
    · omega
    · obtain rfl := Nat.succ.inj hr
      obtain ⟨y, hy, u, q, hu, he⟩ := exists_of_run_expandText_error hrun
      exact .within hc hv hy ⟨u, hu⟩ (ih hu he)

theorem genuine_of_expand (h : expand vars maxDepth text = .error e) :
    Genuine vars maxDepth text e := by
  obtain ⟨name, hname, value, q, hv, he⟩ := exists_of_run_expandText_error h
  exact (fails_of_run_resolve hv he).genuine ⟨hname, value, hv, trivial⟩ .nil (by simp)

namespace Genuine

theorem cycle (h : Genuine vars maxDepth text (.circularReference chain)) :
    ∃ x, Reachable vars text x ∧ Relation.TransGen (Refers vars) x x := by
  cases h with
  | circular trail _ again _ => exact ⟨_, trail.cycle again⟩

theorem lt_length {d : Nat} (h : Genuine vars maxDepth text (.depthExceeded name d)) :
    maxDepth < vars.entries.length := by
  cases h with
  | deep trail distinct fresh full =>
    have := trail.length_le (nodup_append_singleton distinct fresh)
    simp only [List.length_append, List.length_singleton] at this
    omega

end Genuine
end PromptAssembly.Template
