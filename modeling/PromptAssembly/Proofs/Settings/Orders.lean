import PromptAssembly.Proofs.Settings.Merging

/-!
# What a source says by itself

A source has a say in a place if anything that it gives concerns the place (`Table.Concerns`). What
it leaves there (`Table.setting?`) may depend on the order in which its entries are laid over others,
which is open. The order never changes what is given (`Rearranged.given_perm`), so it decides only
where entries that differ meet in one place (`Rearranged.setting?_eq`).
-/
namespace PromptAssembly.Settings
open Text (lower)
variable {names : List String} {t u : Table} {j j' : Json}

/-- What a source by itself leaves at a place. -/
def Table.setting? (source : Table) (names : List String) : Option Json :=
  outcome names source.given none

def Table.Concerns (source : Table) (names : List String) : Prop :=
  ∃ g ∈ source.given, g.Concerns names

/-- Whatever of a source concerns a place is the same. -/
def Table.Agrees (source : Table) (names : List String) : Prop :=
  ∀ g ∈ source.given, ∀ h ∈ source.given, g.Concerns names → h.Concerns names → g = h

instance (g : Given) (names : List String) : Decidable (g.Concerns names) :=
  inferInstanceAs (Decidable (_ ∨ _))

instance (source : Table) (names : List String) : Decidable (source.Concerns names) :=
  inferInstanceAs (Decidable (∃ g ∈ source.given, g.Concerns names))

theorem Table.concerns_of_setting? (h : t.setting? names = some j) : t.Concerns names := by
  by_contra silent
  rw [setting?, outcome_of_not_concerns fun g hg concerns => silent ⟨g, hg, concerns⟩] at h
  cases h

theorem outcome_of_agree {g : Given} {gs : List Given} {old : Option Json} (hg : g ∈ gs)
    (concerns : g.Concerns names) (agree : ∀ h ∈ gs, h.Concerns names → h = g) :
    outcome names gs old = g.apply names none := by
  induction gs generalizing old with
  | nil => cases hg
  | cons h gs ih =>
    obtain ⟨-, agree'⟩ := List.forall_mem_cons.1 agree
    rw [outcome_cons]
    by_cases later : ∃ k ∈ gs, k.Concerns names
    · obtain ⟨k, hk, hconcerns⟩ := later
      exact ih (agree' k hk hconcerns ▸ hk) agree'
    · have last : ∀ k ∈ gs, ¬ k.Concerns names := fun k hk hconcerns => later ⟨k, hk, hconcerns⟩
      obtain rfl : g = h := (List.mem_cons.1 hg).resolve_right fun again => last g again concerns
      rw [outcome_of_not_concerns last, Given.apply_of_concerns concerns]

theorem givenIn_eq_flatMap (t : Table) :
    givenIn t = t.flatMap fun e => (given e.2).map (Given.below (lower e.1)) := by
  induction t with
  | nil => rfl
  | cons e t ih => rw [givenIn, List.flatMap_cons, ih]

theorem given_object_perm (empty : t = [] ↔ u = []) (h : (givenIn t).Perm (givenIn u)) :
    (given (.object t)).Perm (given (.object u)) := by
  cases t with
  | nil => rw [empty.1 rfl]
  | cons e t =>
    cases u with
    | nil => exact absurd (empty.2 rfl) (List.cons_ne_nil _ _)
    | cons e' u => rwa [given, given]

theorem givenAt_perm (h : (given j).Perm (given j')) :
    ∀ steps, (givenAt j steps).Perm (givenAt j' steps)
  | [] => h
  | [.entry _] => h.map _
  | .entry _ :: step :: steps => (givenAt_perm h (step :: steps)).map _
  | .item _ :: _ => .refl _

namespace Rearranged

theorem eq_nil_iff (h : Rearranged t u) : t = [] ↔ u = [] := by
  induction h with
  | order h => exact ⟨fun empty => (empty ▸ h).nil_eq.symm, fun empty => (empty ▸ h).eq_nil⟩
  | inside => simp
  | trans _ _ ih ih' => exact ih.trans ih'

theorem givenIn_perm (h : Rearranged t u) : (givenIn t).Perm (givenIn u) := by
  induction h with
  | order h =>
    rw [givenIn_eq_flatMap, givenIn_eq_flatMap]
    exact h.flatMap_right _
  | inside before name after h ih =>
    simp only [givenIn_eq_flatMap, List.flatMap_append, List.flatMap_cons]
    simp only [← givenIn_eq_flatMap]
    exact (((given_object_perm h.eq_nil_iff ih).map _).append_right _).append_left _
  | trans _ _ ih ih' => exact ih.trans ih'

theorem given_perm (h : Rearranged t u) : t.given.Perm u.given := by
  induction h with
  | order h => exact h.flatMap_right _
  | inside before name after h _ =>
    simp only [Table.given, List.flatMap_append, List.flatMap_cons]
    have inner := given_object_perm h.eq_nil_iff h.givenIn_perm
    exact ((givenAt_perm inner _).append_right _).append_left _
  | trans _ _ ih ih' => exact ih.trans ih'

theorem concerns_iff (h : Rearranged t u) : u.Concerns names ↔ t.Concerns names := by
  simp only [Table.Concerns, h.given_perm.mem_iff]

/-- Where nothing that differs meets, the order of entries does not matter. -/
theorem setting?_eq (h : Rearranged t u) (agrees : t.Agrees names) :
    u.setting? names = t.setting? names := by
  by_cases say : t.Concerns names
  · obtain ⟨g, hg, concerns⟩ := say
    have agree : ∀ k ∈ t.given, k.Concerns names → k = g := fun k hk hconcerns =>
      agrees k hk g hg hconcerns concerns
    rw [Table.setting?, Table.setting?, outcome_of_agree hg concerns agree,
      outcome_of_agree (h.given_perm.mem_iff.1 hg) concerns fun k hk =>
        agree k (h.given_perm.mem_iff.2 hk)]
  · have silent : ∀ g ∈ t.given, ¬ g.Concerns names := fun g hg concerns => say ⟨g, hg, concerns⟩
    rw [Table.setting?, Table.setting?, outcome_of_not_concerns silent,
      outcome_of_not_concerns fun g hg => silent g (h.given_perm.mem_iff.2 hg)]

theorem eq_singleton {name : String} (h : Rearranged [(name, j)] u) (flat : (content? j).isSome) :
    u = [(name, j)] := by
  generalize single : [(name, j)] = t at h
  induction h with
  | order h =>
    subst single
    exact (List.singleton_perm.1 h).symm
  | @inside entries _ before name' after =>
    have member : (name', Json.object entries) ∈ [(name, j)] := by simp [single]
    obtain ⟨-, rfl⟩ := Prod.mk.inj (List.mem_singleton.1 member)
    cases flat
  | trans _ _ ih ih' => exact (ih' (single.trans (ih single).symm)).trans (ih single)

end Rearranged
end PromptAssembly.Settings
