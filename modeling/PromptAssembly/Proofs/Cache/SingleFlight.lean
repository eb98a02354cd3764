import PromptAssembly.Proofs.Cache.Gating

/-!
# Single flight

As long as nothing is put in and nothing is cleared, a key is loaded by one caller at a time, and
with success at most once; all who ask for the key get what that load gave. Where a load fails the
entry stays missing, and whoever comes behind the gate next loads the key again.
-/
namespace PromptAssembly.Cache
open Prompt (Config Fragment)
variable {α ε : Type}

def Lane.Move.isCall : Lane.Move α ε → Bool
  | .call _ _ | .go _ => true
  | .insert _ _ | .empty => false

def Event.isCall : Event α ε → Bool
  | .move m => m.isCall
  | .forget => false
  | .elsewhere => true

def Traffic.Move.isCall : Traffic.Move ε → Bool
  | .prompts m => m.isCall
  | .fragments m => m.isCall
  | .forget => false

namespace Caller

/-- What a loader gave, once it has ended. -/
def outcome? (x : Caller α ε) : Option (Except ε α) :=
  match x.place with
  | .holding _ (.loading _) => none
  | _ => x.began.map fun _ => x.load

/-- What holds where a caller is, if entries never go and loads are kept. -/
def Fits (generation : UInt64) (entries : Dict α) (x : Caller α ε) : Prop :=
  match x.place with
  | .arrived | .missed | .holding _ .waiting | .holding _ .entered => x.began = none
  | .holding _ .absent => x.began = none ∧ entries.get? x.key = none
  | .holding _ (.loading n) => x.began.isSome ∧ n = generation ∧ entries.get? x.key = none
  | .holding _ (.loaded n a) =>
    x.began.isSome ∧ n = generation ∧ entries.get? x.key = none ∧ x.load = .ok a
  | .holding _ (.leaving (.error e)) =>
    x.began.isSome ∧ entries.get? x.key = none ∧ x.load = .error e
  | .holding _ (.left (.error e)) | .holding _ (.retired (.error e)) | .done (.error e) =>
    x.began.isSome ∧ x.load = .error e
  | .holding _ (.leaving (.ok a)) | .holding _ (.left (.ok a)) | .holding _ (.retired (.ok a))
  | .done (.ok a) => entries.get? x.key = some a ∧ (x.began.isSome → x.load = .ok a)

variable {generation : UInt64} {entries : Dict α} {x : Caller α ε} {a : α}

theorem Fits.kept_of_outcome? (h : x.Fits generation entries) (hx : x.outcome? = some (.ok a)) :
    (∃ n, x.generation? = some n) ∨ entries.get? x.key = some a := by
  obtain ⟨key, load, place, took, began⟩ := x
  simp only [outcome?] at hx
  split at hx
  · cases hx
  obtain ⟨b, rfl, hload⟩ := Option.map_eq_some_iff.1 hx
  subst hload
  simp only [Fits] at h
  split at h <;> simp_all [generation?]

theorem Fits.insert (h : x.Fits generation entries) {key : String}
    (missing : entries.get? key = none) (outside : x.key = key → x.inside? = none) :
    x.Fits generation (entries.insert key a) := by
  obtain ⟨k, load, place, took, began⟩ := x
  by_cases same : k = key
  · subst same
    have outside := outside rfl
    simp only [inside?] at outside
    simp only [Fits] at h ⊢
    split at h <;> simp_all
  · simp only [Fits, Dict.get?_insert, same, if_false] at h ⊢
    exact h

end Caller

/-- Where the entries stem from, and that each key is loaded with success at most once. -/
structure Settled (slot : Slot α) (before : Dict α) (v : View α ε) : Prop where
  guarded : Guarded slot v
  emptied : v.lane.emptied = 0
  fits {i : Nat} {x : Caller α ε} : v.lane.callers[i]? = some x →
    x.Fits v.cache.generation (slot.shelf v.cache).entries
  kept {k : String} {a : α} : before.get? k = some a → (slot.shelf v.cache).entries.get? k = some a
  source {k : String} {a : α} : (slot.shelf v.cache).entries.get? k = some a →
    before.get? k = some a ∨
      ∃ (j : Nat) (y : Caller α ε), v.lane.callers[j]? = some y ∧ y.key = k ∧
        y.outcome? = some (.ok a)
  once {i j : Nat} {x y : Caller α ε} {a b : α} : v.lane.callers[i]? = some x →
    v.lane.callers[j]? = some y → x.key = y.key → x.outcome? = some (.ok a) →
      y.outcome? = some (.ok b) → i = j
  fresh {i : Nat} {x : Caller α ε} {a : α} : v.lane.callers[i]? = some x →
    before.get? x.key = some a → x.began = none

namespace Settled
variable {slot : Slot α} {before : Dict α} {v v' w : View α ε} {c c' : Cache} {lane : Lane α ε}
  {n i j : Nat} {x y x' : Caller α ε} {locked : List Gate} {g g' : Gate}

theorem start : Settled slot (slot.shelf c).entries (⟨c, 0, {}⟩ : View α ε) where
  guarded := .start
  emptied := rfl
  fits := by simp
  kept := id
  source := .inl
  once := by simp
  fresh := by simp

theorem eq_of_inside (h : Settled slot before v) (hi : v.lane.callers[i]? = some x)
    (hj : v.lane.callers[j]? = some y) (key : x.key = y.key) (hx : x.inside? = some g)
    (hy : y.inside? = some g') : i = j := by
  have xtook := h.guarded.tabled.past hi
  have ytook := h.guarded.tabled.past hj
  have emptied := h.emptied
  exact h.guarded.eq_of_inside hi hj key (by omega) hx hy

/-- While a caller is behind the gate of a key and the entry is missing, no loader of the key has
succeeded but perhaps its own. -/
theorem eq_of_outcome? (h : Settled slot before v) (hi : v.lane.callers[i]? = some x)
    (hj : v.lane.callers[j]? = some y) (key : y.key = x.key) (hx : x.inside? = some g)
    (missing : (slot.shelf v.cache).entries.get? x.key = none) {a : α}
    (hy : y.outcome? = some (.ok a)) : j = i := by
  rcases (h.fits hj).kept_of_outcome? hy with ⟨m, hm⟩ | found
  · obtain ⟨g', hg'⟩ := Caller.exists_inside?_of_generation? hm
    exact h.eq_of_inside hj hi key hg' hx
  · rw [key, missing] at found
    cases found

theorem set (h : Settled slot before ⟨c, n, lane⟩) (hi : lane.callers[i]? = some x)
    (guarded : Guarded slot ⟨c', n, { lane with callers := lane.callers.set i x', locked }⟩)
    (key : x'.key = x.key)
    (fits : ∀ (j : Nat) (y : Caller α ε), (lane.callers.set i x')[j]? = some y →
      y.Fits c'.generation (slot.shelf c').entries)
    (stay : ∀ k a, (slot.shelf c).entries.get? k = some a →
      (slot.shelf c').entries.get? k = some a)
    (new : ∀ k a, (slot.shelf c').entries.get? k = some a →
      (slot.shelf c).entries.get? k = some a ∨ x.key = k ∧ x'.outcome? = some (.ok a))
    (outcome : ∀ a, x.outcome? = some (.ok a) → x'.outcome? = some (.ok a))
    (first : ∀ a, x'.outcome? = some (.ok a) → ∀ (j : Nat) (y : Caller α ε) (b : α),
      lane.callers[j]? = some y → y.key = x.key → y.outcome? = some (.ok b) → j = i)
    (began : x'.began = x.began ∨ (slot.shelf c).entries.get? x.key = none) :
    Settled slot before ⟨c', n, { lane with callers := lane.callers.set i x', locked }⟩ where
  guarded := guarded
  emptied := h.emptied
  fits hy := fits _ _ hy
  kept hk := stay _ _ (h.kept hk)
  source {k a} hk := by
    obtain ⟨bound, -⟩ := List.getElem?_eq_some_iff.1 hi
    rcases new k a hk with hk | ⟨xkey, made⟩
    · refine (h.source hk).imp_right fun ⟨j, y, hy, ykey, made⟩ => ?_
      by_cases same : j = i
      · subst same
        obtain rfl : x = y := Option.some.inj (hi.symm.trans hy)
        exact ⟨j, x', List.getElem?_set_self bound, key.trans ykey, outcome a made⟩
      · exact ⟨j, y, (List.getElem?_set_ne (Ne.symm same)).trans hy, ykey, made⟩
    · exact .inr ⟨i, x', List.getElem?_set_self bound, key.trans xkey, made⟩
  once {j k y z a b} hy hz ykey ha hb := by
    rcases getElem?_set_cases hy with ⟨rfl, rfl⟩ | ⟨-, hy'⟩
    · rcases getElem?_set_cases hz with ⟨rfl, -⟩ | ⟨-, hz'⟩
      · rfl
      · exact (first a ha k z b hz' (ykey.symm.trans key) hb).symm
    · rcases getElem?_set_cases hz with ⟨rfl, rfl⟩ | ⟨-, hz'⟩
      · exact first b hb j y a hy' (ykey.trans key) ha
      · exact h.once hy' hz' ykey ha hb
  fresh {j y a} hy found := by
    rcases getElem?_set_cases hy with ⟨-, rfl⟩ | ⟨-, hy⟩
    · rw [key] at found
      rcases began with same | missing
      · exact same.trans (h.fresh hi found)
      · rw [h.kept found] at missing
        cases missing
    · exact h.fresh hy found

theorem swap (h : Settled slot before ⟨c, n, lane⟩) (hi : lane.callers[i]? = some x)
    (guarded : Guarded slot ⟨c', n, { lane with callers := lane.callers.set i x', locked }⟩)
    (entries : (slot.shelf c').entries = (slot.shelf c).entries)
    (generation : c'.generation = c.generation) (key : x'.key = x.key)
    (fits : x'.Fits c.generation (slot.shelf c).entries) (outcome : x'.outcome? = x.outcome?)
    (began : x'.began = x.began ∨ (slot.shelf c).entries.get? x.key = none) :
    Settled slot before ⟨c', n, { lane with callers := lane.callers.set i x', locked }⟩ := by
  refine h.set hi guarded key (fun j y hy => ?_) (fun _ _ hk => entries ▸ hk)
    (fun _ _ hk => .inl (entries ▸ hk)) (fun _ ha => outcome.trans ha)
    (fun _ ha _ _ _ hy ykey hb => h.once hy hi ykey hb (outcome ▸ ha)) began
  rw [entries, generation]
  rcases getElem?_set_cases hy with ⟨-, rfl⟩ | ⟨-, hy⟩
  · exact fits
  · exact h.fits hy

theorem store (lawful : slot.Lawful) (h : Settled slot before ⟨c, n, lane⟩) {generation : UInt64}
    {a : α} (hi : lane.callers[i]? = some x) (place : x.place = .holding g (.loaded generation a))
    (guarded : Guarded slot ⟨c.keep slot generation x.key a, n,
      { lane with callers := lane.callers.set i (x.goTo g (.leaving (.ok a))), locked }⟩) :
    Settled slot before ⟨c.keep slot generation x.key a, n,
      { lane with callers := lane.callers.set i (x.goTo g (.leaving (.ok a))), locked }⟩ := by
  have fits := h.fits hi
  simp only [Caller.Fits, place] at fits
  obtain ⟨began, rfl, missing, load⟩ := fits
  have inside : x.inside? = some g := by simp [Caller.inside?, place]
  have outcome : (x.goTo g (.leaving (.ok a))).outcome? = x.outcome? := by
    simp [Caller.outcome?, Caller.goTo, place]
  have mine : x.outcome? = some (.ok a) := by
    obtain ⟨b, hb⟩ := Option.isSome_iff_exists.1 began
    simp [Caller.outcome?, place, hb, load]
  have entries : (slot.shelf (c.keep slot c.generation x.key a)).entries =
      (slot.shelf c).entries.insert x.key a := by
    simp only [keep, if_true, shelf_insert lawful]
  refine h.set hi guarded rfl (fun j y hy => ?_) (fun k b found => ?_) (fun k b found => ?_)
    (fun _ ha => outcome.trans ha)
    (fun _ ha _ _ _ hy ykey hb => h.once hy hi ykey hb (outcome ▸ ha)) (.inl rfl)
  · rw [generation_keep lawful, entries]
    rcases getElem?_set_cases hy with ⟨-, rfl⟩ | ⟨other, hy⟩
    · simp [Caller.Fits, Caller.goTo, load]
    · refine (h.fits hy).insert missing fun same => ?_
      cases outside : y.inside? with
      | none => rfl
      | some g' => exact absurd (h.eq_of_inside hy hi same outside inside) other
  · rw [entries, Dict.get?_insert]
    split
    · next same =>
      rw [same, missing] at found
      cases found
    · exact found
  · rw [entries, Dict.get?_insert] at found
    split at found
    · next same => exact .inr ⟨same.symm, (outcome.trans mine).trans (by rw [Option.some.inj found])⟩
    · exact .inl found

theorem go (lawful : slot.Lawful) (h : Settled slot before ⟨c, n, lane⟩)
    (hi : lane.callers[i]? = some x)
    (hstep : x.step slot ⟨n, lane.emptied⟩ c lane.locked = some (c', locked, x')) :
    Settled slot before ⟨c', n, { lane with callers := lane.callers.set i x', locked }⟩ := by
  have guarded := h.guarded.go lawful hi hstep
  have fits := h.fits hi
  cases Caller.step_cases hstep with
  | @hit _ _ _ began _ found | @found _ _ _ began _ _ found =>
    obtain rfl : began = none := fits
    exact h.swap hi guarded rfl rfl rfl ⟨found, nofun⟩ rfl (.inl rfl)
  | miss | lock => exact h.swap hi guarded rfl rfl rfl fits rfl (.inl rfl)
  | lack missing => exact h.swap hi guarded rfl rfl rfl ⟨fits, missing⟩ rfl (.inl rfl)
  | @start _ _ _ began =>
    obtain ⟨rfl, missing⟩ : began = none ∧ _ := fits
    exact h.swap hi guarded rfl rfl rfl ⟨rfl, rfl, missing⟩ rfl (.inr missing)
  | fail =>
    obtain ⟨began, rfl, missing⟩ := fits
    refine h.set hi guarded rfl (fun j y hy => ?_) (fun _ _ => id) (fun _ _ => .inl) nofun ?_ (.inl rfl)
    · rcases getElem?_set_cases hy with ⟨-, rfl⟩ | ⟨-, hy⟩
      · exact ⟨began, missing, rfl⟩
      · exact h.fits hy
    · intro a ha
      obtain ⟨_, _, hload⟩ := Option.map_eq_some_iff.1 ha
      cases hload
  | succeed =>
    obtain ⟨began, rfl, missing⟩ := fits
    -- Another loader of this key that had succeeded would have left an entry.
    refine h.set hi guarded rfl (fun j y hy => ?_) (fun _ _ => id) (fun _ _ => .inl) nofun
      (fun _ _ j y b hy ykey hb => h.eq_of_outcome? hi hy ykey rfl missing hb) (.inl rfl)
    rcases getElem?_set_cases hy with ⟨-, rfl⟩ | ⟨-, hy⟩
    · exact ⟨began, rfl, missing, rfl⟩
    · exact h.fits hy
  | store => exact h.store lawful hi rfl guarded
  | @unlock _ _ _ _ _ result =>
    refine h.swap hi guarded rfl rfl rfl ?_ rfl (.inl rfl)
    cases result with
    | error e => exact ⟨fits.1, fits.2.2⟩
    | ok a => exact fits
  | take =>
    exact h.swap hi guarded (by rw [shelf_takeGate lawful]) (lawful.generation_put _ _) rfl fits rfl
      (.inl rfl)
  | @retire _ _ _ _ _ result =>
    refine h.swap hi guarded (by rw [shelf_retireGate lawful]) (lawful.generation_put _ _) rfl ?_ rfl
      (.inl rfl)
    cases result <;> exact fits
  | @drop _ _ _ _ _ result =>
    refine h.swap hi guarded (by rw [shelf_dropGate lawful]) (lawful.generation_put _ _) rfl ?_ rfl
      (.inl rfl)
    cases result <;> exact fits

theorem step (lawful : slot.Lawful) {e : Event α ε} (call : e.isCall)
    (hstep : View.Step slot v e v') (h : Settled slot before v) : Settled slot before v' := by
  have guarded := h.guarded.step lawful hstep
  cases hstep with
  | move hmove =>
    cases Lane.move_cases hmove with
    | insert | empty => cases call
    | go hi hstep => exact h.go lawful hi hstep
    | @call key load =>
      have old {j : Nat} {y : Caller α ε} (hy : v.lane.callers[j]? = some y) :
          (v.lane.callers ++ [(⟨key, load, .arrived, {}, none⟩ : Caller α ε)])[j]? = some y := by
        rw [List.getElem?_append_left (List.getElem?_eq_some_iff.1 hy).1, hy]
      refine ⟨guarded, h.emptied, fun hy => ?_, h.kept, fun hk => ?_, fun hy hz ykey ha hb => ?_,
        fun hy found => ?_⟩
      · rcases getElem?_concat_cases hy with hy | rfl
        · exact h.fits hy
        · rfl
      · exact (h.source hk).imp_right fun ⟨j, y, hy, made⟩ => ⟨j, y, old hy, made⟩
      · rcases getElem?_concat_cases hy with hy | rfl
        · rcases getElem?_concat_cases hz with hz | rfl
          · exact h.once hy hz ykey ha hb
          · cases hb
        · cases ha
      · rcases getElem?_concat_cases hy with hy | rfl
        · exact h.fresh hy found
        · rfl
  | forget => cases call
  | elsewhere hshelf hgeneration =>
    refine ⟨guarded, h.emptied, fun hy => ?_, fun hk => ?_, fun hk => ?_, h.once, h.fresh⟩
    · rw [hshelf, hgeneration]
      exact h.fits hy
    · rw [hshelf]
      exact h.kept hk
    · rw [hshelf] at hk
      exact h.source hk

theorem run (lawful : slot.Lawful) {es : List (Event α ε)} (calls : ∀ e ∈ es, e.isCall)
    (hrun : View.Run slot v es w) (h : Settled slot before v) : Settled slot before w :=
  hrun.keeps (fun _ _ _ => step lawful) calls h

end Settled

/-- Loads of one shelf as callers count on them, where the entries were `before` at first. -/
structure SingleFlight (slot : Slot α) (before : Dict α) (v : View α ε) : Prop where
  /-- One caller of a key at most is between the start of its loader and the storing. -/
  alone {i j : Nat} {x y : Caller α ε} {n n' : UInt64} : v.lane.callers[i]? = some x →
    v.lane.callers[j]? = some y → x.key = y.key → x.generation? = some n →
      y.generation? = some n' → i = j
  /-- One loader of a key at most succeeds. -/
  once {i j : Nat} {x y : Caller α ε} {a b : α} : v.lane.callers[i]? = some x →
    v.lane.callers[j]? = some y → x.key = y.key → x.outcome? = some (.ok a) →
      y.outcome? = some (.ok b) → i = j
  /-- No loader starts for what was there before. -/
  unneeded {i : Nat} {x : Caller α ε} {a : α} : v.lane.callers[i]? = some x →
    before.get? x.key = some a → x.began = none
  /-- What a call returns was there before, or is what the one loader gave. -/
  answers {i : Nat} {x : Caller α ε} {a : α} : v.lane.callers[i]? = some x →
    x.place = .done (.ok a) → before.get? x.key = some a ∨
      ∃ (j : Nat) (y : Caller α ε), v.lane.callers[j]? = some y ∧ y.key = x.key ∧
        y.outcome? = some (.ok a)
  /-- Where a loader has just failed the entry is missing; no loader of the key has succeeded. -/
  failed {i : Nat} {x : Caller α ε} {gate : Gate} {e : ε} : v.lane.callers[i]? = some x →
    x.place = .holding gate (.leaving (.error e)) → x.outcome? = some (.error e) ∧
      v.cache.find? slot x.key = none ∧ ∀ (j : Nat) (y : Caller α ε) (a : α),
        v.lane.callers[j]? = some y → y.key = x.key → y.outcome? ≠ some (.ok a)
  /-- Whoever comes behind the gate while none has succeeded starts its own loader. -/
  next {i : Nat} {x : Caller α ε} {gate : Gate} : v.lane.callers[i]? = some x →
    x.place = .holding gate .entered → before.get? x.key = none →
      (∀ (j : Nat) (y : Caller α ε) (a : α),
        v.lane.callers[j]? = some y → y.key = x.key → y.outcome? ≠ some (.ok a)) →
      ∀ due, ∃ lane lane' y,
        v.lane.move slot v.forgotten due v.cache (.go i) = some (v.cache, lane) ∧
          lane.move slot v.forgotten due v.cache (.go i) = some (v.cache, lane') ∧
          lane'.callers[i]? = some y ∧ y.place = .holding gate (.loading v.cache.generation)

/-- Behind the gate, with the entry missing, a caller starts its loader. -/
theorem exists_loading_of_entered {slot : Slot α} {c : Cache} {lane : Lane α ε} {i : Nat}
    {x : Caller α ε} {gate : Gate} (hi : lane.callers[i]? = some x)
    (place : x.place = .holding gate .entered) (missing : c.find? slot x.key = none)
    (forgotten due : Nat) : ∃ lane₁ lane₂ y,
      lane.move slot forgotten due c (.go i) = some (c, lane₁) ∧
        lane₁.move slot forgotten due c (.go i) = some (c, lane₂) ∧
        lane₂.callers[i]? = some y ∧ y.place = .holding gate (.loading c.generation) := by
  obtain ⟨bound, -⟩ := List.getElem?_eq_some_iff.1 hi
  let absent := x.goTo gate .absent
  let loading := { absent.goTo gate (.loading c.generation) with began := some forgotten }
  refine ⟨{ lane with callers := lane.callers.set i absent },
    { lane with callers := (lane.callers.set i absent).set i loading }, loading, ?_, ?_,
    List.getElem?_set_self (by simpa using bound), rfl⟩
  · simp [Lane.move, hi, Caller.step, place, missing, absent]
  · simp [Lane.move, List.getElem?_set_self bound, Caller.step, Caller.goTo, absent, loading]

theorem Settled.singleFlight {slot : Slot α} {before : Dict α} {v : View α ε}
    (h : Settled slot before v) : SingleFlight slot before v where
  alone hi hj key hx hy := by
    obtain ⟨g, hg⟩ := Caller.exists_inside?_of_generation? hx
    obtain ⟨g', hg'⟩ := Caller.exists_inside?_of_generation? hy
    exact h.eq_of_inside hi hj key hg hg'
  once := h.once
  unneeded := h.fresh
  answers {i x a} hi place := by
    have fits := h.fits hi
    simp only [Caller.Fits, place] at fits
    exact h.source fits.1
  failed {i x gate e} hi place := by
    have fits := h.fits hi
    simp only [Caller.Fits, place] at fits
    obtain ⟨began, missing, load⟩ := fits
    obtain ⟨b, hb⟩ := Option.isSome_iff_exists.1 began
    have mine : x.outcome? = some (.error e) := by simp [Caller.outcome?, place, hb, load]
    refine ⟨mine, missing, fun j y a hy ykey made => ?_⟩
    have inside : x.inside? = some gate := by simp [Caller.inside?, place]
    obtain rfl := h.eq_of_outcome? hi hy ykey inside missing made
    obtain rfl : x = y := Option.some.inj (hi.symm.trans hy)
    rw [mine] at made
    cases made
  next {i x gate} hi place new none due := by
    refine exists_loading_of_entered hi place ?_ v.forgotten due
    cases found : (slot.shelf v.cache).entries.get? x.key with
    | none => exact found
    | some a =>
      rcases h.source found with old | ⟨j, y, hy, ykey, made⟩
      · rw [new] at old
        cases old
      · exact absurd made (none j y a hy ykey)

namespace Traffic
variable {ε : Type}

/-- From any cache that nobody uses yet, as long as there are only calls. -/
theorem single_flight (c : Cache) {ms : List (Traffic.Move ε)} {t : Traffic ε}
    (calls : ∀ m ∈ ms, m.isCall) (hrun : (start c).run ms = some t) :
    SingleFlight promptSlot c.prompts.entries t.atPrompts ∧
      SingleFlight fragmentSlot c.fragments.entries t.atFragments := by
  obtain ⟨prompts, fragments⟩ := run_seen hrun
  have atPrompts : ∀ e ∈ ms.map Move.atPrompts, e.isCall := by
    intro e he
    obtain ⟨m, hm, rfl⟩ := List.mem_map.1 he
    have call := calls m hm
    cases m <;> first | exact call | rfl
  have atFragments : ∀ e ∈ ms.map Move.atFragments, e.isCall := by
    intro e he
    obtain ⟨m, hm, rfl⟩ := List.mem_map.1 he
    have call := calls m hm
    cases m <;> first | exact call | rfl
  exact ⟨(Settled.start.run promptSlot_lawful atPrompts prompts).singleFlight,
    (Settled.start.run fragmentSlot_lawful atFragments fragments).singleFlight⟩

/-- Three callers miss at one time. The first fails to load, the second loads, the third is served. -/
theorem single_flight_after_failure :
    let go (i n : Nat) : List (Traffic.Move String) := List.replicate n (.prompts (.go i))
    let v : Config := { template := "v" }
    let ms : List (Traffic.Move String) :=
      [.prompts (.call "k" (.error "down")), .prompts (.call "k" (.ok v)),
        .prompts (.call "k" (.ok {}))] ++ go 0 2 ++ go 1 2 ++ go 2 2 ++ go 0 7 ++ go 1 8 ++ go 2 5
    (∀ m ∈ ms, m.isCall) ∧ ∃ t, (start {}).run ms = some t ∧
      t.prompts.callers.map Caller.place = [.done (.error "down"), .done (.ok v), .done (.ok v)] ∧
      SingleFlight promptSlot Dict.empty t.atPrompts ∧
      SingleFlight fragmentSlot Dict.empty t.atFragments := by
  intro go v ms
  have calls : ∀ m ∈ ms, m.isCall := by decide +kernel
  have ran : ((start {}).run ms).map (fun t => t.prompts.callers.map Caller.place) =
      some [.done (.error "down"), .done (.ok v), .done (.ok v)] := by decide +kernel
  obtain ⟨t, ht, places⟩ := Option.map_eq_some_iff.1 ran
  exact ⟨calls, t, ht, places, single_flight {} calls ht⟩

end Traffic
end PromptAssembly.Cache
