import PromptAssembly.Repository

/-!
# Loading through the cache

What looking up or loading a key does to a cache, where the load itself leaves the cache alone: a
found entry is handed out, a missing one is loaded and kept unless the load fails, and everything in
the cache but the entries of the one shelf and its gates stays as it was (`run_getOrLoad_sparing`).
A load that only reads leaves the store as well (`run_getOrLoad`).
-/
namespace PromptAssembly
open Prompt (Config Fragment)

/-- The entries of a cache, without its gates. -/
structure Entries where
  prompts : Dict Config := Dict.empty
  fragments : Dict Fragment := Dict.empty

def Cache.entries (c : Cache) : Entries := ⟨c.prompts.entries, c.fragments.entries⟩

/-- The state in which a missing key is loaded: its gate has been taken. -/
def Shared.atGate {S α : Type} (slot : Cache.Slot α) (key : String) (s : Shared S) : Shared S :=
  { s with cache := (s.cache.takeGate slot key).2 }

end PromptAssembly

namespace PromptAssembly.Cache
variable {S α ε : Type}

/-- What looking up or loading a key yields, and the entries afterwards. -/
def fetch (key : String) (loaded : Except ε α) (entries : Dict α) : Except ε α × Dict α :=
  match entries.get? key with
  | some a => (.ok a, entries)
  | none =>
    match loaded with
    | .ok a => (.ok a, entries.insert key a)
    | .error e => (.error e, entries)

section
variable {key k : String} {loaded : Except ε α} {entries : Dict α} {a : α}

theorem fetch_of_get? (h : entries.get? key = some a) :
    fetch key loaded entries = (.ok a, entries) := by
  simp only [fetch, h]

theorem fetch_of_ok (h : entries.get? key = none) (hl : loaded = .ok a) :
    fetch key loaded entries = (.ok a, entries.insert key a) := by
  simp only [fetch, h, hl]

theorem fetch_of_error {e : ε} (h : entries.get? key = none) (hl : loaded = .error e) :
    fetch key loaded entries = (.error e, entries) := by
  simp only [fetch, h, hl]

theorem get?_fetch (h : (fetch key loaded entries).1 = .ok a) :
    (fetch key loaded entries).2.get? key = some a := by
  cases hk : entries.get? key with
  | some b =>
    rw [fetch_of_get? hk] at h ⊢
    rw [hk, Except.ok.inj h]
  | none =>
    cases hl : loaded with
    | ok b =>
      rw [hl, fetch_of_ok hk rfl] at h
      rw [fetch_of_ok hk rfl, Except.ok.inj h]
      simp
    | error e =>
      rw [hl, fetch_of_error hk rfl] at h
      cases h

theorem fetch_error {e : ε} (h : (fetch key loaded entries).1 = .error e) :
    entries.get? key = none ∧ loaded = .error e ∧ (fetch key loaded entries).2 = entries := by
  cases hk : entries.get? key with
  | some b =>
    rw [fetch_of_get? hk] at h
    cases h
  | none =>
    cases hl : loaded with
    | ok b =>
      rw [hl, fetch_of_ok hk rfl] at h
      cases h
    | error e' =>
      rw [hl, fetch_of_error hk rfl] at h
      rw [fetch_of_error hk rfl]
      exact ⟨rfl, h, rfl⟩

theorem entries_fetch_error (key : String) (e : ε) (entries : Dict α) :
    (fetch key (.error e) entries).2 = entries := by
  unfold fetch
  cases entries.get? key <;> rfl

/-- Entries stay; a new one is that of the key, as it was loaded. -/
theorem get?_fetch_cases (h : (fetch key loaded entries).2.get? k = some a) :
    entries.get? k = some a ∨ (k = key ∧ loaded = .ok a) := by
  cases hk : entries.get? key with
  | some b =>
    rw [fetch_of_get? hk] at h
    exact .inl h
  | none =>
    cases hl : loaded with
    | ok b =>
      rw [hl, fetch_of_ok hk rfl, Dict.get?_insert] at h
      split at h
      · next heq => exact .inr ⟨heq, congrArg _ (Option.some.inj h)⟩
      · exact .inl h
    | error e =>
      rw [hl, fetch_of_error hk rfl] at h
      exact .inl h

theorem get?_fetch_of_get? (h : entries.get? k = some a) :
    (fetch key loaded entries).2.get? k = some a := by
  cases hk : entries.get? key with
  | some b => rwa [fetch_of_get? hk]
  | none =>
    cases hl : loaded with
    | ok b =>
      have distinct : k ≠ key := by
        rintro rfl
        simp [hk] at h
      rwa [fetch_of_ok hk rfl, Dict.get?_insert, if_neg distinct]
    | error e => rwa [fetch_of_error hk rfl]

theorem fetch_settled :
    fetch key loaded (fetch key loaded entries).2 = fetch key loaded entries := by
  cases h : (fetch key loaded entries).1 with
  | ok a => rw [fetch_of_get? (get?_fetch h), ← h]
  | error e => rw [(fetch_error h).2.2]

end

/-- A slot reaches one shelf of the cache and nothing else. -/
structure Slot.Lawful (slot : Slot α) : Prop where
  shelf_put (x : Shelf α) (c : Cache) : slot.shelf (slot.put x c) = x
  put_shelf (c : Cache) : slot.put (slot.shelf c) c = c
  put_put (x y : Shelf α) (c : Cache) : slot.put x (slot.put y c) = slot.put x c
  generation_put (x : Shelf α) (c : Cache) : (slot.put x c).generation = c.generation

theorem promptSlot_lawful : promptSlot.Lawful where
  shelf_put _ _ := rfl
  put_shelf _ := rfl
  put_put _ _ _ := rfl
  generation_put _ _ := rfl

theorem fragmentSlot_lawful : fragmentSlot.Lawful where
  shelf_put _ _ := rfl
  put_shelf _ := rfl
  put_put _ _ _ := rfl
  generation_put _ _ := rfl

theorem generation_keep {slot : Slot α} (lawful : slot.Lawful) (c : Cache) (generation : UInt64)
    (key : String) (a : α) : (c.keep slot generation key a).generation = c.generation := by
  simp only [keep]
  split
  · exact lawful.generation_put _ _
  · rfl

section
variable {s : Shared S}

theorem run_getThe : (getThe Cache : Run S Cache).run s = pure (s.cache, s) := rfl

theorem run_modifyGetThe {β : Type} (f : Cache → β × Cache) :
    (modifyGetThe Cache f : Run S β).run s =
      pure ((f s.cache).1, { s with cache := (f s.cache).2 }) := rfl

end

section
variable {slot : Slot α} {key : String} {s : Shared S} {load : Run S (Except ε α)}

theorem find?_takeGate (lawful : slot.Lawful) (c : Cache) (key : String) :
    (c.takeGate slot key).2.find? slot key = c.find? slot key := by
  simp [takeGate, find?, lawful.shelf_put]

theorem run_getOrLoad_of_find? {a : α} (h : s.cache.find? slot key = some a) :
    (getOrLoad slot key load).run s = (.ok a, s) := by
  simp only [getOrLoad, StateT.run_bind, run_getThe, pure_bind, h]
  rfl

theorem run_loadBehindGate_ok {a : α} {s' : Shared S} (h : s.cache.find? slot key = none)
    (hl : load.run s = (.ok a, s')) : (loadBehindGate slot key load).run s =
      (.ok a, { s' with cache := s'.cache.keep slot s.cache.generation key a }) := by
  simp only [loadBehindGate, StateT.run_bind, run_getThe, pure_bind, h, hl]
  rfl

theorem run_loadBehindGate_error {e : ε} {s' : Shared S} (h : s.cache.find? slot key = none)
    (hl : load.run s = (.error e, s')) :
    (loadBehindGate slot key load).run s = (.error e, s') := by
  simp only [loadBehindGate, StateT.run_bind, run_getThe, pure_bind, h, hl]
  rfl

theorem run_getOrLoad_of_none {r : Except ε α} {s' : Shared S} (h : s.cache.find? slot key = none)
    (hr : (loadBehindGate slot key load).run
      { s with cache := (s.cache.takeGate slot key).2 } = (r, s')) :
    (getOrLoad slot key load).run s = (r,
      { s' with cache := s'.cache.releaseGate slot key (s.cache.takeGate slot key).1 }) := by
  simp only [getOrLoad, StateT.run_bind, run_getThe, run_modifyGetThe, pure_bind, h, hr]
  rfl

/-- Of the cache nothing but the one shelf changes, and its entries change as `fetch` says, unless the
load changes more. The load is made only if the entry is missing. -/
theorem run_getOrLoad_sparing (lawful : slot.Lawful) (key : String) {s : Shared S}
    (spares : (load.run (s.atGate slot key)).2.cache = (s.atGate slot key).cache) :
    let loaded := load.run (s.atGate slot key)
    ∃ shelf, (getOrLoad slot key load).run s =
        ((fetch key loaded.1 (slot.shelf s.cache).entries).1,
          { cache := slot.put shelf s.cache
            store := if (s.cache.find? slot key).isSome then s.store else loaded.2.store }) ∧
      shelf.entries = (fetch key loaded.1 (slot.shelf s.cache).entries).2 := by
  intro loaded
  cases hk : s.cache.find? slot key with
  | some a =>
    refine ⟨slot.shelf s.cache, ?_, ?_⟩
    · rw [run_getOrLoad_of_find? hk, fetch_of_get? hk, lawful.put_shelf]
      rfl
    · rw [fetch_of_get? hk]
  | none =>
    have held : (s.atGate slot key).cache.find? slot key = none :=
      (find?_takeGate lawful s.cache key).trans hk
    have whole : load.run (s.atGate slot key) =
        (loaded.1, { cache := (s.cache.takeGate slot key).2, store := loaded.2.store }) :=
      Prod.ext rfl (congrArg (Shared.mk · loaded.2.store) spares)
    cases hl : loaded.1 with
    | error e =>
      rw [hl] at whole
      rw [run_getOrLoad_of_none hk (run_loadBehindGate_error held whole), fetch_of_error hk rfl]
      simp only [releaseGate, takeGate, lawful.shelf_put, lawful.put_put]
      exact ⟨_, rfl, rfl⟩
    | ok a =>
      rw [hl] at whole
      rw [run_getOrLoad_of_none hk (run_loadBehindGate_ok held whole), fetch_of_ok hk rfl]
      simp only [releaseGate, keep, insert, takeGate, lawful.shelf_put, lawful.put_put,
        lawful.generation_put, if_true]
      exact ⟨_, rfl, rfl⟩

theorem run_getOrLoad (lawful : slot.Lawful) (key : String) (read : S → Except ε α) (s : Shared S) :
    ∃ shelf, (getOrLoad slot key (Repository.reading read)).run s =
        ((fetch key (read s.store) (slot.shelf s.cache).entries).1,
          { s with cache := slot.put shelf s.cache }) ∧
      shelf.entries = (fetch key (read s.store) (slot.shelf s.cache).entries).2 := by
  have reads : (Repository.reading read).run (s.atGate slot key) =
      (read s.store, s.atGate slot key) := rfl
  obtain ⟨shelf, hrun, hshelf⟩ := run_getOrLoad_sparing lawful key (congrArg (·.2.cache) reads)
  rw [reads] at hrun hshelf
  have same : (s.atGate slot key).store = s.store := rfl
  rw [same, ite_self] at hrun
  exact ⟨shelf, hrun, hshelf⟩

end
end PromptAssembly.Cache
