import PromptAssembly.Proofs.Cache.Gating

/-!
# Gates in hand

Whoever takes a gate has a handle on it until it is given back. However gates are taken, given back
and cleared, the table has a gate for a key as long as there is a handle that was taken for the key
since the last clearing, and this is the gate of all such handles (`Ledger.table_follows_handles`).
What makes this work is that every gate counts its handles and is never known under two keys
(`Accounts`).
-/
namespace PromptAssembly.Gates

/-- A gate in somebody's hands, the key it was taken for, and how often the table had been cleared by
then. -/
structure Handle where
  key : String
  gate : Gate
  cleared : Nat
  deriving DecidableEq, Repr

section
variable {gates : Gates} {gate : Gate} {key k : String}

theorem take_cases (gates : Gates) (key : String) :
    (gates.table.get? key = some (gates.take key).1 ∧ (gates.take key).2.next = gates.next) ∨
      ((gates.take key).1 = gates.next ∧ (gates.take key).2.next = gates.next + 1) := by
  cases h : gates.table.get? key with
  | some gate => exact .inl (by simp [take_of_get? h])
  | none => exact .inr (by simp [take, h])

theorem get?_take_of_get? (known : gates.table.get? k = some gate) :
    (gates.take key).2.table.get? k = some gate := by
  by_cases hk : k = key
  · rw [take_of_get? (hk ▸ known)]
    exact known
  · rw [get?_take_of_ne hk, known]

theorem get?_retire_eq_some_iff {g : Gate} : (gates.retire key gate).table.get? k = some g ↔
    gates.table.get? k = some g ∧ ¬ (k = key ∧ gates.isIdle key gate = true) := by
  simp only [retire]
  split <;> simp_all [and_comm]

end

def handlesOn (gate : Gate) (handles : List (Option Handle)) : Nat :=
  handles.countP fun h => h.any fun h => h.gate = gate

theorem handlesOn_pos {gate : Gate} {handles : List (Option Handle)} :
    0 < handlesOn gate handles ↔ ∃ h, some h ∈ handles ∧ h.gate = gate := by
  rw [handlesOn, List.countP_pos_iff]
  constructor
  · rintro ⟨_ | h, hh, on⟩
    · cases on
    · exact ⟨h, hh, by simpa using on⟩
  · rintro ⟨h, hh, rfl⟩
    exact ⟨some h, hh, by simp⟩

/-- The gates that are held are those of the handles, each as often as there are handles on it, and
a gate has one key and one time between two clearings. -/
structure Accounts (gates : Gates) (handles : List (Option Handle)) (cleared : Nat) : Prop where
  counted (gate : Gate) : gates.held.count gate = handlesOn gate handles
  made {h : Handle} : some h ∈ handles → h.gate < gates.next
  tabled {k : String} {gate : Gate} : gates.table.get? k = some gate → gate < gates.next
  past {h : Handle} : some h ∈ handles → h.cleared ≤ cleared
  same {h h' : Handle} : some h ∈ handles → some h' ∈ handles → h.gate = h'.gate →
    h.key = h'.key ∧ h.cleared = h'.cleared
  entry {k : String} {h : Handle} : gates.table.get? k = some h.gate → some h ∈ handles →
    h.key = k ∧ h.cleared = cleared
  single {k k' : String} {gate : Gate} : gates.table.get? k = some gate →
    gates.table.get? k' = some gate → k = k'

namespace Accounts
variable {gates : Gates} {handles : List (Option Handle)} {h : Handle} {gate : Gate}
  {key k : String} {i cleared : Nat}

theorem start : Accounts {} [] 0 := by
  constructor <;> simp [handlesOn]

theorem key_of_take (a : Accounts gates handles cleared)
    (known : gates.table.get? k = some (gates.take key).1) : k = key := by
  rcases gates.take_cases key with ⟨there, -⟩ | ⟨new, -⟩
  · exact a.single known there
  · exact absurd (a.tabled (new ▸ known)) (Nat.lt_irrefl _)

theorem handle_of_take (a : Accounts gates handles cleared) (hh : some h ∈ handles)
    (on : h.gate = (gates.take key).1) : h.key = key ∧ h.cleared = cleared := by
  rcases gates.take_cases key with ⟨there, -⟩ | ⟨new, -⟩
  · exact a.entry (on ▸ there) hh
  · exact absurd (a.made hh) (Nat.not_lt.2 (Nat.le_of_eq (on.trans new).symm))

theorem le_next_take (gates : Gates) (key : String) : gates.next ≤ (gates.take key).2.next := by
  rcases gates.take_cases key with ⟨-, same⟩ | ⟨-, more⟩
  · exact Nat.le_of_eq same.symm
  · exact more ▸ Nat.le_succ _

theorem take_lt_next (a : Accounts gates handles cleared) (key : String) :
    (gates.take key).1 < (gates.take key).2.next := by
  rcases gates.take_cases key with ⟨there, same⟩ | ⟨new, more⟩
  · exact same ▸ a.tabled there
  · rw [new, more]
    exact Nat.lt_succ_self _

theorem take (a : Accounts gates handles cleared) (hi : handles[i]? = some none) (key : String) :
    Accounts (gates.take key).2 (handles.set i (some ⟨key, (gates.take key).1, cleared⟩))
      cleared := by
  have before {h : Handle}
      (hh : some h ∈ handles.set i (some ⟨key, (gates.take key).1, cleared⟩)) :
      some h ∈ handles ∨ h = ⟨key, (gates.take key).1, cleared⟩ :=
    (List.mem_or_eq_of_mem_set hh).imp_right Option.some.inj
  have single {k k' : String} {gate : Gate}
      (known : (gates.take key).2.table.get? k = some gate)
      (known' : (gates.take key).2.table.get? k' = some gate) : k = k' := by
    by_cases hk : k = key <;> by_cases hk' : k' = key
    · rw [hk, hk']
    · subst hk
      rw [get?_take_self, Option.some.injEq] at known
      rw [get?_take_of_ne hk', ← known] at known'
      exact absurd (a.key_of_take known') hk'
    · subst hk'
      rw [get?_take_self, Option.some.injEq] at known'
      rw [get?_take_of_ne hk, ← known'] at known
      exact absurd (a.key_of_take known) hk
    · rw [get?_take_of_ne hk] at known
      rw [get?_take_of_ne hk'] at known'
      exact a.single known known'
  refine ⟨fun gate => ?counted, fun hh => ?made, fun known => ?tabled, fun hh => ?past,
    fun hh hh' on => ?same, fun known hh => ?entry, single⟩
  case counted =>
    have count := Cache.countP_set_add (p := fun h : Option Handle => h.any fun h => h.gate = gate)
      hi (some ⟨key, (gates.take key).1, cleared⟩)
    have := a.counted gate
    rw [held_take, List.count_cons]
    simp only [handlesOn, Option.any_none, Option.any_some, Bool.false_eq_true, if_false,
      decide_eq_true_eq, beq_iff_eq] at count this ⊢
    omega
  case made =>
    rcases before hh with old | rfl
    · exact Nat.lt_of_lt_of_le (a.made old) (le_next_take gates key)
    · exact a.take_lt_next key
  case tabled k gate =>
    by_cases hk : k = key
    · subst hk
      rw [get?_take_self, Option.some.injEq] at known
      exact known ▸ a.take_lt_next k
    · rw [get?_take_of_ne hk] at known
      exact Nat.lt_of_lt_of_le (a.tabled known) (le_next_take gates key)
  case past =>
    rcases before hh with old | rfl
    · exact a.past old
    · exact Nat.le_refl _
  case same =>
    rcases before hh with old | rfl <;> rcases before hh' with old' | rfl
    · exact a.same old old' on
    · exact a.handle_of_take old on
    · exact (a.handle_of_take old' on.symm).imp Eq.symm Eq.symm
    · exact ⟨rfl, rfl⟩
  case entry k h =>
    rcases before hh with old | rfl
    · by_cases hk : k = key
      · rw [hk, get?_take_self, Option.some.injEq] at known
        exact hk ▸ a.handle_of_take old known.symm
      · rw [get?_take_of_ne hk] at known
        exact a.entry known old
    · exact ⟨single get?_take_self known, rfl⟩

theorem retire (a : Accounts gates handles cleared) (key : String) (gate : Gate) :
    Accounts (gates.retire key gate) handles cleared := by
  have next : (gates.retire key gate).next = gates.next := by
    simp only [Gates.retire]
    split <;> rfl
  have before {k : String} {g : Gate} (known : (gates.retire key gate).table.get? k = some g) :
      gates.table.get? k = some g := (get?_retire_eq_some_iff.1 known).1
  refine ⟨fun g => ?_, fun hh => ?_, fun known => ?_, a.past, a.same,
    fun known => a.entry (before known), fun known known' => a.single (before known) (before known')⟩
  · rw [held_retire, a.counted g]
  · exact next ▸ a.made hh
  · exact next ▸ a.tabled (before known)

theorem drop (a : Accounts gates handles cleared) (hi : handles[i]? = some (some h)) :
    Accounts (gates.drop h.gate) (handles.set i none) cleared := by
  have before {h' : Handle} (hh : some h' ∈ handles.set i none) : some h' ∈ handles :=
    (List.mem_or_eq_of_mem_set hh).resolve_right nofun
  refine ⟨fun gate => ?_, fun hh => a.made (before hh), a.tabled, fun hh => a.past (before hh),
    fun hh hh' => a.same (before hh) (before hh'), fun known hh => a.entry known (before hh),
    a.single⟩
  have count := Cache.countP_set_add (p := fun h : Option Handle => h.any fun h => h.gate = gate)
    hi none
  have := a.counted gate
  simp only [Gates.drop, List.count_erase]
  simp only [handlesOn, Option.any_none, Option.any_some, Bool.false_eq_true, if_false,
    decide_eq_true_eq, beq_iff_eq] at count this ⊢
  by_cases on : h.gate = gate
  · simp only [on, if_true] at count ⊢
    omega
  · simp only [on, if_false] at count ⊢
    omega

theorem clear (a : Accounts gates handles cleared) :
    Accounts gates.clear handles (cleared + 1) where
  counted := a.counted
  made := a.made
  tabled := nofun
  past hh := Nat.le_succ_of_le (a.past hh)
  same := a.same
  entry := nofun
  single := nofun

theorem join (a : Accounts gates handles cleared) : Accounts gates (handles ++ [none]) cleared := by
  have before {h : Handle} (hh : some h ∈ handles ++ [none]) : some h ∈ handles := by simpa using hh
  refine ⟨fun gate => ?_, fun hh => a.made (before hh), a.tabled, fun hh => a.past (before hh),
    fun hh hh' => a.same (before hh) (before hh'), fun known hh => a.entry known (before hh),
    a.single⟩
  simpa [handlesOn, List.countP_append] using a.counted gate

end Accounts

/-- Gates, and the handles on them as they are numbered in the order of taking. A handle that was
given back leaves its number blank. -/
structure Ledger where
  gates : Gates := {}
  handles : List (Option Handle) := []
  cleared : Nat := 0
  deriving DecidableEq, Repr

inductive Ledger.Move where
  | take (key : String)
  | release (i : Nat)
  | clear
  deriving DecidableEq, Repr

namespace Ledger
variable {l l' : Ledger} {m : Move} {ms : List Move}

def step (l : Ledger) : Move → Option Ledger
  | .take key =>
    some { l with
      gates := (l.gates.take key).2
      handles := l.handles ++ [some ⟨key, (l.gates.take key).1, l.cleared⟩] }
  | .release i => do
    let h ← l.handles[i]?.join
    return { l with gates := l.gates.release h.key h.gate, handles := l.handles.set i none }
  | .clear => some { l with gates := l.gates.clear, cleared := l.cleared + 1 }

def run (l : Ledger) (ms : List Move) : Option Ledger := ms.foldlM step l

inductive Step (l : Ledger) : Move → Ledger → Prop
  | take {key} : Step l (.take key) ⟨(l.gates.take key).2,
      (l.handles ++ [none]).set l.handles.length (some ⟨key, (l.gates.take key).1, l.cleared⟩),
      l.cleared⟩
  | release {i h} : l.handles[i]? = some (some h) →
      Step l (.release i) ⟨(l.gates.retire h.key h.gate).drop h.gate, l.handles.set i none, l.cleared⟩
  | clear : Step l .clear ⟨l.gates.clear, l.handles, l.cleared + 1⟩

theorem step_cases (h : l.step m = some l') : Step l m l' := by
  cases m with
  | take key =>
    cases h
    have taken : Step l (.take key) _ := .take
    simpa using taken
  | release i =>
    obtain ⟨h, hi, hrest⟩ := Option.bind_eq_some_iff.1 h
    cases hrest
    exact .release (Option.join_eq_some_iff.1 hi)
  | clear =>
    cases h
    exact .clear

/-- The table has the gates of the handles taken since it was last cleared, and no other. -/
structure Balanced (l : Ledger) : Prop where
  accounts : Accounts l.gates l.handles l.cleared
  used {k : String} {gate : Gate} : l.gates.table.get? k = some gate → gate ∈ l.gates.held
  current {h : Handle} : some h ∈ l.handles → h.cleared = l.cleared →
    l.gates.table.get? h.key = some h.gate
  shared {h h' : Handle} : some h ∈ l.handles → some h' ∈ l.handles → h.key = h'.key →
    h.cleared = h'.cleared → h.gate = h'.gate

namespace Balanced
variable {key : String} {i : Nat} {h : Handle}

theorem start : Balanced {} where
  accounts := .start
  used := nofun
  current := by simp
  shared := by simp

theorem take (b : Balanced l) : Balanced ⟨(l.gates.take key).2,
    (l.handles ++ [none]).set l.handles.length (some ⟨key, (l.gates.take key).1, l.cleared⟩),
    l.cleared⟩ := by
  have before {h : Handle} (hh : some h ∈ (l.handles ++ [none]).set l.handles.length
      (some ⟨key, (l.gates.take key).1, l.cleared⟩)) :
      some h ∈ l.handles ∨ h = ⟨key, (l.gates.take key).1, l.cleared⟩ := by simpa using hh
  -- A handle on the gate of this key that was taken since the last clearing is on the gate taken.
  have same {h : Handle} (hh : some h ∈ l.handles) (hkey : h.key = key)
      (now : h.cleared = l.cleared) : h.gate = (l.gates.take key).1 := by
    rw [take_of_get? (hkey ▸ b.current hh now)]
  refine ⟨b.accounts.join.take (by simp) key, fun {k gate} known => ?used, fun hh now => ?current,
    fun hh hh' hkey now => ?shared⟩
  case used =>
    rw [held_take]
    by_cases hk : k = key
    · rw [hk, get?_take_self, Option.some.injEq] at known
      exact known ▸ List.mem_cons_self
    · rw [get?_take_of_ne hk] at known
      exact List.mem_cons_of_mem _ (b.used known)
  case current =>
    rcases before hh with old | rfl
    · exact get?_take_of_get? (b.current old now)
    · exact get?_take_self
  case shared =>
    rcases before hh with old | rfl <;> rcases before hh' with old' | rfl
    · exact b.shared old old' hkey now
    · exact same old hkey now
    · exact (same old' hkey.symm now.symm).symm
    · rfl

theorem release (b : Balanced l) (hi : l.handles[i]? = some (some h)) :
    Balanced ⟨(l.gates.retire h.key h.gate).drop h.gate, l.handles.set i none, l.cleared⟩ := by
  have accounts := (b.accounts.retire h.key h.gate).drop hi
  have before {h' : Handle} (hh : some h' ∈ l.handles.set i none) : some h' ∈ l.handles :=
    (List.mem_or_eq_of_mem_set hh).resolve_right nofun
  have mine : some h ∈ l.handles := List.mem_of_getElem? hi
  refine ⟨accounts, fun {k gate} known => ?used, fun {h'} hh now => ?current,
    fun hh hh' => b.shared (before hh) (before hh')⟩
  case used =>
    obtain ⟨old, stays⟩ := get?_retire_eq_some_iff.1 known
    have held := b.used old
    rw [Gates.drop, held_retire]
    by_cases on : gate = h.gate
    · -- The gate stayed in the table, so there is another handle on it.
      subst on
      obtain ⟨rfl, -⟩ := b.accounts.entry old mine
      have once : l.gates.held.count h.gate ≠ 1 := fun once =>
        stays ⟨rfl, isIdle_iff.2 ⟨old, once⟩⟩
      have some := List.count_pos_iff.2 held
      rw [← List.count_pos_iff, List.count_erase_self]
      omega
    · exact (List.mem_erase_of_ne on).2 held
  case current =>
    refine get?_retire_eq_some_iff.2 ⟨b.current (before hh) now, ?_⟩
    rintro ⟨hkey, idle⟩
    obtain ⟨known, once⟩ := isIdle_iff.1 idle
    have on : h'.gate = h.gate := by
      have known' := b.current (before hh) now
      rw [hkey, known] at known'
      exact (Option.some.inj known').symm
    have other := handlesOn_pos.2 ⟨h', hh, on⟩
    rw [← accounts.counted, Gates.drop, held_retire, List.count_erase_self] at other
    omega

theorem clear (b : Balanced l) : Balanced ⟨l.gates.clear, l.handles, l.cleared + 1⟩ where
  accounts := b.accounts.clear
  used := nofun
  current hh now := absurd (now ▸ b.accounts.past hh) (Nat.not_succ_le_self _)
  shared := b.shared

theorem step (hstep : l.step m = some l') (b : Balanced l) : Balanced l' := by
  cases step_cases hstep with
  | take => exact b.take
  | release hi => exact b.release hi
  | clear => exact b.clear

theorem run (hrun : l.run ms = some l') (b : Balanced l) : Balanced l' := by
  induction ms generalizing l with
  | nil =>
    cases hrun
    exact b
  | cons m ms ih =>
    obtain ⟨next, first, rest⟩ := Option.bind_eq_some_iff.1 hrun
    exact ih rest (b.step first)

end Balanced

/-- After any moves, the table has a gate for a key if and only if there is a handle that was taken
for the key since the last clearing, and it is the gate of all those handles. Two handles are on one
gate if and only if they were taken for one key with no clearing in between. So the table is empty
when all handles have been given back. -/
theorem table_follows_handles (hrun : run {} ms = some l) :
    (∀ k, l.gates.table.contains k ↔
      ∃ h, some h ∈ l.handles ∧ h.key = k ∧ h.cleared = l.cleared) ∧
    (∀ h, some h ∈ l.handles → h.cleared = l.cleared →
      l.gates.table.get? h.key = some h.gate) ∧
    (∀ h h', some h ∈ l.handles → some h' ∈ l.handles →
      (h.gate = h'.gate ↔ h.key = h'.key ∧ h.cleared = h'.cleared)) ∧
    ((∀ h, some h ∉ l.handles) → l.gates.table = Dict.empty ∧ l.gates.size = 0) := by
  have b : Balanced l := Balanced.start.run hrun
  have taken {k : String} {gate : Gate} (known : l.gates.table.get? k = some gate) :
      ∃ h, some h ∈ l.handles ∧ h.key = k ∧ h.cleared = l.cleared := by
    have held := List.count_pos_iff.2 (b.used known)
    rw [b.accounts.counted] at held
    obtain ⟨h, hh, rfl⟩ := handlesOn_pos.1 held
    exact ⟨h, hh, b.accounts.entry known hh⟩
  refine ⟨fun k => ⟨fun known => ?_, ?_⟩, fun h => b.current, fun h h' hh hh' =>
    ⟨b.accounts.same hh hh', fun ⟨key, cleared⟩ => b.shared hh hh' key cleared⟩, fun none => ?_⟩
  · obtain ⟨gate, hgate⟩ := Dict.contains_iff.1 known
    exact taken hgate
  · rintro ⟨h, hh, rfl, now⟩
    exact Dict.contains_iff.2 ⟨h.gate, b.current hh now⟩
  · have empty : l.gates.table = Dict.empty := Dict.ext_get? fun k => by
      cases known : l.gates.table.get? k with
      | none => rfl
      | some gate =>
        obtain ⟨h, hh, -⟩ := taken known
        exact absurd hh (none h)
    exact ⟨empty, by rw [size, empty]; rfl⟩

/-- Two handles on one gate, of which the first is given back after a clearing, and a third for the
same key on a gate of its own. -/
theorem table_follows_handles_cleared :
    ∃ l, run {} [.take "a", .take "a", .clear, .take "a", .release 0] = some l ∧
      l.handles = [none, some ⟨"a", 0, 0⟩, some ⟨"a", 1, 1⟩] ∧
      l.gates.table.contains "a" ∧ l.gates.table.get? "a" = some 1 := by
  have ran : (run {} [.take "a", .take "a", .clear, .take "a", .release 0]).map
      (fun l => (l.handles, l.cleared)) =
        some ([none, some ⟨"a", 0, 0⟩, some ⟨"a", 1, 1⟩], 1) := by decide +kernel
  obtain ⟨l, hl, final⟩ := Option.map_eq_some_iff.1 ran
  obtain ⟨handles, cleared⟩ := Prod.mk.inj final
  obtain ⟨contains, current, -, -⟩ := table_follows_handles hl
  have last : some ⟨"a", 1, 1⟩ ∈ l.handles := by simp [handles]
  exact ⟨l, hl, handles, (contains "a").2 ⟨_, last, rfl, cleared.symm⟩,
    current _ last cleared.symm⟩

end Ledger
end PromptAssembly.Gates
