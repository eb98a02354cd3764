/-!
# Sorted dictionaries

A finite map from strings, kept as a list of entries in strictly increasing key order. Two
dictionaries with the same look-ups are equal (`ext_get?`), so the order in which a dictionary was
filled never shows.
-/
namespace PromptAssembly

structure Dict (α : Type) where
  entries : List (String × α)
  sorted : entries.Pairwise (fun a b => a.1 < b.1)
  deriving DecidableEq, Repr

namespace Dict
variable {α β : Type}

def empty : Dict α := ⟨[], .nil⟩

instance : EmptyCollection (Dict α) := ⟨empty⟩
instance : Inhabited (Dict α) := ⟨empty⟩

def isEmpty (d : Dict α) : Bool := d.entries.isEmpty
def keys (d : Dict α) : List String := d.entries.map (·.1)
def get? (d : Dict α) (k : String) : Option α := d.entries.lookup k
def contains (d : Dict α) (k : String) : Bool := (d.get? k).isSome

def insertEntry (k : String) (v : α) : List (String × α) → List (String × α)
  | [] => [(k, v)]
  | e :: rest =>
    if k < e.1 then (k, v) :: e :: rest
    else if k = e.1 then (k, v) :: rest
    else e :: insertEntry k v rest

theorem mem_insertEntry {k : String} {v : α} {e : String × α} {xs : List (String × α)}
    (h : e ∈ insertEntry k v xs) : e = (k, v) ∨ e ∈ xs := by
  induction xs with
  | nil => simpa [insertEntry] using h
  | cons x xs ih =>
    simp only [insertEntry] at h
    split at h
    · simpa using h
    · split at h
      · rcases List.mem_cons.1 h with h | h <;> simp [h]
      · rcases List.mem_cons.1 h with h | h
        · simp [h]
        · rcases ih h with h | h <;> simp [h]

theorem insertEntry_sorted (k : String) (v : α) (xs : List (String × α))
    (h : xs.Pairwise (fun a b => a.1 < b.1)) :
    (insertEntry k v xs).Pairwise (fun a b => a.1 < b.1) := by
  induction xs with
  | nil => simp [insertEntry]
  | cons x xs ih =>
    rw [List.pairwise_cons] at h
    simp only [insertEntry]
    split
    · next hk =>
      refine List.pairwise_cons.2 ⟨fun y hy => ?_, List.pairwise_cons.2 h⟩
      rcases List.mem_cons.1 hy with rfl | hy
      · exact hk
      · exact String.lt_trans hk (h.1 y hy)
    · split
      · next hk => exact List.pairwise_cons.2 ⟨fun y hy => hk ▸ h.1 y hy, h.2⟩
      · next hlt hne =>
        refine List.pairwise_cons.2 ⟨fun y hy => ?_, ih h.2⟩
        rcases mem_insertEntry hy with rfl | hy
        · exact Std.lt_of_le_of_ne (String.not_lt.1 hlt) (Ne.symm hne)
        · exact h.1 y hy

def insert (d : Dict α) (k : String) (v : α) : Dict α :=
  ⟨insertEntry k v d.entries, insertEntry_sorted k v d.entries d.sorted⟩

def erase (d : Dict α) (k : String) : Dict α :=
  ⟨d.entries.filter (fun e => e.1 ≠ k), d.sorted.filter _⟩

def map (f : α → β) (d : Dict α) : Dict β :=
  ⟨d.entries.map (fun e => (e.1, f e.2)), by
    simpa [List.pairwise_map] using d.sorted⟩

/-- Of several entries for one key the last wins. -/
def ofList (es : List (String × α)) : Dict α := es.foldl (fun d e => d.insert e.1 e.2) empty

/-- Entries of the second dictionary win. -/
def overlay (d e : Dict α) : Dict α := e.entries.foldl (fun d e => d.insert e.1 e.2) d

theorem lookup_entry (name : String) (v : α) (es : List (String × α)) (k : String) :
    ((name, v) :: es).lookup k = if k = name then some v else es.lookup k := by
  by_cases h : k = name
  · simp [h]
  · have other : (k == name) = false := by simpa using h
    rw [List.lookup_cons, other, if_neg h]

theorem lookup_insertEntry (k : String) (v : α) (xs : List (String × α)) (j : String) :
    (insertEntry k v xs).lookup j = if j = k then some v else xs.lookup j := by
  induction xs with
  | nil => grind [insertEntry]
  | cons x xs ih => grind [insertEntry]

@[simp] theorem get?_empty (k : String) : (empty : Dict α).get? k = none := rfl

theorem mem_of_get? {d : Dict α} {k : String} {v : α} (h : d.get? k = some v) :
    (k, v) ∈ d.entries := by
  obtain ⟨before, after, hd, -⟩ := List.lookup_eq_some_iff.1 h
  simp [hd]

@[simp] theorem get?_insert (d : Dict α) (k : String) (v : α) (j : String) :
    (d.insert k v).get? j = if j = k then some v else d.get? j :=
  lookup_insertEntry k v d.entries j

@[simp] theorem get?_erase (d : Dict α) (k j : String) :
    (d.erase k).get? j = if j = k then none else d.get? j := by
  simp only [erase, get?]
  induction d.entries with
  | nil => simp
  | cons e es ih => grind

theorem lookup_eq_none_of_lt {k : String} {xs : List (String × α)} (h : ∀ e ∈ xs, k < e.1) :
    xs.lookup k = none := by
  rw [List.lookup_eq_none_iff]
  intro e he
  simpa using String.ne_of_lt (h e he)

theorem entries_eq_of_lookup {xs ys : List (String × α)}
    (hx : xs.Pairwise (fun a b => a.1 < b.1)) (hy : ys.Pairwise (fun a b => a.1 < b.1))
    (h : ∀ k, xs.lookup k = ys.lookup k) : xs = ys := by
  induction xs generalizing ys with
  | nil =>
    cases ys with
    | nil => rfl
    | cons y ys =>
      have := h y.1
      grind
  | cons x xs ih =>
    cases ys with
    | nil =>
      have := h x.1
      grind
    | cons y ys =>
      rw [List.pairwise_cons] at hx hy
      have below (k : String) (hk : k < x.1) (hk' : k = y.1) : False := by
        have hn : (x :: xs).lookup k = none := lookup_eq_none_of_lt fun e he => by
          rcases List.mem_cons.1 he with rfl | he
          · exact hk
          · exact String.lt_trans hk (hx.1 e he)
        have := h k
        grind
      have above (k : String) (hk : k < y.1) (hk' : k = x.1) : False := by
        have hn : (y :: ys).lookup k = none := lookup_eq_none_of_lt fun e he => by
          rcases List.mem_cons.1 he with rfl | he
          · exact hk
          · exact String.lt_trans hk (hy.1 e he)
        have := h k
        grind
      have key : x.1 = y.1 := String.le_antisymm
        (String.not_lt.1 fun hlt => below y.1 hlt rfl) (String.not_lt.1 fun hlt => above x.1 hlt rfl)
      have value : x.2 = y.2 := by
        have := h y.1
        grind
      have tails : xs = ys := ih hx.2 hy.2 fun k => by
        by_cases hk : k = y.1
        · rw [lookup_eq_none_of_lt fun e he => by rw [hk, ← key]; exact hx.1 e he,
            lookup_eq_none_of_lt fun e he => by rw [hk]; exact hy.1 e he]
        · have := h k
          grind
      rw [tails, Prod.ext key value]

theorem ext_get? {d e : Dict α} (h : ∀ k, d.get? k = e.get? k) : d = e := by
  cases d with | mk xs hx =>
  cases e with | mk ys hy =>
  cases entries_eq_of_lookup hx hy h
  rfl

theorem mem_entries_iff {d : Dict α} {k : String} {v : α} :
    (k, v) ∈ d.entries ↔ d.get? k = some v := by
  refine ⟨fun h => ?_, mem_of_get?⟩
  obtain ⟨before, after, hd⟩ := List.append_of_mem h
  refine List.lookup_eq_some_iff.2 ⟨before, after, hd, fun e he => ?_⟩
  have hlt := (List.pairwise_append.1 (hd ▸ d.sorted)).2.2 e he (k, v) List.mem_cons_self
  simpa using (String.ne_of_lt hlt).symm

theorem mem_keys_insert {d : Dict α} {k j : String} {v : α} :
    j ∈ (d.insert k v).keys ↔ j = k ∨ j ∈ d.keys := by
  simp only [keys, insert]
  induction d.entries with
  | nil => simp [insertEntry]
  | cons e es ih =>
    simp only [insertEntry]
    split
    · simp
    · split <;> grind

theorem get?_foldl_insert {es : List (String × α)} (distinct : (es.map (·.1)).Nodup) (d : Dict α)
    (k : String) :
    (es.foldl (fun d e => d.insert e.1 e.2) d).get? k = (es.lookup k).or (d.get? k) := by
  induction es generalizing d with
  | nil => rfl
  | cons e es ih =>
    obtain ⟨j, v⟩ := e
    obtain ⟨fresh, rest⟩ := List.nodup_cons.1 distinct
    rw [List.foldl_cons, ih rest, get?_insert, lookup_entry]
    by_cases hk : k = j
    · subst hk
      have later : es.lookup k = none := List.lookup_eq_none_iff.2 fun x hx => by
        have other : k ≠ x.1 := fun same => fresh (List.mem_map.2 ⟨x, hx, same.symm⟩)
        simpa using other
      simp [later]
    · simp [hk]

theorem nodup_keys (d : Dict α) : (d.entries.map (·.1)).Nodup :=
  List.pairwise_map.2 (d.sorted.imp String.ne_of_lt)

@[simp] theorem get?_overlay (d e : Dict α) (k : String) :
    (d.overlay e).get? k = (e.get? k).or (d.get? k) :=
  get?_foldl_insert e.nodup_keys d k

theorem get?_ofList {es : List (String × α)} (distinct : (es.map (·.1)).Nodup) (k : String) :
    (ofList es).get? k = es.lookup k := by
  rw [ofList, get?_foldl_insert distinct, get?_empty, Option.or_none]

theorem contains_iff {d : Dict α} {k : String} : d.contains k ↔ ∃ v, d.get? k = some v :=
  Option.isSome_iff_exists

theorem contains_of_mem_keys {d : Dict α} {k : String} (h : k ∈ d.keys) : d.contains k := by
  obtain ⟨e, he, rfl⟩ := List.mem_map.1 h
  exact contains_iff.2 ⟨e.2, mem_entries_iff.1 he⟩

theorem contains_iff_mem_keys {d : Dict α} {k : String} : d.contains k ↔ k ∈ d.keys := by
  refine ⟨fun h => ?_, contains_of_mem_keys⟩
  obtain ⟨v, hv⟩ := contains_iff.1 h
  exact List.mem_map_of_mem (f := Prod.fst) (mem_of_get? hv)

@[simp] theorem contains_insert (d : Dict α) (k : String) (v : α) (j : String) :
    (d.insert k v).contains j = (decide (j = k) || d.contains j) := by
  by_cases h : j = k <;> simp [contains, h]

@[simp] theorem contains_overlay (d e : Dict α) (k : String) :
    (d.overlay e).contains k = (e.contains k || d.contains k) := by
  simp [contains]

theorem mem_keys_ofList {es : List (String × α)} {k : String} :
    k ∈ (ofList es).keys ↔ ∃ e ∈ es, e.1 = k := by
  suffices h : ∀ d : Dict α, k ∈ (es.foldl (fun d e => d.insert e.1 e.2) d).keys ↔
      k ∈ d.keys ∨ ∃ e ∈ es, e.1 = k by
    simpa [ofList, empty, keys] using h empty
  induction es with
  | nil => simp
  | cons e es ih =>
    intro d
    rw [List.foldl_cons, ih, mem_keys_insert]
    grind

theorem insertEntry_last {k : String} {v : α} {xs : List (String × α)} (h : ∀ e ∈ xs, e.1 < k) :
    insertEntry k v xs = xs ++ [(k, v)] := by
  induction xs with
  | nil => rfl
  | cons x xs ih =>
    have hx : x.1 < k := h x List.mem_cons_self
    have hlt : ¬ k < x.1 := fun h => String.lt_irrefl k (String.lt_trans h hx)
    simp [insertEntry, hlt, (String.ne_of_lt hx).symm,
      ih fun e he => h e (List.mem_cons_of_mem _ he)]

/-- What is sorted already stays as it is. -/
theorem entries_ofList {es : List (String × α)} (h : es.Pairwise (fun a b => a.1 < b.1)) :
    (ofList es).entries = es := by
  suffices hall : ∀ d : Dict α, (d.entries ++ es).Pairwise (fun a b => a.1 < b.1) →
      (es.foldl (fun d e => d.insert e.1 e.2) d).entries = d.entries ++ es by
    simpa [ofList, empty] using hall empty (by simpa [empty] using h)
  clear h
  induction es with
  | nil => simp
  | cons e es ih =>
    intro d hd
    have hlast : (d.insert e.1 e.2).entries = d.entries ++ [e] :=
      insertEntry_last fun x hx => (List.pairwise_append.1 hd).2.2 x hx e List.mem_cons_self
    rw [List.foldl_cons, ih _ (by rw [hlast]; simpa using hd), hlast]
    simp

theorem ofList_entries (d : Dict α) : ofList d.entries = d := by
  have h := entries_ofList d.sorted
  obtain ⟨es, hes⟩ := d
  rcases hd : ofList es with ⟨es', hes'⟩
  simp_all

end Dict
end PromptAssembly
