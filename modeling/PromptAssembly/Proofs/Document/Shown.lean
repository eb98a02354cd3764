import Mathlib.Data.List.Forall2
import PromptAssembly.Document

/-!
# Documents that show a value

A format is faithful if a document that shows a value lets every kind of value be read off
(`Faithful`). Then what records write of their fields is what they read from such a document: a
field that is empty and left out as well as one that is there.
-/
namespace PromptAssembly

namespace Json

mutual

/-- Whether the keys are in order wherever there are keys, as they are in a sorted map. -/
def isSorted : Json → Bool
  | .array items => itemsSorted items
  | .object fields => decide (fields.Pairwise fun a b => a.1 < b.1) && fieldsSorted fields
  | _ => true

def itemsSorted : List Json → Bool
  | [] => true
  | item :: items => item.isSorted && itemsSorted items

def fieldsSorted : List (String × Json) → Bool
  | [] => true
  | (_, value) :: fields => value.isSorted && fieldsSorted fields

end

variable {α : Type} {name k : String}

@[simp] theorem lookup_entry (j : Json) (fs : Fields) :
    ((name, j) :: fs).lookup k = if k = name then some j else fs.lookup k :=
  Dict.lookup_entry name j fs k

@[simp] theorem lookup_textField {s : String} : (textField name s).lookup k =
    if k = name ∧ s ≠ "" then some (.string s) else none := by
  unfold textField
  by_cases hs : s = "" <;> simp [hs]

@[simp] theorem lookup_listField {f : α → Json} {xs : List α} : (listField name f xs).lookup k =
    if k = name ∧ xs ≠ [] then some (.array (xs.map f)) else none := by
  unfold listField
  by_cases hxs : xs = [] <;> simp [hxs]

@[simp] theorem lookup_dictField {f : α → Json} {d : Dict α} : (dictField name f d).lookup k =
    if k = name ∧ d.isEmpty = false then some (ofDict f d) else none := by
  unfold dictField
  by_cases hd : d.isEmpty <;> simp [hd]

@[simp] theorem lookup_optionField {f : α → Json} {o : Option α} : (optionField name f o).lookup k =
    if k = name then o.map f else none := by
  cases o <;> simp [optionField]

def fields : Json → Fields
  | .object fs => fs
  | _ => []

/-- Fields with some of these names, in this order. -/
def Named (fs : Fields) (names : List String) : Prop := (fs.map (·.1)).Sublist names

theorem named_single (name : String) (j : Json) : Named [(name, j)] [name] := .refl _

theorem named_textField (name s : String) : Named (textField name s) [name] := by
  unfold textField Named
  split <;> simp

theorem named_listField (name : String) (f : α → Json) (xs : List α) :
    Named (listField name f xs) [name] := by
  unfold listField Named
  split <;> simp

theorem named_dictField (name : String) (f : α → Json) (d : Dict α) :
    Named (dictField name f d) [name] := by
  unfold dictField Named
  split <;> simp

theorem named_optionField (name : String) (f : α → Json) (o : Option α) :
    Named (optionField name f o) [name] := by
  cases o <;> simp [optionField, Named]

theorem Named.append {fs gs : Fields} {ns ms : List String} (hf : Named fs ns) (hg : Named gs ms) :
    Named (fs ++ gs) (ns ++ ms) := by
  rw [Named, List.map_append]
  exact List.Sublist.append hf hg

end Json

namespace Document
open Json FreeDocument
variable {σ α : Type} [FreeDocument σ] {shows : σ → Json → Prop}

abbrev ShowsFields (shows : σ → Json → Prop) : List (String × σ) → Fields → Prop :=
  List.Forall₂ fun e f => e.1 = f.1 ∧ shows e.2 f.2

/-- Whatever kind of value a document shows, it can be read off. -/
structure Faithful (shows : σ → Json → Prop) : Prop where
  text {s : σ} {t : String} : shows s (.string t) → text? s = some t
  flag {s : σ} {b : Bool} : shows s (.bool b) → flag? s = some b
  isNull {s : σ} {j : Json} : shows s j → j ≠ .null → isNull? s = some false
  items {s : σ} {js : List Json} : shows s (.array js) →
    ∃ ss, items? s = some ss ∧ List.Forall₂ shows ss js
  entries {s : σ} {fs : Fields} : shows s (.object fs) →
    ∃ es, entries? s = some es ∧ ShowsFields shows es fs
  fields {s : σ} {fs : Fields} (names : List String) : shows s (.object fs) →
    (fs.map (·.1)).Nodup → fields? names s = entries? s
  value {s : σ} {j : Json} : shows s j → j.isSorted → value? s = some j
  extra {s : σ} {j : Json} : shows s j → j.isSorted → extra? s = some j

theorem keys_of_forall₂ {ρ τ : Type} {R : ρ → τ → Prop} {es : List (String × ρ)}
    {fs : List (String × τ)} (h : List.Forall₂ (fun e f => e.1 = f.1 ∧ R e.2 f.2) es fs) :
    es.map (·.1) = fs.map (·.1) := by
  induction h with
  | nil => rfl
  | cons same _ ih => simp [same.1, ih]

theorem rel_lookup {ρ τ : Type} {R : ρ → τ → Prop} {es : List (String × ρ)}
    {fs : List (String × τ)} (h : List.Forall₂ (fun e f => e.1 = f.1 ∧ R e.2 f.2) es fs)
    (name : String) : Option.Rel R (es.lookup name) (fs.lookup name) := by
  induction h with
  | nil => exact .none
  | @cons e f es fs same _ ih =>
    obtain ⟨⟨k, s⟩, l, j⟩ := e, f
    obtain ⟨rfl, hs⟩ := same
    rw [List.lookup_cons, List.lookup_cons]
    cases name == k
    · exact ih
    · exact .some hs

theorem forall₂_of_mapM {ρ τ : Type} {read : ρ → Option τ} {xs : List ρ} {ys : List τ}
    (h : xs.mapM read = some ys) : List.Forall₂ (fun x y => read x = some y) xs ys := by
  induction xs generalizing ys with
  | nil =>
    obtain rfl : ys = [] := by simpa using h.symm
    exact .nil
  | cons x xs ih =>
    rw [List.mapM_cons] at h
    obtain ⟨y, hy, h⟩ := Option.bind_eq_some_iff.1 h
    obtain ⟨rest, hrest, h⟩ := Option.bind_eq_some_iff.1 h
    obtain rfl := Option.some.inj h
    exact .cons hy (ih hrest)

theorem forall₂_of_pairs? {ρ : Type} [Document ρ] {read : ρ → Option α} {s : ρ}
    {ps : List (String × α)} (h : pairs? read s = some ps) : ∃ es, entries? s = some es ∧
      List.Forall₂ (fun e p => e.1 = p.1 ∧ read e.2 = some p.2) es ps := by
  obtain ⟨es, hes, h⟩ := Option.bind_eq_some_iff.1 h
  refine ⟨es, hes, (forall₂_of_mapM h).imp fun e p hp => ?_⟩
  obtain ⟨a, ha, hp⟩ := Option.bind_eq_some_iff.1 hp
  obtain rfl := Option.some.inj hp
  exact ⟨rfl, ha⟩

section
variable {es : List (String × σ)} {fs : Fields} (h : ShowsFields shows es fs)
include h
omit [FreeDocument σ]

theorem countP_le_one (distinct : (fs.map (·.1)).Nodup) (name : String) :
    es.countP (·.1 = name) ≤ 1 := by
  have hcount := List.nodup_iff_count.1 (keys_of_forall₂ h ▸ distinct) name
  simpa [List.count, List.countP_map, Function.comp_def, beq_eq_decide] using hcount

theorem filter_of_shown (keep : String → Bool) :
    ShowsFields shows (es.filter fun e => keep e.1) (fs.filter fun f => keep f.1) :=
  List.rel_filter (fun _ _ same => by simp [same.1]) h

end

theorem mapM_of_shown {ρ τ : Type} {shows : ρ → τ → Prop} {f : α → τ} {read : ρ → Option α}
    {xs : List α} {ss : List ρ} (h : List.Forall₂ shows ss (xs.map f))
    (reads : ∀ x ∈ xs, ∀ s, shows s (f x) → read s = some x) :
    ss.mapM read = some xs := by
  induction xs generalizing ss with
  | nil =>
    cases h
    rfl
  | cons x xs ih =>
    cases h with
    | cons hs hss =>
      have hx := reads x List.mem_cons_self _ hs
      have hxs := ih hss fun y hy => reads y (List.mem_cons_of_mem _ hy)
      simp [hx, hxs]

namespace Faithful
variable {read : σ → Option α} {f : α → Json} {s : σ}

theorem read_list (faithful : Faithful shows) {xs : List α} (hs : shows s (.array (xs.map f)))
    (reads : ∀ x ∈ xs, ∀ s, shows s (f x) → read s = some x) :
    list? read s = some xs := by
  obtain ⟨ss, hss, shown⟩ := faithful.items hs
  simp [list?, hss, mapM_of_shown shown reads]

theorem read_pairs (faithful : Faithful shows) {xs : List (String × α)}
    (hs : shows s (.object (xs.map fun e => (e.1, f e.2))))
    (reads : ∀ e ∈ xs, ∀ s, shows s (f e.2) → read s = some e.2) :
    pairs? read s = some xs := by
  obtain ⟨es, hes, shown⟩ := faithful.entries hs
  have hread : es.mapM (fun e => (read e.2).bind fun a => some (e.1, a)) = some xs :=
    mapM_of_shown shown fun e he t ht => by simp [reads e he t.2 ht.2, ht.1]
  simpa [pairs?, hes] using hread

theorem read_dict (faithful : Faithful shows) {d : Dict α} (hs : shows s (ofDict f d))
    (reads : ∀ e ∈ d.entries, ∀ s, shows s (f e.2) → read s = some e.2) :
    dict? read s = some d := by
  rw [dict?, faithful.read_pairs hs reads, Option.map_some, Dict.ofList_entries]

theorem read_optional (faithful : Faithful shows) {j : Json} {a : α} (hs : shows s j)
    (hj : j ≠ .null) (hread : read s = some a) : optional? read s = some (some a) := by
  simp [optional?, faithful.isNull hs hj, hread]

theorem record (faithful : Faithful shows) {fs : Fields} {own : List String}
    (hs : shows s (.object fs)) (named : Named fs own) (distinct : own.Nodup)
    (names : List String) : ∃ es, fields? names s = some es ∧
      ∀ name, Option.Rel shows (es.lookup name) (fs.lookup name) := by
  obtain ⟨es, hes, shown⟩ := faithful.entries hs
  exact ⟨es, by rw [faithful.fields names hs (List.Sublist.nodup named distinct), hes],
    rel_lookup shown⟩

end Faithful

section Fields
variable {es : List (String × σ)} {name : String} {read : σ → Option α} {o : Option Json}

omit [FreeDocument σ] in
theorem needed?_of_shown {j : Json} {a : α} (h : Option.Rel shows (es.lookup name) o)
    (reads : ∀ s, shows s j → read s = some a) (written : o = some j := by simp) :
    needed? es name read = some a := by
  rw [needed?]
  rw [written] at h
  generalize es.lookup name = found at h ⊢
  cases h with
  | some hs => exact reads _ hs

omit [FreeDocument σ] in
theorem field?_of_shown {default a : α} (h : Option.Rel shows (es.lookup name) o)
    (absent : o = none → a = default)
    (present : ∀ j, o = some j → ∀ s, shows s j → read s = some a) :
    field? es name default read = some a := by
  rw [field?]
  generalize es.lookup name = found at h ⊢
  cases h with
  | none => rw [absent rfl]
  | some hs => exact present _ rfl _ hs

omit [FreeDocument σ] in
theorem field?_of_written {j : Json} {default a : α} (h : Option.Rel shows (es.lookup name) o)
    (reads : ∀ s, shows s j → read s = some a)
    (written : o = some j := by simp [List.lookup_append]) :
    field? es name default read = some a := by
  refine field?_of_shown h (fun absent => ?_) fun k present s hs => ?_
  · simp [written] at absent
  · obtain rfl : j = k := by simpa [written] using present
    exact reads s hs

variable (faithful : Faithful shows) (h : Option.Rel shows (es.lookup name) o)
include faithful h

theorem Faithful.textField {t : String}
    (written : o = (Json.textField name t).lookup name := by simp [List.lookup_append]) :
    field? es name "" text? = some t := by
  refine field?_of_shown h (fun absent => ?_) fun j present s hs => ?_
  · simpa [written] using absent
  · obtain ⟨-, rfl⟩ : t ≠ "" ∧ _ = j := by simpa [written] using present
    exact faithful.text hs

theorem Faithful.listField {f : α → Json} {xs : List α}
    (reads : ∀ x ∈ xs, ∀ s, shows s (f x) → read s = some x)
    (written : o = (Json.listField name f xs).lookup name := by simp [List.lookup_append]) :
    field? es name [] (list? read) = some xs := by
  refine field?_of_shown h (fun absent => ?_) fun j present s hs => ?_
  · simpa [written] using absent
  · obtain ⟨-, rfl⟩ : xs ≠ [] ∧ _ = j := by simpa [written] using present
    exact faithful.read_list hs reads

theorem Faithful.textsField {ts : List String}
    (written : o = (Json.listField name .string ts).lookup name := by simp [List.lookup_append]) :
    field? es name [] (list? text?) = some ts :=
  faithful.listField h (fun _ _ _ => faithful.text) written

theorem Faithful.dictField {f : α → Json} {d : Dict α}
    (reads : ∀ e ∈ d.entries, ∀ s, shows s (f e.2) → read s = some e.2)
    (written : o = (Json.dictField name f d).lookup name := by simp [List.lookup_append]) :
    field? es name Dict.empty (dict? read) = some d := by
  refine field?_of_shown h (fun absent => ?_) fun j present s hs => ?_
  · have hd : d.isEmpty = true := by simpa [written] using absent
    have hentries : d.entries = [] := by simpa [Dict.isEmpty] using hd
    exact Dict.ext_get? fun k => by simp [Dict.get?, Dict.empty, hentries]
  · obtain ⟨-, rfl⟩ : d.isEmpty = false ∧ _ = j := by simpa [written] using present
    exact faithful.read_dict hs reads

theorem Faithful.optionField {f : α → Json} {a : Option α} (proper : ∀ x, f x ≠ .null)
    (reads : ∀ x, a = some x → ∀ s, shows s (f x) → read s = some x)
    (written : o = (Json.optionField name f a).lookup name := by simp [List.lookup_append]) :
    field? es name none (optional? read) = some a := by
  refine field?_of_shown h (fun absent => ?_) fun j present s hs => ?_
  · simpa [written] using absent
  · obtain ⟨x, rfl, rfl⟩ : ∃ x, a = some x ∧ f x = j := by simpa [written] using present
    exact faithful.read_optional hs (proper x) (reads x rfl s hs)

theorem Faithful.textOption {a : Option String}
    (written : o = (Json.optionField name .string a).lookup name := by simp [List.lookup_append]) :
    field? es name none (optional? text?) = some a :=
  faithful.optionField h (by simp) (fun _ _ _ => faithful.text) written

theorem Faithful.flagOption {a : Option Bool}
    (written : o = (Json.optionField name .bool a).lookup name := by simp [List.lookup_append]) :
    field? es name none (optional? flag?) = some a :=
  faithful.optionField h (by simp) (fun _ _ _ => faithful.flag) written

end Fields
end Document
end PromptAssembly
