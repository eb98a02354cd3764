import PromptAssembly.Proofs.Document.Form

/-!
# What arrives

A document arrives in another if whatever stands in it under a name of its form stands in the other
as well (`Form.Arrives`). Only what is void, and would be read the same if it were not there, may be
left out. The entries of a dictionary arrive in any order, and of several for one key the last.
Reading and then writing conveys a form if every document that can be read arrives in what is
written of it (`Conveys`), and does so for a record if each of its fields lands (`arrives_record`).
-/
namespace PromptAssembly

theorem Dict.get?_ofList_eq {α : Type} (es : List (String × α)) (k : String) :
    (Dict.ofList es).get? k = es.reverse.lookup k := by
  suffices all : ∀ d : Dict α, (es.foldl (fun d e => d.insert e.1 e.2) d).get? k =
      (es.reverse.lookup k).or (d.get? k) by
    simpa [Dict.ofList] using all Dict.empty
  induction es with
  | nil => simp
  | cons e es ih =>
    intro d
    obtain ⟨key, a⟩ := e
    rw [List.foldl_cons, ih, List.reverse_cons, List.lookup_append, Option.or_assoc,
      Dict.lookup_entry, Dict.get?_insert]
    split <;> simp

theorem Dict.lookup_reverse {α : Type} (d : Dict α) (k : String) :
    d.entries.reverse.lookup k = d.get? k := by
  rw [← Dict.get?_ofList_eq, Dict.ofList_entries]

namespace Json
open Document

/-- A field of a record that knows some names, if the record has it. -/
def child? (names : List String) (name : String) (j : Json) : Option Json :=
  (recordFields? names j).bind (·.lookup name)

def isVoid : Json → Bool
  | .null | .string "" | .array [] | .object [] => true
  | _ => false

namespace Form

mutual

/-- The second document holds what the first holds under the names of the form. -/
def Arrives : Form → Json → Json → Prop
  | .any, j, j' => j' = j ∨ ∃ es es', j = .object es ∧ j' = .object es' ∧
    ∀ key, es'.reverse.lookup key = es.reverse.lookup key
  | .list each, j, j' => ∃ items items', j = .array items ∧ j' = .array items' ∧
    List.Forall₂ (fun v v' => each.Arrives v v') items items'
  | .dict each, j, j' => ∃ es es', j = .object es ∧ j' = .object es' ∧
    ∀ key, Option.Rel (fun v v' => each.Arrives v v') (es.reverse.lookup key)
      (es'.reverse.lookup key)
  | .record fields, j, j' => ∀ name ∈ fields.map (·.1), ∀ v,
    child? (fields.map (·.1)) name j = some v → v.isVoid ∨
      ∃ v', child? (fields.map (·.1)) name j' = some v' ∧ ArrivesField fields name v v'
  | .keeping names, j, j' => ∃ es es', j = .object es ∧ j' = .object es' ∧
    ∀ key v, es.reverse.lookup key = some v →
      (key ∈ names ∧ v.isVoid) ∨ es'.lookup key = some v

def ArrivesField : List (String × Form) → String → Json → Json → Prop
  | [], _, _, _ => True
  | (name, form) :: fields, key, v, v' =>
    if key = name then form.Arrives v v' else ArrivesField fields key v v'

end

/-- Whatever can be read arrives in what is written of it. -/
def Conveys {α : Type} (form : Form) (read : Json → Option α) (write : α → Json) : Prop :=
  ∀ {j a}, read j = some a → form.Arrives j (write a)

/-- Whatever can be read is written as it was. -/
def Restores {α : Type} (read : Json → Option α) (write : α → Json) : Prop :=
  ∀ {j a}, read j = some a → j = write a

variable {α : Type} {form each : Form} {fields : List (String × Form)} {es fs : Fields}
  {name : String} {read : Json → Option α} {write : α → Json} {j v v' : Json}

theorem Restores.conveys (restores : Restores read write) : Conveys .any read write := fun h => by
  rw [Arrives]
  exact .inl (restores h).symm

theorem restores_text : Restores text? .string := by
  rintro (_ | _ | _ | _ | _ | _ | _) a h <;> simp_all [text?]

theorem restores_flag : Restores flag? .bool := by
  rintro (_ | _ | _ | _ | _ | _ | _) a h <;> simp_all [flag?]

theorem restores_natural : Restores natural? fun n => .int n := by
  rintro (_ | _ | m | _ | _ | _ | _) n h <;> try simp [natural?] at h
  obtain ⟨nonneg, rfl⟩ := h
  exact congrArg Json.int (Int.toNat_of_nonneg nonneg).symm

theorem forall₂_of_list? {xs : List α} (h : list? read v = some xs) :
    ∃ items, v = .array items ∧ List.Forall₂ (fun v x => read v = some x) items xs := by
  cases v with
  | array items => exact ⟨items, rfl, forall₂_of_mapM h⟩
  | _ => cases h

theorem Restores.list (restores : Restores read write) :
    Restores (list? read) fun xs => .array (xs.map write) := fun h => by
  obtain ⟨items, rfl, all⟩ := forall₂_of_list? h
  congr 1
  clear h
  induction all with
  | nil => rfl
  | cons hx _ ih => rw [restores hx, ih, List.map_cons]

theorem restores_texts : Restores (list? text?) strings := restores_text.list

theorem Conveys.list (conveys : Conveys each read write) :
    Conveys (.list each) (list? read) fun xs => .array (xs.map write) := fun h => by
  obtain ⟨items, rfl, all⟩ := forall₂_of_list? h
  rw [Arrives]
  exact ⟨items, _, rfl, rfl, List.forall₂_map_right_iff.2 (all.imp fun _ _ => conveys)⟩

theorem lookup_of_dict? {d : Dict α} (h : dict? read v = some d) :
    ∃ entries, v = .object entries ∧ (d.isEmpty → entries = []) ∧
      ∀ key, Option.Rel (fun v x => read v = some x) (entries.reverse.lookup key) (d.get? key) := by
  obtain ⟨ps, hps, rfl⟩ := Option.map_eq_some_iff.1 h
  obtain ⟨entries, hentries, all⟩ := forall₂_of_pairs? hps
  cases v with
  | object es =>
    obtain rfl : es = entries := Option.some.inj hentries
    refine ⟨es, rfl, fun empty => ?_, fun key => ?_⟩
    · have keys := keys_of_forall₂ (R := fun v x => read v = some x) all
      have none : (Dict.ofList ps).keys = [] := by simpa [Dict.isEmpty, Dict.keys] using empty
      have nobody : ps = [] := List.eq_nil_iff_forall_not_mem.2 fun p hp => by
        have held : p.1 ∈ (Dict.ofList ps).keys := Dict.mem_keys_ofList.2 ⟨p, hp, rfl⟩
        simp [none] at held
      simpa [nobody] using keys
    · rw [Dict.get?_ofList_eq]
      exact rel_lookup (R := fun v x => read v = some x) (List.rel_reverse all) key
  | _ => cases hentries

theorem lookup_reverse_ofDict (d : Dict α) (key : String) :
    (d.entries.map fun e => (e.1, write e.2)).reverse.lookup key = (d.get? key).map write := by
  rw [← Dict.lookup_reverse, ← List.map_reverse]
  induction d.entries.reverse with
  | nil => rfl
  | cons e es ih =>
    rw [List.map_cons, List.lookup_cons, List.lookup_cons, ih]
    cases key == e.1 <;> rfl

theorem Conveys.dict (conveys : Conveys each read write) :
    Conveys (.dict each) (dict? read) (ofDict write) := fun {_ d} h => by
  obtain ⟨entries, rfl, -, found⟩ := lookup_of_dict? h
  rw [Arrives]
  refine ⟨entries, _, rfl, rfl, fun key => ?_⟩
  have rel := found key
  rw [lookup_reverse_ofDict]
  generalize entries.reverse.lookup key = o, d.get? key = p at rel ⊢
  cases rel with
  | none => exact .none
  | some hx => exact .some (conveys hx)

theorem Restores.dict (restores : Restores read write) :
    Conveys .any (dict? read) (ofDict write) := fun {_ d} h => by
  obtain ⟨entries, rfl, -, found⟩ := lookup_of_dict? h
  rw [Arrives]
  refine .inr ⟨entries, _, rfl, rfl, fun key => ?_⟩
  have rel := found key
  rw [lookup_reverse_ofDict]
  generalize entries.reverse.lookup key = o, d.get? key = p at rel ⊢
  cases rel with
  | none => rfl
  | some hx => rw [Option.map_some, restores hx]

theorem arrivesField_of_lookup (h : fields.lookup name = some form) (arrives : form.Arrives v v') :
    ArrivesField fields name v v' := by
  induction fields with
  | nil => cases h
  | cons f fields ih =>
    obtain ⟨own, known⟩ := f
    rw [Dict.lookup_entry] at h
    rw [ArrivesField]
    split
    · next same =>
      rw [if_pos same] at h
      exact Option.some.inj h ▸ arrives
    · next other =>
      rw [if_neg other] at h
      exact ih h

/-- What stands under a name is void or arrives. -/
def Lands (es fs : Fields) (name : String) (form : Form) : Prop :=
  ∀ v, es.lookup name = some v → v.isVoid ∨ ∃ v', fs.lookup name = some v' ∧ form.Arrives v v'

theorem arrives_record (hes : recordFields? (fields.map (·.1)) j = some es)
    (lands : ∀ f ∈ fields, Lands es fs f.1 f.2) : (Form.record fields).Arrives j (.object fs) := by
  rw [Arrives]
  intro name hname v hv
  obtain ⟨form, hform⟩ : ∃ form, fields.lookup name = some form := by
    by_contra none
    obtain ⟨f, hf, rfl⟩ := List.mem_map.1 hname
    have absent : fields.lookup f.1 = Option.none := Option.eq_none_iff_forall_not_mem.2
      fun form hform => none ⟨form, hform⟩
    simpa using List.lookup_eq_none_iff.1 absent f hf
  obtain ⟨before, after, split, -⟩ := List.lookup_eq_some_iff.1 hform
  rw [child?, hes, Option.bind_some] at hv
  refine (lands (name, form) (by simp [split]) v hv).imp_right ?_
  rintro ⟨v', hv', arrives⟩
  exact ⟨v', hv', arrivesField_of_lookup hform arrives⟩

def Reads (es : Fields) (name : String) (read : Json → Option α) (a : α) : Prop :=
  ∀ v, es.lookup name = some v → read v = some a

theorem reads_of_field? {default a : α} (h : field? es name default read = some a) :
    Reads es name read a := by
  intro v hv
  simpa [field?, hv] using h

theorem reads_of_needed? {a : α} (h : needed? es name read = some a) : Reads es name read a := by
  intro v hv
  simpa [needed?, hv] using h

theorem lands_entry {a : α} (reads : Reads es name read a) (conveys : Conveys form read write)
    (written : fs.lookup name = some (write a) := by simp [List.lookup_append]) :
    Lands es fs name form :=
  fun v hv => .inr ⟨write a, written, conveys (reads v hv)⟩

theorem lands_textField {t : String} (reads : Reads es name text? t)
    (written : fs.lookup name = (textField name t).lookup name := by simp [List.lookup_append]) :
    Lands es fs name .any := by
  intro v hv
  by_cases empty : t = ""
  · exact .inl (by rw [restores_text (reads v hv), empty]; rfl)
  · exact .inr ⟨.string t, by simp [written, empty], restores_text.conveys (reads v hv)⟩

theorem lands_listField {xs : List α} (reads : Reads es name (list? read) xs)
    (conveys : Conveys form (list? read) fun xs => .array (xs.map write))
    (written : fs.lookup name = (listField name write xs).lookup name := by
      simp [List.lookup_append]) : Lands es fs name form := by
  intro v hv
  by_cases empty : xs = []
  · obtain ⟨items, rfl, all⟩ := forall₂_of_list? (reads v hv)
    subst empty
    cases all
    exact .inl rfl
  · exact .inr ⟨.array (xs.map write), by simp [written, empty], conveys (reads v hv)⟩

theorem lands_dictField {d : Dict α} (reads : Reads es name (dict? read) d)
    (conveys : Conveys form (dict? read) (ofDict write))
    (written : fs.lookup name = (dictField name write d).lookup name := by
      simp [List.lookup_append]) : Lands es fs name form := by
  intro v hv
  by_cases none : d.isEmpty
  · obtain ⟨entries, rfl, empty, -⟩ := lookup_of_dict? (reads v hv)
    exact .inl (by rw [empty none]; rfl)
  · exact .inr ⟨ofDict write d, by simp [written, none], conveys (reads v hv)⟩

theorem lands_optionField {o : Option α} (reads : Reads es name (optional? read) o)
    (conveys : Conveys form read write)
    (written : fs.lookup name = (optionField name write o).lookup name := by
      simp [List.lookup_append]) : Lands es fs name form := by
  intro v hv
  by_cases null : v = .null
  · exact .inl (by rw [null]; rfl)
  · obtain ⟨x, hx, rfl⟩ : ∃ x, read v = some x ∧ some x = o := by
      simpa [optional?, isNull?, null, Option.bind_eq_some_iff] using reads v hv
    exact .inr ⟨write x, by simp [written], conveys hx⟩

end Form
end Json
end PromptAssembly
