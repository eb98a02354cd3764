import Mathlib.Data.List.Basic
import PromptAssembly.Proofs.Document.Shown

/-!
# What a record knows

A form names the fields that a record knows, and those of the records inside it. To trim a document
is to take out, at every depth, what its form does not name (`Form.trim`). A record that looks up
only names of its form reads the same from a document and from what is left of it
(`Form.bind_fields_trim`), and what is written with such names only has nothing to be taken out
(`Form.trim_object`).
-/
namespace PromptAssembly.Json
open Document

inductive Form where
  /-- Any value, which is left as it is. -/
  | any
  | list (each : Form)
  | dict (each : Form)
  | record (fields : List (String × Form))
  /-- A record that keeps what it does not know. -/
  | keeping (names : List String)

namespace Form

/-- A record of fields with any value. -/
def plain (names : List String) : Form := .record (names.map (·, .any))

mutual

/-- What is left of a document without the fields that its form does not name. -/
def trim : Form → Json → Json
  | .list each, .array items => .array (items.map each.trim)
  | .dict each, .object entries => .object (entries.map fun e => (e.1, each.trim e.2))
  | .record fields, .object entries =>
    .object (entries.filterMap fun e => (trimField fields e.1 e.2).map (e.1, ·))
  | .record fields, .array items => .array (trimItems fields items)
  | _, j => j

def trimField : List (String × Form) → String → Json → Option Json
  | [], _, _ => none
  | (name, form) :: fields, key, j =>
    if key = name then some (form.trim j) else trimField fields key j

/-- The values of a record that is given as an array. -/
def trimItems : List (String × Form) → List Json → List Json
  | (_, form) :: fields, j :: items => form.trim j :: trimItems fields items
  | _, items => items

end

variable {α : Type} {form : Form} {fields : List (String × Form)}

@[simp] theorem trim_any (j : Json) : Form.any.trim j = j := by simp [trim]

@[simp] theorem trim_keeping (names : List String) (j : Json) : (keeping names).trim j = j := by
  simp [trim]

theorem trimField_eq (fields : List (String × Form)) (key : String) (j : Json) :
    trimField fields key j = (fields.lookup key).map (·.trim j) := by
  induction fields with
  | nil => rfl
  | cons f fields ih =>
    obtain ⟨name, form⟩ := f
    rw [trimField, ih, Dict.lookup_entry]
    by_cases h : key = name <;> simp [h]

theorem trim_eq_null_iff {j : Json} : form.trim j = .null ↔ j = .null := by
  cases form <;> cases j <;> simp [trim]

/-- Fields that hold, under the names of a form, what is left of others. -/
def Trims (fields : List (String × Form)) (es es' : List (String × Json)) : Prop :=
  ∀ name form, fields.lookup name = some form → es'.lookup name = (es.lookup name).map form.trim

theorem trims_filterMap (fields : List (String × Form)) (es : List (String × Json)) :
    Trims fields es (es.filterMap fun e => (trimField fields e.1 e.2).map (e.1, ·)) := by
  intro name form hform
  induction es with
  | nil => rfl
  | cons e es ih =>
    obtain ⟨key, j⟩ := e
    rw [lookup_entry]
    by_cases h : name = key
    · subst h
      simp [trimField_eq, hform]
    · rw [if_neg h, ← ih]
      cases hfield : trimField fields key j with
      | none => simp [hfield]
      | some j' => simp [hfield, h]

theorem trims_zip (fields : List (String × Form)) (items : List Json) :
    Trims fields ((fields.map (·.1)).zip items)
      ((fields.map (·.1)).zip (trimItems fields items)) := by
  intro name form hform
  induction fields generalizing items with
  | nil => cases hform
  | cons f fields ih =>
    obtain ⟨known, knownForm⟩ := f
    rw [Dict.lookup_entry] at hform
    cases items with
    | nil => simp [trimItems]
    | cons j items =>
      rw [trimItems, List.map_cons, List.zip_cons_cons, List.zip_cons_cons, lookup_entry,
        lookup_entry]
      by_cases h : name = known
      · obtain rfl : knownForm = form := by simpa [h] using hform
        simp [h]
      · rw [if_neg h] at hform ⊢
        rw [if_neg h]
        exact ih items hform

theorem length_trimItems (fields : List (String × Form)) (items : List Json) :
    (trimItems fields items).length = items.length := by
  induction fields generalizing items with
  | nil => simp [trimItems]
  | cons f fields ih => cases items <;> simp [trimItems, ih]

/-- A record is read from what is left of a document as it is from the document. -/
theorem bind_fields_trim {names : List String} {read : List (String × Json) → Option α}
    (j : Json) (known : fields.map (·.1) = names)
    (reads : ∀ es es', Trims fields es es' → read es' = read es) :
    (fields? names ((Form.record fields).trim j)).bind read = (fields? names j).bind read := by
  subst known
  cases j with
  | object entries => simpa [trim, fields?, recordFields?] using reads _ _ (trims_filterMap _ _)
  | array items =>
    simp only [trim, fields?, recordFields?, length_trimItems]
    split
    · exact reads _ _ (trims_zip _ _)
    · rfl
  | _ => rfl

theorem Trims.lookup_eq {es es' : List (String × Json)} (h : Trims fields es es') (name : String)
    (hform : fields.lookup name = some .any) : es'.lookup name = es.lookup name := by
  rw [h name _ hform]
  cases es.lookup name <;> simp

theorem lookup_plain {names : List String} {name : String} (h : name ∈ names) :
    (names.map fun name => (name, Form.any)).lookup name = some .any := by
  induction names with
  | nil => cases h
  | cons other names ih =>
    rw [List.map_cons, Dict.lookup_entry]
    split
    · rfl
    · next hne => exact ih ((List.mem_cons.1 h).resolve_left hne)

theorem Trims.field?_any {es es' : List (String × Json)} (h : Trims fields es es') (name : String)
    (hform : fields.lookup name = some .any) {default : α} {read : Json → Option α} :
    field? es' name default read = field? es name default read := by
  rw [field?, field?, h.lookup_eq name hform]

theorem Trims.needed?_any {es es' : List (String × Json)} (h : Trims fields es es') (name : String)
    (hform : fields.lookup name = some .any) {read : Json → Option α} :
    needed? es' name read = needed? es name read := by
  rw [needed?, needed?, h.lookup_eq name hform]

theorem read?_plain {names : List String} {read : List (String × Json) → Option α} (j : Json)
    (reads : ∀ es es' : List (String × Json),
      (∀ name ∈ names, es'.lookup name = es.lookup name) → read es' = read es) :
    (fields? names ((plain names).trim j)).bind read = (fields? names j).bind read :=
  bind_fields_trim j (by simp [Function.comp_def]) fun es es' h =>
    reads es es' fun name hname => h.lookup_eq name (lookup_plain hname)

section
variable {read : Json → Option α} (same : ∀ j, read (form.trim j) = read j)
include same

theorem Trims.field?_eq {es es' : List (String × Json)} (h : Trims fields es es') (name : String)
    (hform : fields.lookup name = some form) {default : α} :
    field? es' name default read = field? es name default read := by
  rw [field?, field?, h name _ hform]
  cases es.lookup name with
  | none => rfl
  | some j => exact same j

theorem optional?_trim (j : Json) : optional? read (form.trim j) = optional? read j := by
  have null : isNull? (form.trim j) = isNull? j := by
    simp [isNull?, trim_eq_null_iff]
  simp [optional?, null, same]

theorem list?_trim (j : Json) : list? read ((Form.list form).trim j) = list? read j := by
  cases j with
  | array items =>
    have each : (items.map form.trim).mapM read = items.mapM read := by
      rw [List.mapM_map]
      exact congrArg items.mapM (funext same)
    simpa [trim, list?, items?] using each
  | _ => rfl

theorem dict?_trim (j : Json) : dict? read ((Form.dict form).trim j) = dict? read j := by
  cases j with
  | object entries =>
    have each : (entries.map fun e => (e.1, form.trim e.2)).mapM
        (fun e => (read e.2).bind fun a => some (e.1, a)) =
        entries.mapM fun e => (read e.2).bind fun a => some (e.1, a) := by
      rw [List.mapM_map]
      exact congrArg entries.mapM (funext fun e => by simp [same])
    simpa [trim, dict?, pairs?, entries?] using congrArg (Option.map Dict.ofList) each
  | _ => rfl

end

/-- Every field is named, and nothing can be taken out of it. -/
def Knows (fields : List (String × Form)) (fs : Fields) : Prop :=
  ∀ e ∈ fs, trimField fields e.1 e.2 = some e.2

theorem trim_object {fs : Fields} (h : Knows fields fs) :
    (Form.record fields).trim (.object fs) = .object fs := by
  have each : ∀ e ∈ fs, (trimField fields e.1 e.2).map (e.1, ·) = some e :=
    fun e he => by simp [h e he]
  rw [trim, List.filterMap_congr each, List.filterMap_some]

theorem Knows.append {fs gs : Fields} (hf : Knows fields fs) (hg : Knows fields gs) :
    Knows fields (fs ++ gs) :=
  List.forall_mem_append.2 ⟨hf, hg⟩

theorem knows_of_named {fs : Fields} {names : List String} (named : Named fs names)
    (known : ∀ name ∈ names, fields.lookup name = some .any) : Knows fields fs := by
  intro e he
  have hform := known e.1 (named.subset (List.mem_map_of_mem he))
  simp [trimField_eq, hform]

theorem trim_plain {fs : Fields} {names : List String} (named : Named fs names) :
    (plain names).trim (.object fs) = .object fs :=
  trim_object (knows_of_named named fun _ => lookup_plain)

section
variable {name : String} {f : α → Json}

theorem knows_any {fs : Fields} (named : Named fs [name])
    (hform : fields.lookup name = some .any) : Knows fields fs :=
  knows_of_named named fun _ h => List.mem_singleton.1 h ▸ hform

theorem knows_entry {j : Json} (hform : fields.lookup name = some form) (left : form.trim j = j) :
    Knows fields [(name, j)] := by
  simp [Knows, trimField_eq, hform, left]

theorem knows_listField {xs : List α} (hform : fields.lookup name = some (.list form))
    (left : ∀ x ∈ xs, form.trim (f x) = f x) : Knows fields (listField name f xs) := by
  have items : (xs.map f).map form.trim = xs.map f := by simpa using left
  unfold listField
  split
  · simp [Knows]
  · exact knows_entry hform (by rw [trim, items])

theorem knows_dictField {d : Dict α} (hform : fields.lookup name = some (.dict form))
    (left : ∀ e ∈ d.entries, form.trim (f e.2) = f e.2) : Knows fields (dictField name f d) := by
  have entries : ∀ e ∈ d.entries, (e.1, form.trim (f e.2)) = (e.1, f e.2) :=
    fun e he => by rw [left e he]
  unfold dictField
  split
  · simp [Knows]
  · refine knows_entry hform ?_
    rw [ofDict, trim, List.map_map]
    exact congrArg Json.object (List.map_congr_left entries)

theorem knows_optionField {o : Option α} (hform : fields.lookup name = some form)
    (left : ∀ x, o = some x → form.trim (f x) = f x) : Knows fields (optionField name f o) := by
  cases o with
  | none => simp [Knows, optionField]
  | some x => exact knows_entry hform (left x rfl)

end
end Form
end PromptAssembly.Json
