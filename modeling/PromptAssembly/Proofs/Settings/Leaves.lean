import PromptAssembly.Proofs.Document.Shown
import PromptAssembly.Proofs.Settings.Merging

/-!
# Single settings

Each setting has a place in the tree of settings. It is read from what is there, or is the built-in
one if there is nothing (`Leaf.taken_nodeAt`), unless a list stands in place of its section: then it
is read from the item of the list at its position (`Leaf.listed`). Entries of the two dictionaries
count as settings of their own.
-/
namespace PromptAssembly.Settings
open Document
open Files (Path)

/-- A setting, by the kind of its value. -/
inductive Leaf : Type → Type where
  | promptsDir : Leaf (Option Path)
  | fragmentsDir : Leaf (Option Path)
  | mapping (task : String) : Leaf (Option String)
  | maxDepth : Leaf Nat
  | strict : Leaf Bool
  | logEnabled : Leaf Bool
  | logLevel : Leaf String
  | logFormat : Leaf String
  | logOutput : Leaf String
  | logFile : Leaf (Option Path)
  | logColor : Leaf Bool
  | logModule (target : String) : Leaf (Option String)

namespace Leaf
variable {α : Type}

def names : Leaf α → List String
  | promptsDir => ["repository", "prompts_dir"]
  | fragmentsDir => ["repository", "fragments_dir"]
  | mapping task => ["repository", "mappings", task]
  | maxDepth => ["render", "max_depth"]
  | strict => ["render", "strict"]
  | logEnabled => ["logging", "enabled"]
  | logLevel => ["logging", "level"]
  | logFormat => ["logging", "format"]
  | logOutput => ["logging", "output"]
  | logFile => ["logging", "file"]
  | logColor => ["logging", "color"]
  | logModule target => ["logging", "modules", target]

def get : Leaf α → Settings → α
  | promptsDir, s => s.repository.promptsDir
  | fragmentsDir, s => s.repository.fragmentsDir
  | mapping task, s => s.repository.mappings.get? task
  | maxDepth, s => s.render.maxDepth
  | strict, s => s.render.strict
  | logEnabled, s => s.logging.enabled
  | logLevel, s => s.logging.level
  | logFormat, s => s.logging.format
  | logOutput, s => s.logging.output
  | logFile, s => s.logging.file
  | logColor, s => s.logging.color
  | logModule target, s => s.logging.modules.get? target

def read? : Leaf α → Value → Option α
  | promptsDir | fragmentsDir | logFile => optional? text?
  | mapping _ | logModule _ => fun v => (text? v).map some
  | maxDepth => natural?
  | strict | logEnabled | logColor => flag?
  | logLevel | logFormat | logOutput => text?

def part : Leaf α → String
  | promptsDir | fragmentsDir | mapping _ => "repository"
  | maxDepth | strict => "render"
  | logEnabled | logLevel | logFormat | logOutput | logFile | logColor | logModule _ => "logging"

def fields : Leaf α → List String
  | promptsDir | fragmentsDir | mapping _ => ["prompts_dir", "fragments_dir", "mappings"]
  | maxDepth | strict => ["max_depth", "strict"]
  | logEnabled | logLevel | logFormat | logOutput | logFile | logColor | logModule _ =>
    ["enabled", "level", "format", "output", "file", "color", "modules"]

/-- Where its field stands among them. -/
def position : Leaf α → Nat
  | promptsDir | maxDepth | logEnabled => 0
  | fragmentsDir | strict | logLevel => 1
  | mapping _ | logFormat => 2
  | logOutput => 3
  | logFile => 4
  | logColor => 5
  | logModule _ => 6

def readField? : Leaf α → Value → Option α
  | mapping task => fun v => (dict? text? v).map (Dict.get? · task)
  | logModule target => fun v => (dict? text? v).map (Dict.get? · target)
  | ℓ => ℓ.read?

/-- A setting as it is read from a list in place of its section. -/
def listed? (ℓ : Leaf α) (items : List Json) : Option α :=
  match items[ℓ.position]? with
  | none => some (ℓ.get {})
  | some j => ℓ.readField? ⟨j⟩

end Leaf

/-- What is read from what there is, if there is anything. -/
def taken {α : Type} (default : α) (read : Value → Option α) : Option Json → Option α
  | none => some default
  | some j => read ⟨j⟩

section
variable {α β : Type} {read : Value → Option α} {es : Table} {name : String} {default a : α}

/-- Reads neither lists nor tables. -/
def Flat (read : Value → Option α) : Prop := ∀ j a, read ⟨j⟩ = some a → content? j = some j

theorem flat_text : Flat text? := by
  intro j a h
  cases j <;> first | rfl | cases h

theorem flat_natural : Flat natural? := by
  intro j a h
  cases j <;> first | rfl | cases h

theorem flat_flag : Flat flag? := by
  intro j a h
  cases j <;> first | rfl | cases h

theorem Flat.optional (h : Flat read) : Flat (optional? read) := by
  intro j a hj
  by_cases null : j = .null
  · subst null
    rfl
  · obtain ⟨b, hb, -⟩ : ∃ b, read ⟨j⟩ = some b ∧ some b = a := by
      simpa [optional?, isNull?, null, Option.bind_eq_some_iff] using hj
    exact h j b hb

theorem Flat.map (h : Flat read) (f : α → β) : Flat fun v => (read v).map f := by
  intro j b hj
  obtain ⟨a, ha, -⟩ := Option.map_eq_some_iff.1 hj
  exact h j a ha

theorem Leaf.flat (ℓ : Leaf α) : Flat ℓ.read? := by
  cases ℓ with
  | promptsDir | fragmentsDir | logFile => exact flat_text.optional
  | mapping _ | logModule _ => exact flat_text.map some
  | maxDepth => exact flat_natural
  | strict | logEnabled | logColor => exact flat_flag
  | logLevel | logFormat | logOutput => exact flat_text

theorem Flat.taken_content (flat : Flat read) {node : Option Json}
    (h : taken default read node = some a) : taken default read (node.bind content?) = some a := by
  cases node with
  | none => exact h
  | some j => simpa [flat j a h] using h

def wrap (es : Table) : List (String × Value) := es.map fun e => (e.1, ⟨e.2⟩)

theorem lookup_wrap (es : Table) (name : String) :
    (wrap es).lookup name = (es.lookup name).map Value.mk := by
  induction es with
  | nil => rfl
  | cons e es ih => grind [wrap]

theorem lookup_zip {keys : List String} (nodup : keys.Nodup) {k : Nat}
    (h : keys[k]? = some name) (values : List β) : (keys.zip values).lookup name = values[k]? := by
  induction keys generalizing k values with
  | nil => cases h
  | cons key keys ih =>
    obtain ⟨fresh, nodup⟩ := List.nodup_cons.1 nodup
    cases values with
    | nil => simp
    | cons v values =>
      cases k with
      | zero =>
        obtain rfl : key = name := by simpa using h
        simp
      | succ k =>
        have later : keys[k]? = some name := by simpa using h
        have other : name ≠ key := fun same => fresh (same ▸ List.mem_of_getElem? later)
        rw [List.zip_cons_cons, Dict.lookup_entry, if_neg other, ih nodup later,
          List.getElem?_cons_succ]

theorem field?_map {fields : List (String × Value)} (f : α → β)
    (h : field? fields name default read = some a) :
    field? fields name (f default) (fun v => (read v).map f) = some (f a) := by
  unfold field? at h ⊢
  split at h
  · exact congrArg _ (congrArg f (Option.some.inj h))
  · simp [h]

theorem taken_field (h : field? (wrap es) name default read = some a) :
    taken default read (nodeAt [name] (.object es)) = some a := by
  rw [field?, lookup_wrap] at h
  cases hj : es.lookup name <;> simpa [nodeAt, tableOf, hj, taken] using h

theorem taken_entry {key : String} {value : Option α} (distinct : Distinct (.object es))
    (h : field? (wrap es) name none (fun v => (dict? read v).map (Dict.get? · key)) = some value) :
    taken none (fun v => (read v).map some) (nodeAt [name, key] (.object es)) = some value := by
  rw [field?, lookup_wrap] at h
  cases hj : es.lookup name with
  | none => simpa [hj, nodeAt, tableOf, taken] using h
  | some j =>
    obtain ⟨d, hd, rfl⟩ : ∃ d, dict? read ⟨j⟩ = some d ∧ d.get? key = value := by
      simpa [hj] using h
    obtain ⟨ps, hps, rfl⟩ := Option.map_eq_some_iff.1 hd
    cases j with
    | object es' =>
      obtain ⟨entries, hentries, all⟩ := forall₂_of_pairs? hps
      obtain rfl : wrap es' = entries := Option.some.inj hentries
      have keys : (wrap es').map (·.1) = ps.map (·.1) :=
        keys_of_forall₂ (R := fun v x => read v = some x) all
      have nodup : (ps.map (·.1)).Nodup := by
        rw [← keys, wrap, List.map_map]
        exact distinct [name] es' (by simp [nodeAt, tableOf, hj])
      have found := rel_lookup (R := fun v x => read v = some x) all key
      rw [lookup_wrap] at found
      rw [Dict.get?_ofList nodup]
      cases hes : es'.lookup key <;> cases hps : ps.lookup key <;> rw [hes, hps] at found <;>
        cases found
      · simp [nodeAt, tableOf, hj, hes, taken]
      · next read => simp [nodeAt, tableOf, hj, hes, taken, read]
    | _ => cases hps

end

section
variable {v : Value}

theorem repository_fields {r : RepositorySettings} (h : RepositorySettings.read? v = some r) :
    ∃ fields, fields? ["prompts_dir", "fragments_dir", "mappings"] v = some fields ∧
      field? fields "prompts_dir" none (optional? text?) = some r.promptsDir ∧
      field? fields "fragments_dir" none (optional? text?) = some r.fragmentsDir ∧
      field? fields "mappings" Dict.empty (dict? text?) = some r.mappings := by
  unfold RepositorySettings.read? at h
  obtain ⟨fields, hfields, h⟩ := Option.bind_eq_some_iff.1 h
  obtain ⟨promptsDir, hprompts, h⟩ := Option.bind_eq_some_iff.1 h
  obtain ⟨fragmentsDir, hfragments, h⟩ := Option.bind_eq_some_iff.1 h
  obtain ⟨mappings, hmappings, h⟩ := Option.bind_eq_some_iff.1 h
  obtain rfl := Option.some.inj h
  exact ⟨fields, hfields, hprompts, hfragments, hmappings⟩

theorem render_fields {r : RenderSettings} (h : RenderSettings.read? v = some r) :
    ∃ fields, fields? ["max_depth", "strict"] v = some fields ∧
      field? fields "max_depth" ({} : RenderSettings).maxDepth natural? = some r.maxDepth ∧
      field? fields "strict" ({} : RenderSettings).strict flag? = some r.strict := by
  unfold RenderSettings.read? at h
  obtain ⟨fields, hfields, h⟩ := Option.bind_eq_some_iff.1 h
  obtain ⟨maxDepth, hdepth, h⟩ := Option.bind_eq_some_iff.1 h
  obtain ⟨strict, hstrict, h⟩ := Option.bind_eq_some_iff.1 h
  obtain rfl := Option.some.inj h
  exact ⟨fields, hfields, hdepth, hstrict⟩

structure LoggingFields (fields : List (String × Value)) (l : Logging) : Prop where
  enabled : field? fields "enabled" ({} : Logging).enabled flag? = some l.enabled
  level : field? fields "level" ({} : Logging).level text? = some l.level
  format : field? fields "format" ({} : Logging).format text? = some l.format
  output : field? fields "output" ({} : Logging).output text? = some l.output
  file : field? fields "file" ({} : Logging).file (optional? text?) = some l.file
  color : field? fields "color" ({} : Logging).color flag? = some l.color
  modules : field? fields "modules" ({} : Logging).modules (dict? text?) = some l.modules

theorem logging_fields {l : Logging} (h : Logging.read? v = some l) :
    ∃ fields, fields? ["enabled", "level", "format", "output", "file", "color", "modules"] v =
      some fields ∧ LoggingFields fields l := by
  unfold Logging.read? at h
  obtain ⟨fields, hfields, h⟩ := Option.bind_eq_some_iff.1 h
  obtain ⟨enabled, henabled, h⟩ := Option.bind_eq_some_iff.1 h
  obtain ⟨level, hlevel, h⟩ := Option.bind_eq_some_iff.1 h
  obtain ⟨format, hformat, h⟩ := Option.bind_eq_some_iff.1 h
  obtain ⟨output, houtput, h⟩ := Option.bind_eq_some_iff.1 h
  obtain ⟨file, hfile, h⟩ := Option.bind_eq_some_iff.1 h
  obtain ⟨color, hcolor, h⟩ := Option.bind_eq_some_iff.1 h
  obtain ⟨modules, hmodules, h⟩ := Option.bind_eq_some_iff.1 h
  obtain rfl := Option.some.inj h
  exact ⟨fields, hfields, henabled, hlevel, hformat, houtput, hfile, hcolor, hmodules⟩

theorem settings_fields {s : Settings} (h : Settings.read? v = some s) :
    ∃ fields, fields? ["repository", "render", "logging"] v = some fields ∧
      field? fields "repository" {} RepositorySettings.read? = some s.repository ∧
      field? fields "render" {} RenderSettings.read? = some s.render ∧
      field? fields "logging" {} Logging.read? = some s.logging := by
  unfold Settings.read? at h
  obtain ⟨fields, hfields, h⟩ := Option.bind_eq_some_iff.1 h
  obtain ⟨repository, hrepository, h⟩ := Option.bind_eq_some_iff.1 h
  obtain ⟨render, hrender, h⟩ := Option.bind_eq_some_iff.1 h
  obtain ⟨logging, hlogging, h⟩ := Option.bind_eq_some_iff.1 h
  obtain rfl := Option.some.inj h
  exact ⟨fields, hfields, hrepository, hrender, hlogging⟩

end

/-- A section that is not there is read as an empty table. -/
theorem section_of_field {α : Type} {read : Value → Option α} {es : Table} {part : String}
    {default a : α} (empty : read ⟨.object []⟩ = some default)
    (h : field? (wrap es) part default read = some a) :
    read ⟨(es.lookup part).getD (.object [])⟩ = some a := by
  rw [field?, lookup_wrap] at h
  cases hj : es.lookup part with
  | none =>
    obtain rfl : default = a := by simpa [hj] using h
    exact empty
  | some j => simpa [hj] using h

namespace Leaf
variable {α : Type} {s : Settings} {es : Table}

theorem field_of_read (ℓ : Leaf α) (h : Settings.read? (⟨.object es⟩ : Value) = some s) :
    ∃ fields name, fields? ℓ.fields (⟨(es.lookup ℓ.part).getD (.object [])⟩ : Value) = some fields ∧
      ℓ.fields[ℓ.position]? = some name ∧
      field? fields name (ℓ.get {}) ℓ.readField? = some (ℓ.get s) := by
  obtain ⟨fields, hfields, hrepository, hrender, hlogging⟩ := settings_fields h
  obtain rfl : wrap es = fields := Option.some.inj hfields
  obtain ⟨fs, repository, prompts, fragments, mappings⟩ :=
    repository_fields (section_of_field rfl hrepository)
  obtain ⟨gs, render, depth, strict⟩ := render_fields (section_of_field rfl hrender)
  obtain ⟨ls, logging, l⟩ := logging_fields (section_of_field rfl hlogging)
  cases ℓ with
  | promptsDir => exact ⟨fs, _, repository, rfl, prompts⟩
  | fragmentsDir => exact ⟨fs, _, repository, rfl, fragments⟩
  | mapping task => exact ⟨fs, _, repository, rfl, field?_map (Dict.get? · task) mappings⟩
  | maxDepth => exact ⟨gs, _, render, rfl, depth⟩
  | strict => exact ⟨gs, _, render, rfl, strict⟩
  | logEnabled => exact ⟨ls, _, logging, rfl, l.enabled⟩
  | logLevel => exact ⟨ls, _, logging, rfl, l.level⟩
  | logFormat => exact ⟨ls, _, logging, rfl, l.format⟩
  | logOutput => exact ⟨ls, _, logging, rfl, l.output⟩
  | logFile => exact ⟨ls, _, logging, rfl, l.file⟩
  | logColor => exact ⟨ls, _, logging, rfl, l.color⟩
  | logModule target => exact ⟨ls, _, logging, rfl, field?_map (Dict.get? · target) l.modules⟩

theorem taken_section (ℓ : Leaf α) {es : Table} {name : String} {a : α}
    (distinct : Distinct (.object es)) (hname : ℓ.fields[ℓ.position]? = some name)
    (h : field? (wrap es) name (ℓ.get {}) ℓ.readField? = some a) :
    taken (ℓ.get {}) ℓ.read? (nodeAt ℓ.names.tail (.object es)) = some a := by
  cases ℓ with
  | mapping _ | logModule _ =>
    obtain rfl := Option.some.inj hname
    exact taken_entry distinct h
  | _ =>
    obtain rfl := Option.some.inj hname
    exact taken_field h

/-- A setting is read from what there is at its place, if its section is no list. -/
theorem taken_nodeAt (ℓ : Leaf α) (h : Settings.read? (⟨.object es⟩ : Value) = some s)
    (distinct : Distinct (.object es)) (table : ∀ items, es.lookup ℓ.part ≠ some (.array items)) :
    taken (ℓ.get {}) ℓ.read? (nodeAt ℓ.names (.object es)) = some (ℓ.get s) := by
  obtain ⟨fields, name, hfields, hname, hfield⟩ := ℓ.field_of_read h
  have names : ℓ.names = ℓ.part :: ℓ.names.tail := by cases ℓ <;> rfl
  rw [names, nodeAt, tableOf]
  cases hj : es.lookup ℓ.part with
  | none =>
    rw [hj] at hfields
    obtain rfl : wrap [] = fields := Option.some.inj hfields
    have := ℓ.taken_section distinct_empty hname hfield
    have nowhere : nodeAt ℓ.names.tail (.object []) = none := by cases ℓ <;> rfl
    rwa [nowhere] at this
  | some j =>
    rw [hj] at hfields
    cases j with
    | object es' =>
      obtain rfl : wrap es' = fields := Option.some.inj hfields
      exact ℓ.taken_section ((distinct_object_iff.1 distinct).2 _ _ hj) hname hfield
    | array items => exact absurd hj (table items)
    | _ => cases hfields

theorem listed (ℓ : Leaf α) (h : Settings.read? (⟨.object es⟩ : Value) = some s)
    {items : List Json} (list : es.lookup ℓ.part = some (.array items)) :
    ℓ.listed? items = some (ℓ.get s) := by
  obtain ⟨fields, name, hfields, hname, hfield⟩ := ℓ.field_of_read h
  rw [list] at hfields
  obtain rfl : ℓ.fields.zip (items.map Value.mk) = fields := Option.some.inj hfields
  have nodup : ℓ.fields.Nodup := by
    cases ℓ <;> simp [Leaf.fields]
  rw [field?, lookup_zip nodup hname, List.getElem?_map] at hfield
  unfold listed?
  cases hj : items[ℓ.position]? <;> simpa [hj] using hfield

end Leaf
end PromptAssembly.Settings
