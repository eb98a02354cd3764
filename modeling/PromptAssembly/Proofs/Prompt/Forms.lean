import PromptAssembly.Prompt.Assembled
import PromptAssembly.Prompt.Manifest
import PromptAssembly.Proofs.Document.Arrival

/-!
# Forms of the records

A form for each kind of record, with the names that its reader looks up and its writer writes. Every
reader and writer conveys its form: no known field is lost on the way.
-/
namespace PromptAssembly.Prompt
open Document Json Form

def Variable.form : Form :=
  .plain ["name", "type", "required", "default", "description", "example", "enum"]

def FragmentRef.form : Form := .plain ["name", "path", "required"]

def Fragment.form : Form :=
  .plain ["fragment_type", "version", "description", "content", "source_file"]

def ModelOverride.form : Form := .plain ["system_template", "system_template_suffix"]

def EngineInfo.form : Form := .plain ["version", "syntax", "features"]

def Validator.form : Form := .plain ["type", "params", "enabled", "fail_on_violation"]

def Config.form : Form := .record
  [("task_type", .any), ("version", .any), ("description", .any), ("system_template", .any),
   ("required_vars", .any), ("optional_vars", .any), ("variables", .list Variable.form),
   ("fragments", .list FragmentRef.form), ("model_overrides", .dict ModelOverride.form),
   ("template_engine", EngineInfo.form), ("allowed_tools", .any),
   ("validators", .list Validator.form), ("media", .keeping Media.fieldNames)]

def Manifest.form : Form := .record
  [("apiVersion", .any), ("kind", .any), ("metadata", .plain ["name", "labels"]),
   ("spec", Config.form)]

def Assembled.form : Form := .record
  [("task_type", .any), ("system_prompt", .any), ("allowed_tools", .any),
   ("validators", .list Validator.form), ("content_hash", .any)]

def Info.form : Form :=
  .plain ["task_type", "version", "description", "fragment_count", "required_vars",
    "optional_vars", "tool_allowlist", "model_overrides"]

theorem Variable.conveys : Conveys Variable.form Variable.read? Variable.toJson := by
  intro j v h
  unfold Variable.read? at h
  obtain ⟨es, hes, h⟩ := Option.bind_eq_some_iff.1 h
  obtain ⟨_, hname, h⟩ := Option.bind_eq_some_iff.1 h
  obtain ⟨_, hkind, h⟩ := Option.bind_eq_some_iff.1 h
  obtain ⟨_, hrequired, h⟩ := Option.bind_eq_some_iff.1 h
  obtain ⟨_, hdefault, h⟩ := Option.bind_eq_some_iff.1 h
  obtain ⟨_, hdescription, h⟩ := Option.bind_eq_some_iff.1 h
  obtain ⟨_, hsample, h⟩ := Option.bind_eq_some_iff.1 h
  obtain ⟨_, hallowed, h⟩ := Option.bind_eq_some_iff.1 h
  obtain rfl := Option.some.inj h
  refine arrives_record hes ?_
  simp only [List.map, List.forall_mem_cons]
  exact ⟨lands_entry (reads_of_needed? hname) restores_text.conveys,
    lands_textField (reads_of_field? hkind),
    lands_entry (reads_of_field? hrequired) restores_flag.conveys,
    lands_optionField (reads_of_field? hdefault) restores_text.conveys,
    lands_optionField (reads_of_field? hdescription) restores_text.conveys,
    lands_optionField (reads_of_field? hsample) restores_text.conveys,
    lands_listField (reads_of_field? hallowed) restores_texts.conveys, by simp⟩

theorem FragmentRef.conveys : Conveys FragmentRef.form FragmentRef.read? FragmentRef.toJson := by
  intro j r h
  unfold FragmentRef.read? at h
  obtain ⟨es, hes, h⟩ := Option.bind_eq_some_iff.1 h
  obtain ⟨_, hname, h⟩ := Option.bind_eq_some_iff.1 h
  obtain ⟨_, hpath, h⟩ := Option.bind_eq_some_iff.1 h
  obtain ⟨_, hrequired, h⟩ := Option.bind_eq_some_iff.1 h
  obtain rfl := Option.some.inj h
  refine arrives_record hes ?_
  simp only [List.map, List.forall_mem_cons]
  exact ⟨lands_entry (reads_of_needed? hname) restores_text.conveys,
    lands_optionField (reads_of_field? hpath) restores_text.conveys,
    lands_entry (reads_of_field? hrequired) restores_flag.conveys, by simp⟩

theorem Fragment.conveys : Conveys Fragment.form Fragment.read? Fragment.toJson := by
  intro j f h
  unfold Fragment.read? at h
  obtain ⟨es, hes, h⟩ := Option.bind_eq_some_iff.1 h
  obtain ⟨_, hkind, h⟩ := Option.bind_eq_some_iff.1 h
  obtain ⟨_, hversion, h⟩ := Option.bind_eq_some_iff.1 h
  obtain ⟨_, hdescription, h⟩ := Option.bind_eq_some_iff.1 h
  obtain ⟨_, hcontent, h⟩ := Option.bind_eq_some_iff.1 h
  obtain ⟨_, hsource, h⟩ := Option.bind_eq_some_iff.1 h
  obtain rfl := Option.some.inj h
  refine arrives_record hes ?_
  simp only [List.map, List.forall_mem_cons]
  exact ⟨lands_textField (reads_of_field? hkind), lands_textField (reads_of_field? hversion),
    lands_textField (reads_of_field? hdescription),
    lands_entry (reads_of_field? hcontent) restores_text.conveys,
    lands_optionField (reads_of_field? hsource) restores_text.conveys, by simp⟩

theorem ModelOverride.conveys :
    Conveys ModelOverride.form ModelOverride.read? ModelOverride.toJson := by
  intro j o h
  unfold ModelOverride.read? at h
  obtain ⟨es, hes, h⟩ := Option.bind_eq_some_iff.1 h
  obtain ⟨_, htemplate, h⟩ := Option.bind_eq_some_iff.1 h
  obtain ⟨_, hsuffix, h⟩ := Option.bind_eq_some_iff.1 h
  obtain rfl := Option.some.inj h
  refine arrives_record hes ?_
  simp only [List.map, List.forall_mem_cons]
  exact ⟨lands_textField (reads_of_field? htemplate), lands_textField (reads_of_field? hsuffix),
    by simp⟩

theorem EngineInfo.conveys : Conveys EngineInfo.form EngineInfo.read? EngineInfo.toJson := by
  intro j e h
  unfold EngineInfo.read? at h
  obtain ⟨es, hes, h⟩ := Option.bind_eq_some_iff.1 h
  obtain ⟨_, hversion, h⟩ := Option.bind_eq_some_iff.1 h
  obtain ⟨_, hstyle, h⟩ := Option.bind_eq_some_iff.1 h
  obtain ⟨_, hfeatures, h⟩ := Option.bind_eq_some_iff.1 h
  obtain rfl := Option.some.inj h
  refine arrives_record hes ?_
  simp only [List.map, List.forall_mem_cons]
  exact ⟨lands_entry (reads_of_needed? hversion) restores_text.conveys,
    lands_entry (reads_of_needed? hstyle) restores_text.conveys,
    lands_listField (reads_of_field? hfeatures) restores_texts.conveys, by simp⟩

theorem restores_value : Restores FreeDocument.value? id := fun h => Option.some.inj h

theorem Validator.conveys : Conveys Validator.form Validator.read? Validator.toJson := by
  intro j v h
  unfold Validator.read? at h
  obtain ⟨es, hes, h⟩ := Option.bind_eq_some_iff.1 h
  obtain ⟨_, hkind, h⟩ := Option.bind_eq_some_iff.1 h
  obtain ⟨_, hparams, h⟩ := Option.bind_eq_some_iff.1 h
  obtain ⟨_, henabled, h⟩ := Option.bind_eq_some_iff.1 h
  obtain ⟨_, hfail, h⟩ := Option.bind_eq_some_iff.1 h
  obtain rfl := Option.some.inj h
  refine arrives_record hes ?_
  simp only [List.map, List.forall_mem_cons]
  exact ⟨lands_entry (reads_of_needed? hkind) restores_text.conveys,
    lands_dictField (reads_of_field? hparams) restores_value.dict,
    lands_optionField (reads_of_field? henabled) restores_flag.conveys,
    lands_optionField (reads_of_field? hfail) restores_flag.conveys, by simp⟩

theorem lookup_filter {α : Type} (p : String → Bool) (es : List (String × α)) {k : String}
    (hk : p k) : (es.filter fun e => p e.1).lookup k = es.lookup k := by
  induction es with
  | nil => rfl
  | cons e es ih => grind

/-- If a key comes but once, the order of the entries does not matter. -/
theorem lookup_reverse {α : Type} {es : List (String × α)} {k : String}
    (once : es.countP (·.1 = k) ≤ 1) : es.reverse.lookup k = es.lookup k := by
  have alone : (es.filter (·.1 = k)).reverse = es.filter (·.1 = k) := by
    rw [List.countP_eq_length_filter] at once
    generalize es.filter (·.1 = k) = found at once
    match found, once with
    | [], _ => rfl
    | [_], _ => rfl
  have own : decide (k = k) := by simp
  rw [← lookup_filter (fun key => key = k) es.reverse own, List.filter_reverse, alone,
    lookup_filter (fun key => key = k) es own]

theorem Media.of_read? {j : Json} {m : Media} (h : Media.read? j = some m) :
    ∃ given, j = .object given ∧ (∀ name ∈ Media.fieldNames, given.countP (·.1 = name) ≤ 1) ∧
      Reads given "enabled" flag? m.enabled ∧ Reads given "supported_types" texts? m.supportedTypes ∧
      m.extras = Dict.ofList (given.filter (·.1 ∉ Media.fieldNames)) := by
  unfold Media.read? at h
  obtain ⟨given, hgiven, h⟩ := Option.bind_eq_some_iff.1 h
  split at h
  · simp at h
  · next once =>
    obtain ⟨_, henabled, h⟩ := Option.bind_eq_some_iff.1 h
    obtain ⟨_, htypes, h⟩ := Option.bind_eq_some_iff.1 h
    obtain ⟨extras, hextras, h⟩ := Option.bind_eq_some_iff.1 h
    obtain rfl := Option.some.inj h
    refine ⟨given, ?_, by simpa using once, reads_of_field? henabled, reads_of_field? htypes, ?_⟩
    · cases j <;> cases hgiven
      rfl
    · have same : given.filter (·.1 ∉ Media.fieldNames) = extras := by
        rw [← List.map_id (given.filter _)]
        exact Option.some.inj (List.mapM_pure.symm.trans hextras)
      rw [same]

theorem Media.lookup_extras {given : Fields} {name : String} (other : name ∉ Media.fieldNames) :
    (Dict.ofList (given.filter (·.1 ∉ Media.fieldNames))).get? name =
      given.reverse.lookup name := by
  rw [Dict.get?_ofList_eq, ← List.filter_reverse,
    lookup_filter (fun key => key ∉ Media.fieldNames) given.reverse (by simpa using other)]

theorem Media.lookup_toJson (m : Media) {name : String} (other : name ∉ Media.fieldNames) :
    m.toJson.fields.lookup name = m.extras.get? name := by
  have hname : name ≠ "enabled" ∧ name ≠ "supported_types" := by
    simpa [Media.fieldNames] using other
  simp [Media.toJson, fields, List.lookup_append, hname, Dict.get?]

theorem Media.conveys : Conveys (.keeping Media.fieldNames) Media.read? Media.toJson := by
  intro j m h
  obtain ⟨given, rfl, once, enabled, types, extras⟩ := Media.of_read? h
  rw [Arrives]
  refine ⟨given, m.toJson.fields, rfl, rfl, fun key v hv => ?_⟩
  by_cases own : key ∈ Media.fieldNames
  · rw [lookup_reverse (once key own)] at hv
    rcases List.mem_pair.1 own with rfl | rfl
    · obtain rfl := restores_flag (enabled v hv)
      exact .inr (by simp [Media.toJson, fields])
    · obtain rfl := restores_texts (types v hv)
      by_cases empty : m.supportedTypes = []
      · exact .inl ⟨own, by simp [empty, strings, isVoid]⟩
      · exact .inr (by simp [Media.toJson, fields, List.lookup_append, empty, strings])
  · rw [Media.lookup_toJson m own, extras, Media.lookup_extras own]
    exact .inr hv

theorem Config.conveys : Conveys Config.form Config.read? Config.toJson := by
  intro j c h
  unfold Config.read? at h
  obtain ⟨es, hes, h⟩ := Option.bind_eq_some_iff.1 h
  obtain ⟨_, htask, h⟩ := Option.bind_eq_some_iff.1 h
  obtain ⟨_, hversion, h⟩ := Option.bind_eq_some_iff.1 h
  obtain ⟨_, hdescription, h⟩ := Option.bind_eq_some_iff.1 h
  obtain ⟨_, htemplate, h⟩ := Option.bind_eq_some_iff.1 h
  obtain ⟨_, hrequired, h⟩ := Option.bind_eq_some_iff.1 h
  obtain ⟨_, hoptional, h⟩ := Option.bind_eq_some_iff.1 h
  obtain ⟨_, hdeclared, h⟩ := Option.bind_eq_some_iff.1 h
  obtain ⟨_, hfragments, h⟩ := Option.bind_eq_some_iff.1 h
  obtain ⟨_, hoverrides, h⟩ := Option.bind_eq_some_iff.1 h
  obtain ⟨_, hengine, h⟩ := Option.bind_eq_some_iff.1 h
  obtain ⟨_, htools, h⟩ := Option.bind_eq_some_iff.1 h
  obtain ⟨_, hvalidators, h⟩ := Option.bind_eq_some_iff.1 h
  obtain ⟨_, hmedia, h⟩ := Option.bind_eq_some_iff.1 h
  obtain rfl := Option.some.inj h
  refine arrives_record hes ?_
  simp only [List.forall_mem_cons]
  exact ⟨lands_entry (reads_of_field? htask) restores_text.conveys,
    lands_textField (reads_of_field? hversion), lands_textField (reads_of_field? hdescription),
    lands_entry (reads_of_field? htemplate) restores_text.conveys,
    lands_listField (reads_of_field? hrequired) restores_texts.conveys,
    lands_dictField (reads_of_field? hoptional) restores_text.dict,
    lands_listField (reads_of_field? hdeclared) Variable.conveys.list,
    lands_listField (reads_of_field? hfragments) FragmentRef.conveys.list,
    lands_dictField (reads_of_field? hoverrides) ModelOverride.conveys.dict,
    lands_optionField (reads_of_field? hengine) EngineInfo.conveys,
    lands_listField (reads_of_field? htools) restores_texts.conveys,
    lands_listField (reads_of_field? hvalidators) Validator.conveys.list,
    lands_optionField (reads_of_field? hmedia) Media.conveys, by simp⟩

theorem Manifest.conveys_metadata : Conveys (.plain ["name", "labels"]) readMetadata? fun e =>
    .object ([("name", .string e.1)] ++ dictField "labels" .string e.2) := by
  intro j e h
  unfold readMetadata? at h
  obtain ⟨es, hes, h⟩ := Option.bind_eq_some_iff.1 h
  obtain ⟨_, hname, h⟩ := Option.bind_eq_some_iff.1 h
  obtain ⟨_, hlabels, h⟩ := Option.bind_eq_some_iff.1 h
  obtain rfl := Option.some.inj h
  refine arrives_record hes ?_
  simp only [List.map, List.forall_mem_cons]
  exact ⟨lands_entry (reads_of_field? hname) restores_text.conveys,
    lands_dictField (reads_of_field? hlabels) restores_text.dict, by simp⟩

theorem Manifest.conveys : Conveys Manifest.form Manifest.read? Manifest.toJson := by
  intro j m h
  unfold Manifest.read? at h
  obtain ⟨es, hes, h⟩ := Option.bind_eq_some_iff.1 h
  obtain ⟨_, hmetadata, h⟩ := Option.bind_eq_some_iff.1 h
  obtain ⟨_, hversion, h⟩ := Option.bind_eq_some_iff.1 h
  obtain ⟨_, hkind, h⟩ := Option.bind_eq_some_iff.1 h
  obtain ⟨_, hspec, h⟩ := Option.bind_eq_some_iff.1 h
  obtain rfl := Option.some.inj h
  refine arrives_record hes ?_
  simp only [List.forall_mem_cons]
  exact ⟨lands_entry (reads_of_field? hversion) restores_text.conveys,
    lands_entry (reads_of_field? hkind) restores_text.conveys,
    lands_entry (reads_of_field? hmetadata) Manifest.conveys_metadata,
    lands_entry (reads_of_field? hspec) Config.conveys, by simp⟩

theorem Assembled.conveys : Conveys Assembled.form Assembled.read? Assembled.toJson := by
  intro j a h
  unfold Assembled.read? at h
  obtain ⟨es, hes, h⟩ := Option.bind_eq_some_iff.1 h
  obtain ⟨_, htask, h⟩ := Option.bind_eq_some_iff.1 h
  obtain ⟨_, htext, h⟩ := Option.bind_eq_some_iff.1 h
  obtain ⟨_, htools, h⟩ := Option.bind_eq_some_iff.1 h
  obtain ⟨_, hvalidators, h⟩ := Option.bind_eq_some_iff.1 h
  obtain ⟨_, hhash, h⟩ := Option.bind_eq_some_iff.1 h
  obtain rfl := Option.some.inj h
  refine arrives_record hes ?_
  simp only [List.forall_mem_cons]
  exact ⟨lands_entry (reads_of_needed? htask) restores_text.conveys,
    lands_entry (reads_of_needed? htext) restores_text.conveys,
    lands_listField (reads_of_field? htools) restores_texts.conveys,
    lands_listField (reads_of_field? hvalidators) Validator.conveys.list,
    lands_entry (reads_of_needed? hhash) restores_text.conveys, by simp⟩

theorem Info.conveys : Conveys Info.form Info.read? Info.toJson := by
  intro j i h
  unfold Info.read? at h
  obtain ⟨es, hes, h⟩ := Option.bind_eq_some_iff.1 h
  obtain ⟨_, htask, h⟩ := Option.bind_eq_some_iff.1 h
  obtain ⟨_, hversion, h⟩ := Option.bind_eq_some_iff.1 h
  obtain ⟨_, hdescription, h⟩ := Option.bind_eq_some_iff.1 h
  obtain ⟨_, hcount, h⟩ := Option.bind_eq_some_iff.1 h
  obtain ⟨_, hrequired, h⟩ := Option.bind_eq_some_iff.1 h
  obtain ⟨_, hoptional, h⟩ := Option.bind_eq_some_iff.1 h
  obtain ⟨_, htools, h⟩ := Option.bind_eq_some_iff.1 h
  obtain ⟨_, hoverrides, h⟩ := Option.bind_eq_some_iff.1 h
  obtain rfl := Option.some.inj h
  refine arrives_record hes ?_
  simp only [List.map, List.forall_mem_cons]
  exact ⟨lands_entry (reads_of_needed? htask) restores_text.conveys,
    lands_entry (reads_of_needed? hversion) restores_text.conveys,
    lands_entry (reads_of_needed? hdescription) restores_text.conveys,
    lands_entry (reads_of_needed? hcount) restores_natural.conveys,
    lands_entry (reads_of_needed? hrequired) restores_texts.conveys,
    lands_entry (reads_of_needed? hoptional) restores_texts.conveys,
    lands_entry (reads_of_needed? htools) restores_texts.conveys,
    lands_entry (reads_of_needed? hoverrides) restores_texts.conveys, by simp⟩

end PromptAssembly.Prompt
