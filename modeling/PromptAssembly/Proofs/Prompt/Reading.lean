import PromptAssembly.Prompt.Printer
import PromptAssembly.Prompt.Reader
import PromptAssembly.Proofs.Document.Shown

/-!
# Reading what was written

Every record of a configuration is read back from a document that shows what was written of it, in
any faithful format. Only values of any kind ask for more: it must be possible to read them off, and
beside the media settings they must not take the names of these (`Config.Legible`). In every
faithful format it is enough that they are sorted (`Config.Storable`).
-/
namespace PromptAssembly.Prompt
open Document Json
variable {σ : Type} [FreeDocument σ] {shows : σ → Json → Prop} {s : σ}

theorem Variable.named_toJson (v : Variable) : Named v.toJson.fields
    ["name", "type", "required", "default", "description", "example", "enum"] :=
  named_single "name" _
    |>.append (named_textField "type" _)
    |>.append (named_single "required" _)
    |>.append (named_optionField "default" _ _)
    |>.append (named_optionField "description" _ _)
    |>.append (named_optionField "example" _ _)
    |>.append (named_listField "enum" _ _)

theorem Variable.read?_toJson (faithful : Faithful shows) {v : Variable} (hs : shows s v.toJson) :
    Variable.read? s = some v := by
  obtain ⟨es, hes, shown⟩ := faithful.record hs v.named_toJson (by decide)
    ["name", "type", "required", "default", "description", "example", "enum"]
  have hname : needed? es "name" text? = some v.name :=
    needed?_of_shown (shown "name") fun _ => faithful.text
  have hkind : field? es "type" "" text? = some v.kind := faithful.textField (shown "type")
  have hrequired : field? es "required" false flag? = some v.required :=
    field?_of_written (shown "required") fun _ => faithful.flag
  have hdefault : field? es "default" none (optional? text?) = some v.default :=
    faithful.textOption (shown "default")
  have hdescription : field? es "description" none (optional? text?) = some v.description :=
    faithful.textOption (shown "description")
  have hsample : field? es "example" none (optional? text?) = some v.sample :=
    faithful.textOption (shown "example")
  have hvalues : field? es "enum" [] texts? = some v.allowedValues :=
    faithful.textsField (shown "enum")
  simp [Variable.read?, hes, hname, hkind, hrequired, hdefault, hdescription, hsample, hvalues]

theorem FragmentRef.named_toJson (r : FragmentRef) : Named r.toJson.fields
    ["name", "path", "required"] :=
  named_single "name" _
    |>.append (named_optionField "path" _ _)
    |>.append (named_single "required" _)

theorem FragmentRef.read?_toJson (faithful : Faithful shows) {r : FragmentRef}
    (hs : shows s r.toJson) : FragmentRef.read? s = some r := by
  obtain ⟨es, hes, shown⟩ := faithful.record hs r.named_toJson (by decide)
    ["name", "path", "required"]
  have hname : needed? es "name" text? = some r.name :=
    needed?_of_shown (shown "name") fun _ => faithful.text
  have hpath : field? es "path" none (optional? text?) = some r.path :=
    faithful.textOption (shown "path")
  have hrequired : field? es "required" false flag? = some r.required :=
    field?_of_written (shown "required") fun _ => faithful.flag
  simp [FragmentRef.read?, hes, hname, hpath, hrequired]

theorem ModelOverride.named_toJson (o : ModelOverride) : Named o.toJson.fields
    ["system_template", "system_template_suffix"] :=
  named_textField "system_template" _
    |>.append (named_textField "system_template_suffix" _)

theorem ModelOverride.read?_toJson (faithful : Faithful shows) {o : ModelOverride}
    (hs : shows s o.toJson) : ModelOverride.read? s = some o := by
  obtain ⟨es, hes, shown⟩ := faithful.record hs o.named_toJson (by decide)
    ["system_template", "system_template_suffix"]
  have htemplate : field? es "system_template" "" text? = some o.template :=
    faithful.textField (shown "system_template")
  have hsuffix : field? es "system_template_suffix" "" text? = some o.suffix :=
    faithful.textField (shown "system_template_suffix")
  simp [ModelOverride.read?, hes, htemplate, hsuffix]

theorem EngineInfo.named_toJson (e : EngineInfo) : Named e.toJson.fields
    ["version", "syntax", "features"] :=
  named_single "version" _
    |>.append (named_single "syntax" _)
    |>.append (named_listField "features" _ _)

theorem EngineInfo.read?_toJson (faithful : Faithful shows) {e : EngineInfo}
    (hs : shows s e.toJson) : EngineInfo.read? s = some e := by
  obtain ⟨es, hes, shown⟩ := faithful.record hs e.named_toJson (by decide)
    ["version", "syntax", "features"]
  have hversion : needed? es "version" text? = some e.version :=
    needed?_of_shown (shown "version") fun _ => faithful.text
  have hstyle : needed? es "syntax" text? = some e.style :=
    needed?_of_shown (shown "syntax") fun _ => faithful.text
  have hfeatures : field? es "features" [] texts? = some e.features :=
    faithful.textsField (shown "features")
  simp [EngineInfo.read?, hes, hversion, hstyle, hfeatures]

/-- Values of any kind come back as they are if their keys are sorted. -/
def Validator.Storable (v : Validator) : Prop := ∀ e ∈ v.params.entries, e.2.isSorted = true

/-- Where one of its values of any kind is shown, it is what can be read there. -/
def Validator.Legible (shows : σ → Json → Prop) (v : Validator) : Prop :=
  ∀ e ∈ v.params.entries, ∀ s, shows s e.2 → FreeDocument.value? s = some e.2

theorem Validator.Storable.legible (faithful : Faithful shows) {v : Validator}
    (storable : v.Storable) : v.Legible shows :=
  fun e he _ hv => faithful.value hv (storable e he)

theorem Validator.named_toJson (v : Validator) : Named v.toJson.fields
    ["type", "params", "enabled", "fail_on_violation"] :=
  named_single "type" _
    |>.append (named_dictField "params" _ _)
    |>.append (named_optionField "enabled" _ _)
    |>.append (named_optionField "fail_on_violation" _ _)

theorem Validator.read?_toJson (faithful : Faithful shows) {v : Validator}
    (legible : v.Legible shows) (hs : shows s v.toJson) : Validator.read? s = some v := by
  obtain ⟨es, hes, shown⟩ := faithful.record hs v.named_toJson (by decide)
    ["type", "params", "enabled", "fail_on_violation"]
  have hkind : needed? es "type" text? = some v.kind :=
    needed?_of_shown (shown "type") fun _ => faithful.text
  have hparams : field? es "params" Dict.empty (dict? FreeDocument.value?) = some v.params :=
    faithful.dictField (f := id) (shown "params") legible
  have henabled : field? es "enabled" none (optional? flag?) = some v.enabled :=
    faithful.flagOption (shown "enabled")
  have hfails : field? es "fail_on_violation" none (optional? flag?) = some v.failOnViolation :=
    faithful.flagOption (shown "fail_on_violation")
  simp [Validator.read?, hes, hkind, hparams, henabled, hfails]

/-- Settings of any kind come back as well, unless one of them has the name of a known one. -/
def Media.Storable (m : Media) : Prop :=
  ∀ e ∈ m.extras.entries, e.1 ∉ Media.fieldNames ∧ e.2.isSorted = true

/-- The same where extra settings of any kind are shown. -/
def Media.Legible (shows : σ → Json → Prop) (m : Media) : Prop :=
  ∀ e ∈ m.extras.entries, e.1 ∉ Media.fieldNames ∧
    ∀ s, shows s e.2 → FreeDocument.extra? s = some e.2

theorem Media.Storable.legible (faithful : Faithful shows) {m : Media} (storable : m.Storable) :
    m.Legible shows :=
  fun e he => ⟨(storable e he).1, fun _ hv => faithful.extra hv (storable e he).2⟩

theorem Media.read?_toJson (faithful : Faithful shows) {m : Media} (legible : m.Legible shows)
    (hs : shows s m.toJson) : Media.read? s = some m := by
  let known : Fields := [("enabled", .bool m.enabled)] ++
    listField "supported_types" .string m.supportedTypes
  have hknown : Named known Media.fieldNames :=
    named_single "enabled" _ |>.append (named_listField "supported_types" _ _)
  have hobject : shows s (.object (known ++ m.extras.entries)) := hs
  obtain ⟨es, hes, shown⟩ := faithful.entries hobject
  have distinct : ((known ++ m.extras.entries).map (·.1)).Nodup := by
    refine List.Sublist.nodup (hknown.append (.refl _)) (List.nodup_append.2 ⟨by decide, ?_, ?_⟩)
    · exact (List.pairwise_map.2 m.extras.sorted).imp String.ne_of_lt
    · rintro name hname _ hkey rfl
      obtain ⟨e, he, rfl⟩ := List.mem_map.1 hkey
      exact (legible e he).1 hname
  have once : ∀ name ∈ Media.fieldNames, es.countP (·.1 = name) ≤ 1 :=
    fun name _ => countP_le_one shown distinct name
  have henabled : field? es "enabled" false flag? = some m.enabled :=
    field?_of_written (rel_lookup shown "enabled") (fun _ => faithful.flag) (by simp [known])
  have htypes : field? es "supported_types" [] texts? = some m.supportedTypes := by
    have absent : m.extras.entries.lookup "supported_types" = none :=
      List.lookup_eq_none_iff.2 fun e he => by
        have other : "supported_types" ≠ e.1 := by
          intro same
          exact (legible e he).1 (by simp [← same, Media.fieldNames])
        simpa using other
    exact faithful.textsField (rel_lookup shown "supported_types")
      (by simp [known, List.lookup_append, absent])
  have hextras : (es.filter fun e => !decide (e.1 ∈ Media.fieldNames)).mapM (fun e =>
      (FreeDocument.extra? e.2).bind fun j => some (e.1, j)) = some m.extras.entries := by
    have hall : ∀ f ∈ known, f.1 ∈ Media.fieldNames :=
      fun f hf => hknown.subset (List.mem_map_of_mem hf)
    have hkept : (known ++ m.extras.entries).filter (fun f => !decide (f.1 ∈ Media.fieldNames)) =
        m.extras.entries.map id := by
      rw [List.filter_append, List.filter_eq_nil_iff.2 (by simpa using hall),
        List.filter_eq_self.2 fun e he => by simpa using (legible e he).1]
      simp
    have hfilter := filter_of_shown shown fun name => !decide (name ∈ Media.fieldNames)
    refine mapM_of_shown (hkept ▸ hfilter) fun e he t ht => ?_
    simp [(legible e he).2 t.2 ht.2, ht.1]
  have hmedia : ((es.filter fun e => !decide (e.1 ∈ Media.fieldNames)).mapM (fun e =>
      (FreeDocument.extra? e.2).bind fun j => some (e.1, j))).bind (fun extras =>
        some { m with extras := Dict.ofList extras }) = some m := by
    rw [hextras, Option.bind_some, Dict.ofList_entries]
  simpa [Media.read?, hes, henabled, htypes] using And.intro once hmedia

/-- A configuration whose values of any kind are all such. -/
structure Config.Storable (c : Config) : Prop where
  validators : ∀ v ∈ c.validators, v.Storable
  media : ∀ m, c.media = some m → m.Storable

/-- A configuration whose values of any kind can all be read off where they are shown. -/
structure Config.Legible (shows : σ → Json → Prop) (c : Config) : Prop where
  validators : ∀ v ∈ c.validators, v.Legible shows
  media : ∀ m, c.media = some m → m.Legible shows

theorem Config.Storable.legible (faithful : Faithful shows) {c : Config} (storable : c.Storable) :
    c.Legible shows where
  validators v hv := (storable.validators v hv).legible faithful
  media m hm := (storable.media m hm).legible faithful

theorem Config.named_toJson (c : Config) : Named c.toJson.fields Config.fieldNames :=
  named_single "task_type" _
    |>.append (named_textField "version" _)
    |>.append (named_textField "description" _)
    |>.append (named_single "system_template" _)
    |>.append (named_listField "required_vars" _ _)
    |>.append (named_dictField "optional_vars" _ _)
    |>.append (named_listField "variables" _ _)
    |>.append (named_listField "fragments" _ _)
    |>.append (named_dictField "model_overrides" _ _)
    |>.append (named_optionField "template_engine" _ _)
    |>.append (named_listField "allowed_tools" _ _)
    |>.append (named_listField "validators" _ _)
    |>.append (named_optionField "media" _ _)

theorem Config.read?_toJson (faithful : Faithful shows) {c : Config} (legible : c.Legible shows)
    (hs : shows s c.toJson) : Config.read? s = some c := by
  obtain ⟨es, hes, shown⟩ := faithful.record hs c.named_toJson (by decide) Config.fieldNames
  have htask : field? es "task_type" "" text? = some c.taskType :=
    field?_of_written (shown "task_type") fun _ => faithful.text
  have hversion : field? es "version" "" text? = some c.version :=
    faithful.textField (shown "version")
  have hdescription : field? es "description" "" text? = some c.description :=
    faithful.textField (shown "description")
  have htemplate : field? es "system_template" "" text? = some c.template :=
    field?_of_written (shown "system_template") fun _ => faithful.text
  have hrequired : field? es "required_vars" [] texts? = some c.requiredVars :=
    faithful.textsField (shown "required_vars")
  have hoptional : field? es "optional_vars" Dict.empty (dict? text?) = some c.optionalVars :=
    faithful.dictField (f := .string) (shown "optional_vars") fun _ _ _ => faithful.text
  have hdeclared : field? es "variables" [] (list? Variable.read?) = some c.declaredVars :=
    faithful.listField (f := Variable.toJson) (shown "variables") fun _ _ _ =>
      Variable.read?_toJson faithful
  have hfragments : field? es "fragments" [] (list? FragmentRef.read?) = some c.fragments :=
    faithful.listField (f := FragmentRef.toJson) (shown "fragments") fun _ _ _ =>
      FragmentRef.read?_toJson faithful
  have hoverrides : field? es "model_overrides" Dict.empty (dict? ModelOverride.read?) =
      some c.modelOverrides :=
    faithful.dictField (f := ModelOverride.toJson) (shown "model_overrides") fun _ _ _ =>
      ModelOverride.read?_toJson faithful
  have hengine : field? es "template_engine" none (optional? EngineInfo.read?) = some c.engine :=
    faithful.optionField (f := EngineInfo.toJson) (shown "template_engine")
      (by simp [EngineInfo.toJson]) fun _ _ _ => EngineInfo.read?_toJson faithful
  have htools : field? es "allowed_tools" [] texts? = some c.allowedTools :=
    faithful.textsField (shown "allowed_tools")
  have hvalidators : field? es "validators" [] (list? Validator.read?) = some c.validators :=
    faithful.listField (f := Validator.toJson) (shown "validators") fun v hv _ =>
      Validator.read?_toJson faithful (legible.validators v hv)
  have hmedia : field? es "media" none (optional? Media.read?) = some c.media :=
    faithful.optionField (f := Media.toJson) (shown "media") (by simp [Media.toJson])
      fun m hm _ => Media.read?_toJson faithful (legible.media m hm)
  unfold Config.read?
  -- field by field: many nested binds are too much for the simplifier
  refine Option.bind_eq_some_iff.2 ⟨es, hes, ?_⟩
  refine Option.bind_eq_some_iff.2 ⟨_, htask, ?_⟩
  refine Option.bind_eq_some_iff.2 ⟨_, hversion, ?_⟩
  refine Option.bind_eq_some_iff.2 ⟨_, hdescription, ?_⟩
  refine Option.bind_eq_some_iff.2 ⟨_, htemplate, ?_⟩
  refine Option.bind_eq_some_iff.2 ⟨_, hrequired, ?_⟩
  refine Option.bind_eq_some_iff.2 ⟨_, hoptional, ?_⟩
  refine Option.bind_eq_some_iff.2 ⟨_, hdeclared, ?_⟩
  refine Option.bind_eq_some_iff.2 ⟨_, hfragments, ?_⟩
  refine Option.bind_eq_some_iff.2 ⟨_, hoverrides, ?_⟩
  refine Option.bind_eq_some_iff.2 ⟨_, hengine, ?_⟩
  refine Option.bind_eq_some_iff.2 ⟨_, htools, ?_⟩
  refine Option.bind_eq_some_iff.2 ⟨_, hvalidators, ?_⟩
  exact Option.bind_eq_some_iff.2 ⟨_, hmedia, rfl⟩

end PromptAssembly.Prompt
