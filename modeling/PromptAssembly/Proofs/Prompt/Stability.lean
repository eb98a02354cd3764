import PromptAssembly.Proofs.Prompt.Forms
import PromptAssembly.Proofs.Prompt.RoundTrip

/-!
# Documents that settle

A record that was read from a JSON document comes back from what is written of it, and what is
written does not change any more (`json_forms_stable`). On the way the record loses what its form
does not name, which has no part in what is read and is not written, and nothing else. Only the
media settings keep what they do not know (`Config.KeepsExtras`).
-/
namespace PromptAssembly.Prompt
open Document Json

theorem Variable.read?_trim (j : Json) : Variable.read? (Variable.form.trim j) = Variable.read? j :=
  Form.read?_plain j fun es es' h => by simp [needed?, field?, h]

theorem FragmentRef.read?_trim (j : Json) :
    FragmentRef.read? (FragmentRef.form.trim j) = FragmentRef.read? j :=
  Form.read?_plain j fun es es' h => by simp [needed?, field?, h]

theorem Fragment.read?_trim (j : Json) : Fragment.read? (Fragment.form.trim j) = Fragment.read? j :=
  Form.read?_plain j fun es es' h => by simp [field?, h]

theorem ModelOverride.read?_trim (j : Json) :
    ModelOverride.read? (ModelOverride.form.trim j) = ModelOverride.read? j :=
  Form.read?_plain j fun es es' h => by simp [field?, h]

theorem EngineInfo.read?_trim (j : Json) :
    EngineInfo.read? (EngineInfo.form.trim j) = EngineInfo.read? j :=
  Form.read?_plain j fun es es' h => by simp [needed?, field?, h]

theorem Validator.read?_trim (j : Json) :
    Validator.read? (Validator.form.trim j) = Validator.read? j :=
  Form.read?_plain j fun es es' h => by simp [needed?, field?, h]

theorem Config.read?_trim (j : Json) : Config.read? (Config.form.trim j) = Config.read? j :=
  Form.bind_fields_trim j rfl fun es es' h => by
    rw [h.field?_any "task_type" rfl, h.field?_any "version" rfl, h.field?_any "description" rfl,
      h.field?_any "system_template" rfl, h.field?_any "required_vars" rfl,
      h.field?_any "optional_vars" rfl,
      h.field?_eq (Form.list?_trim Variable.read?_trim) "variables" rfl,
      h.field?_eq (Form.list?_trim FragmentRef.read?_trim) "fragments" rfl,
      h.field?_eq (Form.dict?_trim ModelOverride.read?_trim) "model_overrides" rfl,
      h.field?_eq (Form.optional?_trim EngineInfo.read?_trim) "template_engine" rfl,
      h.field?_any "allowed_tools" rfl,
      h.field?_eq (Form.list?_trim Validator.read?_trim) "validators" rfl,
      h.field?_eq (Form.optional?_trim fun j => by rw [Form.trim_keeping]) "media" rfl]

theorem Manifest.readMetadata?_trim (j : Json) :
    readMetadata? ((Form.plain ["name", "labels"]).trim j) = readMetadata? j :=
  Form.read?_plain j fun es es' h => by simp [field?, h]

theorem Manifest.read?_trim (j : Json) : Manifest.read? (Manifest.form.trim j) = Manifest.read? j :=
  Form.bind_fields_trim j rfl fun es es' h => by
    rw [h.field?_eq Manifest.readMetadata?_trim "metadata" rfl, h.field?_any "apiVersion" rfl,
      h.field?_any "kind" rfl, h.field?_eq Config.read?_trim "spec" rfl]

theorem Assembled.read?_trim (j : Json) :
    Assembled.read? (Assembled.form.trim j) = Assembled.read? j :=
  Form.bind_fields_trim j rfl fun es es' h => by
    rw [h.needed?_any "task_type" rfl, h.needed?_any "system_prompt" rfl,
      h.field?_any "allowed_tools" rfl,
      h.field?_eq (Form.list?_trim Validator.read?_trim) "validators" rfl,
      h.needed?_any "content_hash" rfl]

theorem Info.read?_trim (j : Json) : Info.read? (Info.form.trim j) = Info.read? j :=
  Form.read?_plain j fun es es' h => by simp [needed?, h]

theorem Fragment.named_toJson (f : Fragment) : Named f.toJson.fields
    ["fragment_type", "version", "description", "content", "source_file"] :=
  named_textField "fragment_type" _
    |>.append (named_textField "version" _)
    |>.append (named_textField "description" _)
    |>.append (named_single "content" _)
    |>.append (named_optionField "source_file" _ _)

theorem Assembled.named_toJson (a : Assembled) : Named a.toJson.fields
    ["task_type", "system_prompt", "allowed_tools", "validators", "content_hash"] :=
  named_single "task_type" _
    |>.append (named_single "system_prompt" _)
    |>.append (named_listField "allowed_tools" _ _)
    |>.append (named_listField "validators" _ _)
    |>.append (named_single "content_hash" _)

theorem Info.named_toJson (i : Info) : Named i.toJson.fields
    ["task_type", "version", "description", "fragment_count", "required_vars",
      "optional_vars", "tool_allowlist", "model_overrides"] :=
  .refl _

theorem Variable.trim_toJson (v : Variable) : Variable.form.trim v.toJson = v.toJson :=
  Form.trim_plain v.named_toJson

theorem FragmentRef.trim_toJson (r : FragmentRef) : FragmentRef.form.trim r.toJson = r.toJson :=
  Form.trim_plain r.named_toJson

theorem Fragment.trim_toJson (f : Fragment) : Fragment.form.trim f.toJson = f.toJson :=
  Form.trim_plain f.named_toJson

theorem ModelOverride.trim_toJson (o : ModelOverride) :
    ModelOverride.form.trim o.toJson = o.toJson :=
  Form.trim_plain o.named_toJson

theorem EngineInfo.trim_toJson (e : EngineInfo) : EngineInfo.form.trim e.toJson = e.toJson :=
  Form.trim_plain e.named_toJson

theorem Validator.trim_toJson (v : Validator) : Validator.form.trim v.toJson = v.toJson :=
  Form.trim_plain v.named_toJson

theorem Info.trim_toJson (i : Info) : Info.form.trim i.toJson = i.toJson :=
  Form.trim_plain i.named_toJson

theorem Config.trim_toJson (c : Config) : Config.form.trim c.toJson = c.toJson :=
  Form.trim_object (Form.knows_any (named_single "task_type" _) rfl
    |>.append (Form.knows_any (named_textField "version" _) rfl)
    |>.append (Form.knows_any (named_textField "description" _) rfl)
    |>.append (Form.knows_any (named_single "system_template" _) rfl)
    |>.append (Form.knows_any (named_listField "required_vars" _ _) rfl)
    |>.append (Form.knows_any (named_dictField "optional_vars" _ _) rfl)
    |>.append (Form.knows_listField rfl fun v _ => v.trim_toJson)
    |>.append (Form.knows_listField rfl fun r _ => r.trim_toJson)
    |>.append (Form.knows_dictField rfl fun e _ => e.2.trim_toJson)
    |>.append (Form.knows_optionField rfl fun e _ => e.trim_toJson)
    |>.append (Form.knows_any (named_listField "allowed_tools" _ _) rfl)
    |>.append (Form.knows_listField rfl fun v _ => v.trim_toJson)
    |>.append (Form.knows_optionField rfl fun _ _ => Form.trim_keeping _ _))

theorem Manifest.trim_toJson (m : Manifest) : Manifest.form.trim m.toJson = m.toJson := by
  have metadata := Form.trim_plain (named_single "name" (.string m.name)
    |>.append (named_dictField "labels" .string m.labels))
  exact Form.trim_object (Form.knows_any (named_single "apiVersion" _) rfl
    |>.append (Form.knows_any (named_single "kind" _) rfl)
    |>.append (Form.knows_entry rfl metadata)
    |>.append (Form.knows_entry rfl m.spec.trim_toJson))

theorem Assembled.trim_toJson (a : Assembled) : Assembled.form.trim a.toJson = a.toJson :=
  Form.trim_object (Form.knows_any (named_single "task_type" _) rfl
    |>.append (Form.knows_any (named_single "system_prompt" _) rfl)
    |>.append (Form.knows_any (named_listField "allowed_tools" _ _) rfl)
    |>.append (Form.knows_listField rfl fun v _ => v.trim_toJson)
    |>.append (Form.knows_any (named_single "content_hash" _) rfl))

section
variable {σ : Type} [FreeDocument σ] {shows : σ → Json → Prop} {s : σ}

theorem Fragment.read?_toJson (faithful : Faithful shows) {f : Fragment} (hs : shows s f.toJson) :
    Fragment.read? s = some f := by
  obtain ⟨es, hes, shown⟩ := faithful.record hs f.named_toJson (by decide)
    ["fragment_type", "version", "description", "content", "source_file"]
  have hkind : field? es "fragment_type" "" text? = some f.kind :=
    faithful.textField (shown "fragment_type")
  have hversion : field? es "version" "" text? = some f.version :=
    faithful.textField (shown "version")
  have hdescription : field? es "description" "" text? = some f.description :=
    faithful.textField (shown "description")
  have hcontent : field? es "content" "" text? = some f.content :=
    field?_of_written (shown "content") fun _ => faithful.text
  have hsource : field? es "source_file" none (optional? text?) = some f.sourceFile :=
    faithful.textOption (shown "source_file")
  simp [Fragment.read?, hes, hkind, hversion, hdescription, hcontent, hsource]

theorem Assembled.read?_toJson (faithful : Faithful shows) {a : Assembled}
    (legible : ∀ v ∈ a.validators, v.Legible shows) (hs : shows s a.toJson) :
    Assembled.read? s = some a := by
  obtain ⟨es, hes, shown⟩ := faithful.record hs a.named_toJson (by decide)
    ["task_type", "system_prompt", "allowed_tools", "validators", "content_hash"]
  have htask : needed? es "task_type" text? = some a.taskType :=
    needed?_of_shown (shown "task_type") fun _ => faithful.text
  have htext : needed? es "system_prompt" text? = some a.text :=
    needed?_of_shown (shown "system_prompt") fun _ => faithful.text
  have htools : field? es "allowed_tools" [] texts? = some a.allowedTools :=
    faithful.textsField (shown "allowed_tools")
  have hvalidators : field? es "validators" [] (list? Validator.read?) = some a.validators :=
    faithful.listField (f := Validator.toJson) (shown "validators") fun v hv _ =>
      Validator.read?_toJson faithful (legible v hv)
  have hhash : needed? es "content_hash" text? = some a.contentHash :=
    needed?_of_shown (shown "content_hash") (fun _ => faithful.text) (by simp [List.lookup_append])
  simp [Assembled.read?, hes, htask, htext, htools, hvalidators, hhash]

end

theorem faithful_eq : Faithful fun s j : Json => s = j where
  text := by rintro _ _ rfl; rfl
  flag := by rintro _ _ rfl; rfl
  isNull := by
    rintro _ j rfl hj
    simpa [isNull?] using hj
  items := by
    rintro _ items rfl
    exact ⟨items, rfl, List.forall₂_same.2 fun _ _ => rfl⟩
  entries := by
    rintro _ entries rfl
    exact ⟨entries, rfl, List.forall₂_same.2 fun _ _ => ⟨rfl, rfl⟩⟩
  fields := by rintro _ _ _ rfl _; rfl
  value := by rintro _ _ rfl _; rfl
  extra := by rintro _ _ rfl _; rfl

theorem Validator.legible_eq (v : Validator) : v.Legible fun s j : Json => s = j :=
  fun _ _ _ hs => congrArg some hs

theorem Config.legible_eq {c : Config}
    (apart : ∀ m, c.media = some m → ∀ e ∈ m.extras.entries, e.1 ∉ Media.fieldNames) :
    c.Legible fun s j : Json => s = j where
  validators v _ := v.legible_eq
  media m hm e he := ⟨apart m hm e he, fun _ hs => congrArg some hs⟩

theorem read_strings (xs : List String) : texts? (Json.strings xs) = some xs :=
  faithful_eq.read_list rfl fun _ _ _ => faithful_eq.text

theorem Info.read?_toJson (i : Info) : Info.read? i.toJson = some i := by
  simp [Info.read?, Info.toJson, fields?, recordFields?, needed?, read_strings, text?, natural?]

/-- What stands beside the known media settings of one document stands there in the other. -/
def Config.KeepsExtras (j j' : Json) : Prop :=
  ∀ given, child? Config.fieldNames "media" j = some (object given) → (given.map (·.1)).Nodup →
    ∃ kept, child? Config.fieldNames "media" j' = some (object kept) ∧
      ∀ name ∉ Media.fieldNames, kept.lookup name = given.lookup name

theorem Config.extras_of_read? {j : Json} {c : Config} (h : Config.read? j = some c) {m : Media}
    (hm : c.media = some m) : ∀ e ∈ m.extras.entries, e.1 ∉ Media.fieldNames := by
  obtain ⟨s, hs⟩ := Config.media_of_read? h hm
  exact Media.extras_of_read? hs

theorem Config.reread {j : Json} {c : Config} (h : Config.read? j = some c) :
    Config.read? c.toJson = some c :=
  Config.read?_toJson faithful_eq (Config.legible_eq fun _ => Config.extras_of_read? h) rfl

theorem Manifest.reread {j : Json} {m : Manifest} (h : Manifest.read? j = some m) :
    Manifest.read? m.toJson = some m := by
  refine Manifest.read?_toJson faithful_eq (Config.legible_eq fun media hm => ?_) rfl
  rcases Manifest.spec_of_read? h with bare | ⟨spec, hspec⟩
  · simp [bare] at hm
  · exact Config.extras_of_read? hspec hm

theorem Config.child?_media (c : Config) :
    child? Config.fieldNames "media" c.toJson = c.media.map Media.toJson := by
  simp [child?, recordFields?, Config.toJson, List.lookup_append]

theorem Config.keepsExtras {j : Json} {c : Config} (h : Config.read? j = some c) :
    Config.KeepsExtras j c.toJson := by
  intro given hgiven distinct
  rw [Config.child?_media]
  unfold Config.read? at h
  obtain ⟨es, hes, h⟩ := Option.bind_eq_some_iff.1 h
  -- twelve fields stand before the media settings
  iterate 12 obtain ⟨_, -, h⟩ := Option.bind_eq_some_iff.1 h
  obtain ⟨media, hmedia, h⟩ := Option.bind_eq_some_iff.1 h
  obtain rfl := Option.some.inj h
  have hfound : es.lookup "media" = some (object given) := by
    simpa [child?, show recordFields? Config.fieldNames j = some es from hes] using hgiven
  obtain ⟨m, hm, rfl⟩ : ∃ m, Media.read? (object given) = some m ∧ some m = media := by
    simpa [field?, hfound, optional?, isNull?, Option.bind_eq_some_iff] using hmedia
  obtain ⟨_, same, -, -, -, extras⟩ := Media.of_read? hm
  obtain rfl : given = _ := Json.object.inj same
  refine ⟨m.toJson.fields, rfl, fun name other => ?_⟩
  have once : given.countP (·.1 = name) ≤ 1 :=
    countP_le_one (List.forall₂_same.2 fun _ _ => ⟨rfl, rfl⟩) distinct name
  rw [Media.lookup_toJson m other, extras, Media.lookup_extras other, lookup_reverse once]

def Manifest.fieldNames : List String := ["apiVersion", "kind", "metadata", "spec"]

/-- The configuration inside a manifest keeps its extra media settings. -/
def Manifest.KeepsExtras (j j' : Json) : Prop :=
  ∀ spec, child? Manifest.fieldNames "spec" j = some spec →
    ∃ spec', child? Manifest.fieldNames "spec" j' = some spec' ∧ Config.KeepsExtras spec spec'

theorem Manifest.keepsExtras {j : Json} {m : Manifest} (h : Manifest.read? j = some m) :
    Manifest.KeepsExtras j m.toJson := by
  intro spec hspec
  unfold Manifest.read? at h
  obtain ⟨es, hes, h⟩ := Option.bind_eq_some_iff.1 h
  obtain ⟨_, -, h⟩ := Option.bind_eq_some_iff.1 h
  obtain ⟨_, -, h⟩ := Option.bind_eq_some_iff.1 h
  obtain ⟨_, -, h⟩ := Option.bind_eq_some_iff.1 h
  obtain ⟨c, hc, h⟩ := Option.bind_eq_some_iff.1 h
  obtain rfl := Option.some.inj h
  have hfound : es.lookup "spec" = some spec := by
    simpa [child?, show recordFields? Manifest.fieldNames j = some es from hes] using hspec
  have hread : Config.read? spec = some c := by simpa [field?, hfound] using hc
  exact ⟨c.toJson, rfl, Config.keepsExtras hread⟩

/-- What is read comes back from what is written of it, and is written as before. What a form names
arrives, and what it does not name is neither read nor written. -/
structure Stable {α : Type} (form : Form) (read? : Json → Option α) (write : α → Json) : Prop where
  rereads {j : Json} {a : α} : read? j = some a → read? (write a) = some a
  rewrites {j : Json} {a : α} : read? j = some a → (read? (write a)).map write = some (write a)
  conveys {j : Json} {a : α} : read? j = some a → form.Arrives j (write a)
  ignores (j : Json) : read? (form.trim j) = read? j
  drops (a : α) : form.trim (write a) = write a

theorem stable {α : Type} {form : Form} {read? : Json → Option α} {write : α → Json}
    (rereads : ∀ j a, read? j = some a → read? (write a) = some a)
    (conveys : form.Conveys read? write)
    (ignores : ∀ j, read? (form.trim j) = read? j) (drops : ∀ a, form.trim (write a) = write a) :
    Stable form read? write where
  rereads h := rereads _ _ h
  rewrites h := by rw [rereads _ _ h, Option.map_some]
  conveys := conveys
  ignores := ignores
  drops := drops

/-- Every kind of document settles when it is read and written, and the media settings keep what
they do not know. -/
theorem json_forms_stable :
    Stable Fragment.form Fragment.read? Fragment.toJson ∧
    Stable Manifest.form Manifest.read? Manifest.toJson ∧
    Stable Info.form Info.read? Info.toJson ∧
    Stable Assembled.form Assembled.read? Assembled.toJson ∧
    Stable Config.form Config.read? Config.toJson ∧
    (∀ j c, Config.read? j = some c → Config.KeepsExtras j c.toJson) ∧
    ∀ j m, Manifest.read? j = some m → Manifest.KeepsExtras j m.toJson := by
  refine ⟨?fragment, ?manifest, ?info, ?assembled, ?config, fun _ _ => Config.keepsExtras,
    fun _ _ => Manifest.keepsExtras⟩
  case fragment =>
    exact stable (fun _ f _ => f.read?_toJson faithful_eq rfl) Fragment.conveys Fragment.read?_trim
      Fragment.trim_toJson
  case manifest =>
    exact stable (fun _ _ => Manifest.reread) Manifest.conveys Manifest.read?_trim
      Manifest.trim_toJson
  case info =>
    exact stable (fun _ i _ => i.read?_toJson) Info.conveys Info.read?_trim Info.trim_toJson
  case assembled =>
    exact stable (fun _ a _ => a.read?_toJson faithful_eq (fun v _ => v.legible_eq) rfl)
      Assembled.conveys Assembled.read?_trim Assembled.trim_toJson
  case config =>
    exact stable (fun _ _ => Config.reread) Config.conveys Config.read?_trim Config.trim_toJson

/-- One document with a field that is not known and an extra setting that is null. -/
theorem json_forms_stable_media :
    ∃ c : Config,
      Config.read? (object [("note", .int 1), ("media", object [("codec", null)])]) = some c ∧
      Config.read? c.toJson = some c ∧
      Config.toJson c = object [("task_type", .string ""), ("system_template", .string ""),
        ("media", object [("enabled", .bool false), ("codec", null)])] := by
  have read : Config.read? (object [("note", .int 1), ("media", object [("codec", null)])]) =
      some { media := some { extras := Dict.ofList [("codec", null)] } } := rfl
  exact ⟨_, read, json_forms_stable.2.2.2.2.1.rereads read, rfl⟩

end PromptAssembly.Prompt
