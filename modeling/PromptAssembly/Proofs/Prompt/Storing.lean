import PromptAssembly.Prompt.Manifest
import PromptAssembly.Proofs.Prompt.Reading
import PromptAssembly.Proofs.Yaml.Spelling

/-!
# Storing a configuration

The manifest of a configuration is read back like its records, and its header is in order. So the
text that a configuration is stored as gives the configuration again (`Config.Lasting.parse_print`),
given that YAML gives the values again that it was written from.
-/
namespace PromptAssembly.Prompt
open Document Json
variable {σ : Type} [FreeDocument σ] {shows : σ → Json → Prop} {s : σ}

theorem Manifest.readMetadata?_written (faithful : Faithful shows) {name : String}
    {labels : Dict String}
    (hs : shows s (.object ([("name", .string name)] ++ dictField "labels" .string labels))) :
    readMetadata? s = some (name, labels) := by
  obtain ⟨es, hes, shown⟩ := faithful.record hs (named_single "name" _
      |>.append (named_dictField "labels" _ _)) (by decide) ["name", "labels"]
  have hname : field? es "name" "" text? = some name :=
    field?_of_written (shown "name") fun _ => faithful.text
  have hlabels : field? es "labels" Dict.empty (dict? text?) = some labels :=
    faithful.dictField (f := .string) (shown "labels") fun _ _ _ => faithful.text
  simp [readMetadata?, hes, hname, hlabels]

theorem Manifest.read?_toJson (faithful : Faithful shows) {m : Manifest}
    (legible : m.spec.Legible shows) (hs : shows s m.toJson) : Manifest.read? s = some m := by
  obtain ⟨es, hes, shown⟩ := faithful.record hs
    (by exact List.Sublist.refl ["apiVersion", "kind", "metadata", "spec"]) (by decide)
    ["apiVersion", "kind", "metadata", "spec"]
  have hversion : field? es "apiVersion" "" text? = some m.apiVersion :=
    field?_of_written (shown "apiVersion") fun _ => faithful.text
  have hkind : field? es "kind" "" text? = some m.kind :=
    field?_of_written (shown "kind") fun _ => faithful.text
  have hmetadata : field? es "metadata" ("", Dict.empty) readMetadata? = some (m.name, m.labels) :=
    field?_of_written (shown "metadata") fun _ => readMetadata?_written faithful
  have hspec : field? es "spec" {} Config.read? = some m.spec :=
    field?_of_written (shown "spec") fun _ => Config.read?_toJson faithful legible
  simp [Manifest.read?, hes, hversion, hkind, hmetadata, hspec]

/-- The configuration of a text is the spec of a manifest, and has a task type. -/
theorem Config.exists_of_parse {c : Config} {text : String} (h : Config.parse text = .ok c) :
    c.taskType ≠ "" ∧ ∃ (n : Yaml.Node) (m : Manifest), Manifest.read? n = some m ∧ m.spec = c := by
  unfold Config.parse at h
  split at h
  · next m hread =>
    obtain ⟨n, -, hread⟩ := Option.bind_eq_some_iff.1 hread
    unfold Manifest.config at h
    split_ifs at h with _ _ _ hne
    obtain rfl := Except.ok.inj h
    exact ⟨by simpa using hne, n, m, hread, rfl⟩
  · cases h

/-- What is stored of a configuration is all of it: its values of any kind are sorted, and the text
of its manifest is read as the tree that it was written from. -/
structure Config.Lasting (c : Config) : Prop extends c.Storable where
  readsBack : Yaml.ReadsBack (Manifest.ofConfig c).toJson

theorem Config.Lasting.parse_print {c : Config} (lasting : c.Lasting) (named : c.taskType ≠ "") :
    Config.parse c.print = .ok c := by
  obtain ⟨n, hn, spelled⟩ := (Option.any_eq_true _ _).1 lasting.readsBack
  have hread : Manifest.read? n = some (Manifest.ofConfig c) :=
    Manifest.read?_toJson Yaml.Node.faithful_spells
      (lasting.toStorable.legible Yaml.Node.faithful_spells) spelled
  have hconfig : (Manifest.ofConfig c).config = .ok c := by
    simp [Manifest.config, Manifest.ofConfig, Manifest.standardVersion, named]
  unfold Config.parse Config.print
  rw [hn, Option.bind_some, hread]
  exact hconfig

end PromptAssembly.Prompt
