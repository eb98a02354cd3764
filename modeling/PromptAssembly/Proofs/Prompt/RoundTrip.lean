import PromptAssembly.Proofs.Prompt.Storing

/-!
# What comes back of a manifest

Whatever text a configuration was read from, it has a task type, and none of its extra media
settings has the name of a known one. These are the only conditions on a configuration that is to
come back from the text of its own manifest (`Config.parse_print_eq_ok_iff`): empty lists and maps,
absent options and values of any kind come back as they are.
-/
namespace PromptAssembly.Prompt
open Document
variable {σ α : Type} [FreeDocument σ] {s : σ} {c : Config}

omit [FreeDocument σ] in
theorem eq_default_or_exists_of_field? {es : List (String × σ)} {name : String} {default a : α}
    {read : σ → Option α} (h : field? es name default read = some a) :
    a = default ∨ ∃ s, read s = some a := by
  unfold field? at h
  split at h
  · exact .inl (Option.some.inj h).symm
  · next s _ => exact .inr ⟨s, h⟩

theorem exists_of_mem_mapM {ρ τ : Type} {read : ρ → Option τ} {xs : List ρ} {ys : List τ}
    (h : xs.mapM read = some ys) : ∀ y ∈ ys, ∃ x ∈ xs, read x = some y := by
  have all := forall₂_of_mapM h
  clear h
  induction all with
  | nil => simp
  | cons hx _ ih =>
    intro z hz
    rcases List.mem_cons.1 hz with rfl | hz
    · exact ⟨_, List.mem_cons_self, hx⟩
    · obtain ⟨x', hx', hread⟩ := ih z hz
      exact ⟨x', List.mem_cons_of_mem _ hx', hread⟩

/-- Extra settings are what is left when the known ones have been taken. -/
theorem Media.extras_of_read? {m : Media} (h : Media.read? s = some m) :
    ∀ e ∈ m.extras.entries, e.1 ∉ Media.fieldNames := by
  unfold Media.read? at h
  obtain ⟨es, -, h⟩ := Option.bind_eq_some_iff.1 h
  split at h
  · cases h
  obtain ⟨enabled, -, h⟩ := Option.bind_eq_some_iff.1 h
  obtain ⟨types, -, h⟩ := Option.bind_eq_some_iff.1 h
  obtain ⟨extras, hextras, h⟩ := Option.bind_eq_some_iff.1 h
  obtain rfl := Option.some.inj h
  intro e he
  have hkey : e.1 ∈ (Dict.ofList extras).keys := List.mem_map_of_mem he
  obtain ⟨x, hx, hname⟩ := Dict.mem_keys_ofList.1 hkey
  obtain ⟨y, hy, hread⟩ := exists_of_mem_mapM hextras x hx
  obtain ⟨j, -, hj⟩ := Option.bind_eq_some_iff.1 hread
  obtain rfl := Option.some.inj hj
  simpa [← hname] using (List.mem_filter.1 hy).2

theorem Config.media_of_read? (h : Config.read? s = some c) {m : Media} (hm : c.media = some m) :
    ∃ s : σ, Media.read? s = some m := by
  unfold Config.read? at h
  obtain ⟨es, -, h⟩ := Option.bind_eq_some_iff.1 h
  -- twelve fields stand before the media settings
  iterate 12 obtain ⟨_, -, h⟩ := Option.bind_eq_some_iff.1 h
  obtain ⟨media, hmedia, h⟩ := Option.bind_eq_some_iff.1 h
  obtain rfl := Option.some.inj h
  obtain rfl : media = some m := hm
  rcases eq_default_or_exists_of_field? hmedia with absent | ⟨s, hs⟩
  · cases absent
  · refine ⟨s, ?_⟩
    obtain ⟨null, -, hs⟩ := Option.bind_eq_some_iff.1 hs
    cases null with
    | true => cases hs
    | false =>
      obtain ⟨m', hm', hs⟩ := Option.bind_eq_some_iff.1 hs
      obtain rfl := Option.some.inj (Option.some.inj hs)
      exact hm'

theorem Manifest.spec_of_read? {m : Manifest} (h : Manifest.read? s = some m) :
    m.spec = {} ∨ ∃ s : σ, Config.read? s = some m.spec := by
  unfold Manifest.read? at h
  obtain ⟨es, -, h⟩ := Option.bind_eq_some_iff.1 h
  obtain ⟨⟨name, labels⟩, -, h⟩ := Option.bind_eq_some_iff.1 h
  obtain ⟨version, -, h⟩ := Option.bind_eq_some_iff.1 h
  obtain ⟨kind, -, h⟩ := Option.bind_eq_some_iff.1 h
  obtain ⟨spec, hspec, h⟩ := Option.bind_eq_some_iff.1 h
  obtain rfl := Option.some.inj h
  exact eq_default_or_exists_of_field? hspec

theorem Config.extras_of_parse {text : String} (h : Config.parse text = .ok c) {m : Media}
    (hm : c.media = some m) : ∀ e ∈ m.extras.entries, e.1 ∉ Media.fieldNames := by
  obtain ⟨-, n, manifest, hread, rfl⟩ := Config.exists_of_parse h
  rcases Manifest.spec_of_read? hread with bare | ⟨spec, hspec⟩
  · simp [bare] at hm
  · obtain ⟨media, hmedia⟩ := Config.media_of_read? hspec hm
    exact Media.extras_of_read? hmedia

/-- Values of any kind hold their entries in the order of the keys, as sorted maps do. -/
structure Config.Ordered (c : Config) : Prop where
  params : ∀ v ∈ c.validators, ∀ e ∈ v.params.entries, e.2.isSorted = true
  extras : ∀ m, c.media = some m → ∀ e ∈ m.extras.entries, e.2.isSorted = true

/-- A configuration comes back from its manifest, field for field, exactly if it has a task type and
its extra media settings leave the names of the known ones alone. -/
theorem Config.parse_print_eq_ok_iff (ordered : c.Ordered)
    (readsBack : Yaml.ReadsBack (Manifest.ofConfig c).toJson) :
    Config.parse c.print = .ok c ↔ c.taskType ≠ "" ∧
      ∀ m, c.media = some m → ∀ e ∈ m.extras.entries, e.1 ∉ ["enabled", "supported_types"] := by
  constructor
  · intro h
    exact ⟨(Config.exists_of_parse h).1, fun m hm => Config.extras_of_parse h hm⟩
  · rintro ⟨named, apart⟩
    have storable : c.Storable :=
      ⟨ordered.params, fun m hm e he => ⟨apart m hm e he, ordered.extras m hm e he⟩⟩
    have lasting : c.Lasting := ⟨storable, readsBack⟩
    exact lasting.parse_print named

/-- Values of any kind, nested and null, beside fields that are empty and left out. -/
theorem Config.parse_print_nested :
    let c : Config := {
      taskType := "t"
      validators := [{ kind := "v", params := Dict.ofList [("p", .object [("q", .null)])] }]
      media := some { extras := Dict.ofList [("x", .null)] } }
    Config.parse c.print = .ok c := by
  intro c
  have media : ∀ m, c.media = some m → m = { extras := Dict.ofList [("x", .null)] } :=
    fun m hm => (Option.some.inj hm).symm
  have ordered : c.Ordered := by
    constructor
    · intro v hv
      obtain rfl := List.mem_singleton.1 hv
      decide
    · intro m hm
      rw [media m hm]
      decide
  have readsBack : Yaml.ReadsBack (Manifest.ofConfig c).toJson := by decide +kernel
  refine (Config.parse_print_eq_ok_iff ordered readsBack).2 ⟨by decide, fun m hm => ?_⟩
  rw [media m hm]
  decide

end PromptAssembly.Prompt
