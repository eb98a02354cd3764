import PromptAssembly.Proofs.Settings.Precedence
import PromptAssembly.Proofs.Settings.Respelling

/-!
# Settings from variables

The environment lies over all files, so a variable that stands for a setting decides it
(`setting?_arranged`). A text arrives as the environment respells it, whatever the files say
(`variable_respelled`); with no other variable of the program, loading never fails for its sake.
-/
namespace PromptAssembly.Settings
open Document (optional? isNull?)
open Files (Path)
open Text (lower integer? isDigit isInt64 IsPlainNumeral)

def namesOf? : List Step → Option (List String)
  | [.entry name] => some [lower name]
  | .entry name :: steps => (namesOf? steps).map (name :: ·)
  | _ => none

/-- The place of the setting that a variable stands for. -/
def variableNames? (name : String) : Option (List String) :=
  (settingName? name).bind fun key => namesOf? (place key)

def givenBy (name value : String) : List Given :=
  match settingName? name with
  | some key => givenAt (Value.ofText value) (place key)
  | none => []

theorem given_of_content? {j : Json} (flat : content? j = some j) : given j = [⟨[], j⟩] := by
  cases j with
  | object es => cases flat
  | _ => rfl

theorem givenAt_of_namesOf? {j : Json} (flat : content? j = some j) :
    ∀ {steps : List Step} {names : List String}, namesOf? steps = some names →
      givenAt j steps = [⟨names, j⟩]
  | [.entry name], names, h => by
    obtain rfl := Option.some.inj h
    rw [givenAt, given_of_content? flat]
    rfl
  | .entry name :: step :: steps, names, h => by
    obtain ⟨rest, hrest, rfl⟩ := Option.map_eq_some_iff.1 h
    rw [givenAt, givenAt_of_namesOf? flat hrest]
    · rfl
    · simp

theorem given_ofEnvironment (vars : Dict String) :
    (ofEnvironment vars).given = vars.entries.flatMap fun e => givenBy e.1 e.2 := by
  rw [ofEnvironment]
  induction vars.entries with
  | nil => rfl
  | cons e es ih =>
    rw [List.flatMap_cons, ← ih, givenBy]
    cases h : settingName? e.1 with
    | none => simp [h]
    | some key => simp [h, Table.given_cons]

theorem exists_split {vars : Dict String} {name s : String} (set : vars.get? name = some s) :
    ∃ before after, vars.entries = before ++ (name, s) :: after ∧
      ∀ e ∈ before ++ after, vars.get? e.1 = some e.2 ∧ e.1 ≠ name := by
  obtain ⟨before, after, split⟩ := List.append_of_mem (Dict.mem_of_get? set)
  have sorted := vars.sorted
  rw [split] at sorted
  obtain ⟨-, later, earlier⟩ := List.pairwise_append.1 sorted
  refine ⟨before, after, split, fun e he => ⟨Dict.mem_entries_iff.1 ?_, ?_⟩⟩
  · rw [split]
    exact List.mem_append.2 ((List.mem_append.1 he).imp_right (List.mem_cons_of_mem _))
  · rcases List.mem_append.1 he with he | he
    · exact String.ne_of_lt (earlier e he _ List.mem_cons_self)
    · exact (String.ne_of_lt ((List.pairwise_cons.1 later).1 e he)).symm

/-- A variable that no other of the environment interferes with, in whatever order they come. -/
theorem setting?_arranged {vars : Dict String} {name s : String} {names : List String}
    (set : vars.get? name = some s) (path : variableNames? name = some names)
    (alone : ∀ other t, vars.get? other = some t → other ≠ name →
      ∀ g ∈ givenBy other t, ¬ g.Concerns names) (r : Reader) :
    (r.arrange .environment (ofEnvironment vars)).setting? names = some (Value.ofText s) := by
  obtain ⟨key, hkey, hnames⟩ := Option.bind_eq_some_iff.1 path
  have here : givenBy name s = [⟨names, Value.ofText s⟩] := by
    rw [givenBy, hkey]
    exact givenAt_of_namesOf? (content?_ofText s) hnames
  have only : ∀ g ∈ (ofEnvironment vars).given, g.Concerns names →
      g = ⟨names, Value.ofText s⟩ := by
    intro g hg concerns
    rw [given_ofEnvironment] at hg
    obtain ⟨e, he, hg⟩ := List.mem_flatMap.1 hg
    have set' := Dict.mem_entries_iff.1 he
    by_cases same : e.1 = name
    · have value : e.2 = s := by
        rw [same, set] at set'
        exact (Option.some.inj set').symm
      rw [same, value, here] at hg
      exact List.mem_singleton.1 hg
    · exact absurd concerns (alone e.1 e.2 set' same g hg)
  have there : ⟨names, Value.ofText s⟩ ∈ (ofEnvironment vars).given := by
    rw [given_ofEnvironment]
    exact List.mem_flatMap.2 ⟨(name, s), Dict.mem_of_get? set, here ▸ List.mem_singleton_self _⟩
  have concerns : Given.Concerns ⟨names, Value.ofText s⟩ names :=
    .inr ⟨List.prefix_rfl, by simp [content?_ofText]⟩
  rw [(r.rearranged .environment _).setting?_eq fun g hg h hh cg ch =>
      (only g hg cg).trans (only h hh ch).symm,
    Table.setting?, outcome_of_agree there concerns only]
  simp [Given.apply, content?_ofText]

def Leaf.ofText? {α : Type} : Leaf α → Option (String → α)
  | promptsDir | fragmentsDir | logFile | mapping _ | logModule _ => some some
  | logLevel | logFormat | logOutput => some id
  | maxDepth | strict | logEnabled | logColor => none

section
variable {α : Type} {ℓ : Leaf α} {value : String → α} {s t : String}

theorem Leaf.read?_ofText (text : ℓ.ofText? = some value) (h : Respelled s t) :
    ℓ.read? ⟨Value.ofText s⟩ = some (value t) := by
  have shown := respelled_iff.1 h
  have there : Value.ofText s ≠ .null := fun null => by simp [null, Value.text?] at shown
  cases ℓ with
  | promptsDir | fragmentsDir | logFile =>
    obtain rfl := Option.some.inj text
    simp [read?, optional?, Document.text?, isNull?, shown, there]
  | mapping _ | logModule _ | logLevel | logFormat | logOutput =>
    obtain rfl := Option.some.inj text
    simp [read?, Document.text?, shown]
  | maxDepth | strict | logEnabled | logColor => cases text

theorem namesOf?_cons {steps : List Step} {a b : String} {names : List String}
    (h : namesOf? steps = some (a :: b :: names)) :
    ∃ rest, steps = .entry a :: rest ∧ namesOf? rest = some (b :: names) := by
  match steps with
  | [.entry _] => cases h
  | .entry name :: step :: steps =>
    obtain ⟨rest, hrest, h⟩ := Option.map_eq_some_iff.1 h
    obtain ⟨rfl, rfl⟩ := List.cons.inj h
    exact ⟨step :: steps, rfl, hrest⟩

theorem namesOf?_ne_nil : ∀ steps, namesOf? steps ≠ some []
  | [.entry _] => nofun
  | .entry name :: step :: steps => by simp [namesOf?]
  | [] => nofun
  | .item _ :: _ => nofun

theorem namesOf?_singleton {steps : List Step} {a : String} (h : namesOf? steps = some [a]) :
    ∃ name, steps = [.entry name] ∧ lower name = a := by
  match steps with
  | [.entry name] => exact ⟨name, rfl, by simpa [namesOf?] using h⟩
  | .entry name :: step :: steps =>
    obtain ⟨rest, hrest, h⟩ := Option.map_eq_some_iff.1 h
    obtain ⟨-, rfl⟩ := List.cons.inj h
    exact absurd hrest (namesOf?_ne_nil _)

def builtInWith (part : String) (es : Table) : Json :=
  .object [("render", .object [("max_depth", .int 64), ("strict", .bool false)]),
    (part, .object es)]

theorem set_of_content? {j : Json} (flat : content? j = some j) (t : Table) (name : String) :
    t.set name j = t.put name j := by
  cases j with
  | object es => cases flat
  | _ => rfl

theorem setAt_section {j : Json} (flat : content? j = some j) {part key name : String}
    (other : part ≠ "render") (h : lower key = name) :
    setAt j [.entry part, .entry key] builtIn = builtInWith part [(name, j)] := by
  simp [builtIn_eq, builtInWith, setAt, tableOf, Table.put, Ne.symm other, other,
    set_of_content? flat, h]

theorem setAt_dictionary {j : Json} (flat : content? j = some j) {part dict key name : String}
    (other : part ≠ "render") (h : lower key = name) :
    setAt j [.entry part, .entry dict, .entry key] builtIn =
      builtInWith part [(dict, .object [(name, j)])] := by
  simp [builtIn_eq, builtInWith, setAt, tableOf, Table.put, Ne.symm other, other,
    set_of_content? flat, h]

theorem fields?_object (names : List String) (es : Table) :
    Document.fields? names (⟨.object es⟩ : Value) = some (wrap es) := rfl

theorem field?_wrap {β : Type} (es : Table) (name : String) (default : β)
    (read : Value → Option β) :
    Document.field? (wrap es) name default read =
      ((es.lookup name).map fun j => read ⟨j⟩).getD (some default) := by
  rw [Document.field?, lookup_wrap]
  cases es.lookup name <;> rfl

theorem read?_render : RenderSettings.read?
    (⟨.object [("max_depth", .int 64), ("strict", .bool false)]⟩ : Value) = some {} := rfl

theorem read?_repository {es : Table} {r : RepositorySettings}
    (h : RepositorySettings.read? (⟨.object es⟩ : Value) = some r) :
    read? (Value.mk (builtInWith "repository" es)) = some { repository := r } := by
  simp [read?, builtInWith, fields?_object, field?_wrap, List.lookup_cons, h, read?_render]

theorem read?_logging {es : Table} {l : Logging}
    (h : Logging.read? (⟨.object es⟩ : Value) = some l) :
    read? (Value.mk (builtInWith "logging" es)) = some { logging := l } := by
  simp [read?, builtInWith, fields?_object, field?_wrap, List.lookup_cons, h, read?_render]

section
variable {j : Json} {t : String} (shown : Value.text? j = some t)
include shown

theorem text?_of_shown : Document.text? (⟨j⟩ : Value) = some t := shown

theorem optional?_of_shown : optional? Document.text? (⟨j⟩ : Value) = some (some t) := by
  have there : j ≠ .null := fun null => by simp [null, Value.text?] at shown
  simp [optional?, isNull?, Document.text?, shown, there]

theorem dict?_of_shown (name : String) :
    Document.dict? Document.text? (⟨.object [(name, j)]⟩ : Value) =
      some (Dict.ofList [(name, t)]) := by
  simp [Document.dict?, Document.pairs?, Document.entries?, Document.text?, shown]

end

theorem exists_read? (text : ℓ.ofText? = some value) {steps : List Step}
    (path : namesOf? steps = some ℓ.names) (s : String) : ∃ st,
      read? (Value.mk (setAt (Value.ofText s) steps builtIn)) = some st ∧ st.render = {} := by
  have flat := content?_ofText s
  obtain ⟨t, ht⟩ := exists_respelled s
  have shown := respelled_iff.1 ht
  have one := text?_of_shown shown
  have option := optional?_of_shown shown
  have dict := dict?_of_shown shown
  have single {part name : String} (other : part ≠ "render")
      (path : namesOf? steps = some [part, name]) :
      setAt (Value.ofText s) steps builtIn = builtInWith part [(name, Value.ofText s)] := by
    obtain ⟨_, rfl, rest⟩ := namesOf?_cons path
    obtain ⟨key, rfl, hkey⟩ := namesOf?_singleton rest
    exact setAt_section flat other hkey
  have entry {part dict name : String} (other : part ≠ "render")
      (path : namesOf? steps = some [part, dict, name]) :
      setAt (Value.ofText s) steps builtIn =
        builtInWith part [(dict, .object [(name, Value.ofText s)])] := by
    obtain ⟨_, rfl, rest⟩ := namesOf?_cons path
    obtain ⟨_, rfl, last⟩ := namesOf?_cons rest
    obtain ⟨key, rfl, hkey⟩ := namesOf?_singleton last
    exact setAt_dictionary flat other hkey
  cases ℓ with
  | promptsDir =>
    rw [single (by decide) path]
    refine ⟨_, read?_repository (r := { promptsDir := some t }) ?_, rfl⟩
    simp [RepositorySettings.read?, fields?_object, field?_wrap, List.lookup_cons, option]
  | fragmentsDir =>
    rw [single (by decide) path]
    refine ⟨_, read?_repository (r := { fragmentsDir := some t }) ?_, rfl⟩
    simp [RepositorySettings.read?, fields?_object, field?_wrap, List.lookup_cons, option]
  | mapping task =>
    rw [entry (by decide) path]
    refine ⟨_, read?_repository (r := { mappings := Dict.ofList [(task, t)] }) ?_, rfl⟩
    simp [RepositorySettings.read?, fields?_object, field?_wrap, List.lookup_cons, dict]
  | logLevel =>
    rw [single (by decide) path]
    refine ⟨_, read?_logging (l := { level := t }) ?_, rfl⟩
    simp [Logging.read?, fields?_object, field?_wrap, List.lookup_cons, one]
  | logFormat =>
    rw [single (by decide) path]
    refine ⟨_, read?_logging (l := { format := t }) ?_, rfl⟩
    simp [Logging.read?, fields?_object, field?_wrap, List.lookup_cons, one]
  | logOutput =>
    rw [single (by decide) path]
    refine ⟨_, read?_logging (l := { output := t }) ?_, rfl⟩
    simp [Logging.read?, fields?_object, field?_wrap, List.lookup_cons, one]
  | logFile =>
    rw [single (by decide) path]
    refine ⟨_, read?_logging (l := { file := some t }) ?_, rfl⟩
    simp [Logging.read?, fields?_object, field?_wrap, List.lookup_cons, option]
  | logModule target =>
    rw [entry (by decide) path]
    refine ⟨_, read?_logging (l := { modules := Dict.ofList [(target, t)] }) ?_, rfl⟩
    simp [Logging.read?, fields?_object, field?_wrap, List.lookup_cons, dict]
  | maxDepth | strict | logEnabled | logColor => cases text

theorem loadWithout_eq_ok {r : Reader} {vars : Dict String} {f : Files} {explicit : Option Path}
    {st : Settings} (h : loadWithout vars f explicit r = .ok st) :
    ∃ own, explicit.mapM (explicitTable r f) = .ok own ∧
      compose [r.arrange .explicitFile (own.getD []),
        r.arrange .environment (ofEnvironment vars)] = .ok st := by
  obtain ⟨-, -, h⟩ := bind_eq_ok h
  obtain ⟨own, hown, h⟩ := bind_eq_ok h
  exact ⟨own, hown, h⟩

/-- If a variable stands alone, the environment gives one setting. -/
theorem ofEnvironment_alone {vars : Dict String} {name key : String} (set : vars.get? name = some s)
    (hkey : settingName? name = some key)
    (alone : ∀ other t, vars.get? other = some t → other ≠ name → settingName? other = none) :
    ofEnvironment vars = [(key, Value.ofText s)] := by
  obtain ⟨before, after, split, others⟩ := exists_split set
  have silent : ∀ e ∈ before ++ after, settingName? e.1 = none := fun e he =>
    alone e.1 e.2 (others e he).1 (others e he).2
  have none (es : List (String × String)) (h : ∀ e ∈ es, settingName? e.1 = none) :
      es.filterMap (fun e => (settingName? e.1).map (·, Value.ofText e.2)) = [] :=
    List.filterMap_eq_nil_iff.2 fun e he => by rw [h e he, Option.map_none]
  obtain ⟨hbefore, hafter⟩ := List.forall_mem_append.1 silent
  rw [ofEnvironment, split, List.filterMap_append, none before hbefore, List.nil_append,
    List.filterMap_cons_some (b := (key, Value.ofText s)) (by simp [hkey]),
    none after hafter]

theorem compose_of_read? {sources : List Table} {st : Settings}
    (h : read? (Value.mk (sources.foldl overlay builtIn)) = some st) (depth : st.render = {}) :
    compose sources = .ok st := by
  rw [compose, h]
  exact if_neg (by rw [depth]; decide)

theorem overlay_nil (tree : Json) : overlay tree [] = tree := rfl

theorem overlay_singleton (tree : Json) (key : String) (j : Json) :
    overlay tree [(key, j)] = setAt j (place key) tree := rfl

theorem Reader.arrange_nil (r : Reader) (source : Source) : r.arrange source [] = [] :=
  (r.rearranged source []).eq_nil_iff.1 rfl

theorem loadWithout_none (vars : Dict String) (f : Files) (r : Reader) :
    loadWithout vars f none r =
      compose [[], r.arrange .environment (ofEnvironment vars)] := by
  rw [← r.arrange_nil .explicitFile]
  rfl

theorem load_none {r : Reader} {e : Environment} {f : Files} (h : globalTable r e f = .ok []) :
    load e f none r = compose [[], [], r.arrange .environment (ofEnvironment e.vars)] := by
  have composed : load e f none r = compose [r.arrange .globalFile [], r.arrange .explicitFile [],
      r.arrange .environment (ofEnvironment e.vars)] := by
    rw [load, h]
    rfl
  rw [composed, r.arrange_nil, r.arrange_nil]

/-- A variable for a text, if no other has a say in it, decides the setting, and by itself it never
makes loading fail. The text is respelled: a whole number keeps its spelling only if that is the
plain one, and what starts as no number does is left as it is, but for a few words. -/
theorem variable_respelled {vars : Dict String} {name : String}
    (text : ℓ.ofText? = some value) (path : variableNames? name = some ℓ.names)
    (set : vars.get? name = some s)
    (alone : ∀ other t, vars.get? other = some t → other ≠ name →
      ∀ g ∈ givenBy other t, ¬ g.Concerns ℓ.names) :
    (∃ t, (∀ u, Respelled s u ↔ u = t) ∧
      (∀ e f explicit r st, e.vars = vars → load e f explicit r = .ok st → ℓ.get st = value t) ∧
      ∀ f explicit r st, loadWithout vars f explicit r = .ok st → ℓ.get st = value t) ∧
    ((∀ other t, vars.get? other = some t → other ≠ name → settingName? other = none) →
      (∀ f r, ∃ st, loadWithout vars f none r = .ok st) ∧
      ∀ e f r, e.vars = vars → globalTable r e f = .ok [] → ∃ st, load e f none r = .ok st) ∧
    (∀ n, integer? s.toList = some n → isInt64 n → (Respelled s s ↔ IsPlainNumeral s.toList)) ∧
    ∀ c cs, s.toList = c :: cs → isDigit c = false → c ∉ ['+', '-', '.'] → ¬ IsFlag s →
      String.ofList (s.toList.map Char.toLower) ∉ ["inf", "infinity", "nan"] → Respelled s s := by
  refine ⟨?value, fun silent => ?loads, fun n => verbatim_iff_of_integer,
    fun c cs => verbatim_of_head⟩
  case value =>
    have given := setting?_arranged set path alone
    obtain ⟨t, ht⟩ := exists_respelled s
    have hread := ℓ.read?_ofText text ht
    refine ⟨t, fun u => ?_, fun e f explicit r st he h => ?_, fun f explicit r st h => ?_⟩
    · rw [respelled_iff, respelled_iff.1 ht, Option.some.injEq, eq_comm]
    · obtain ⟨globals, own, -, -, composed⟩ := load_eq_ok h
      have last := (ℓ.prevails composed).last [_, _] _ [] _ rfl (by rw [he, given]) nofun
      exact Option.some.inj (last.symm.trans hread)
    · obtain ⟨own, -, composed⟩ := loadWithout_eq_ok h
      have last := (ℓ.prevails composed).last [_] _ [] _ rfl (given r) nofun
      exact Option.some.inj (last.symm.trans hread)
  case loads =>
    obtain ⟨key, hkey, hnames⟩ := Option.bind_eq_some_iff.1 path
    have only (r : Reader) :
        r.arrange .environment (ofEnvironment vars) = [(key, Value.ofText s)] := by
      have rearranged := r.rearranged .environment (ofEnvironment vars)
      rw [ofEnvironment_alone set hkey silent] at rearranged ⊢
      exact rearranged.eq_singleton (by simp [content?_ofText])
    obtain ⟨st, hst, depth⟩ := exists_read? text hnames s
    refine ⟨fun f r => ⟨st, ?_⟩, fun e f r he hglobals => ⟨st, ?_⟩⟩
    · rw [loadWithout_none, only]
      refine compose_of_read? ?_ depth
      rw [List.foldl_cons, List.foldl_cons, List.foldl_nil, overlay_nil, overlay_singleton, hst]
    · rw [load_none hglobals, he, only]
      refine compose_of_read? ?_ depth
      rw [List.foldl_cons, List.foldl_cons, List.foldl_cons, List.foldl_nil, overlay_nil,
        overlay_nil, overlay_singleton, hst]

end

/-- The name of a manifest, which no number starts like. -/
theorem variable_respelled_mapping :
    let vars : Dict String :=
      Dict.ofList [("HOME", "/h"), ("promptloom__Repository__Mappings__B", "b.yaml")]
    ∃ st, loadWithout vars {} none = .ok st ∧ st.repository.mappings.get? "b" = some "b.yaml" := by
  intro vars
  let name := "promptloom__Repository__Mappings__B"
  have text : (Leaf.mapping "b").ofText? = some some := rfl
  have path : variableNames? name = some (Leaf.mapping "b").names := by decide +kernel
  have set : vars.get? name = some "b.yaml" := by decide +kernel
  have alone : ∀ other t, vars.get? other = some t → other ≠ name →
      settingName? other = none := by
    intro other t h hne
    have entries : vars.entries = [("HOME", "/h"), (name, "b.yaml")] := by decide +kernel
    have member := entries ▸ Dict.mem_of_get? h
    rcases List.mem_cons.1 member with first | second
    · obtain ⟨rfl, -⟩ := Prod.mk.inj first
      decide +kernel
    · exact absurd (Prod.mk.inj (List.mem_singleton.1 second)).1 hne
  obtain ⟨⟨t, spelled, -, value⟩, loads, -, plain⟩ :=
    variable_respelled text path set fun other t h hne g hg => by
      rw [givenBy, alone other t h hne] at hg
      cases hg
  have same : "b.yaml" = t := (spelled "b.yaml").1
    (plain 'b' ".yaml".toList (by decide) (by decide) (by decide)
      (not_or.2 ⟨by decide +kernel, by decide +kernel⟩) (by decide +kernel))
  obtain ⟨st, hst⟩ := (loads alone).1 {} {}
  exact ⟨st, hst, same ▸ value {} none {} st hst⟩

/-- A name of digits is taken for a number. -/
theorem leading_zeros_lost : ¬ ∀ s : String, ∃ st,
    loadWithout (Dict.ofList [("PROMPTLOOM__REPOSITORY__PROMPTS_DIR", s)]) {} none = .ok st ∧
      st.repository.promptsDir = some s := by
  intro h
  obtain ⟨st, hst, verbatim⟩ := h "007"
  have loaded : loadWithout (Dict.ofList [("PROMPTLOOM__REPOSITORY__PROMPTS_DIR", "007")]) {} none =
      .ok { repository := { promptsDir := some "7" } } := by decide +kernel
  obtain rfl := Except.ok.inj (loaded.symm.trans hst)
  exact absurd (Option.some.inj verbatim) (by decide)

end PromptAssembly.Settings
