import PromptAssembly.CommandLine
import PromptAssembly.Proofs.Settings.Leaves
import PromptAssembly.Proofs.Settings.Orders

/-!
# Precedence of sources

Each setting comes from the last source that has a say in it, and is the built-in one if none has
(`Prevails`). A source has a say if it gives the setting, gives something else than a table for a
section around it, or makes a table of it. So a source that gives other settings only leaves it
alone, but a list or a text in place of a section does away with all that lies below.
-/
namespace PromptAssembly
open Files (Path)
open CommandLine (Invocation)

namespace Settings
variable {α : Type} {names : List String} {sources : List Table} {s : Settings}

theorem builtIn_eq : builtIn =
    .object [("render", .object [("max_depth", .int 64), ("strict", .bool false)])] := by
  decide +kernel

theorem Leaf.taken_builtIn (ℓ : Leaf α) :
    taken (ℓ.get {}) ℓ.read? (settingAt ℓ.names builtIn) = some (ℓ.get {}) := by
  rw [builtIn_eq]
  cases ℓ <;> rfl

theorem Leaf.settingAt_builtIn (ℓ : Leaf α) {above below : List String}
    (h : above ++ below = ℓ.names) (proper : below ≠ []) : settingAt above builtIn = none := by
  rw [builtIn_eq]
  match above with
  | [] => rfl
  | [key] =>
    by_cases hkey : key = "render"
    · subst hkey
      rfl
    · simp [settingAt_cons, tableOf, hkey]
  | key :: key' :: above =>
    -- two names lead only to a dictionary, and the built-in settings have none
    have other : key ≠ "render" := by
      cases ℓ <;> simp_all [names]
    simp [settingAt_cons, tableOf, other]

theorem distinct_builtIn : Distinct builtIn :=
  distinct_empty.overlay _

theorem compose_eq_ok (h : compose sources = .ok s) :
    read? (Value.mk (sources.foldl overlay builtIn)) = some s ∧ 0 < s.render.maxDepth := by
  unfold compose at h
  split at h
  · cases h
  · next s' hs' =>
    split at h
    · cases h
    · next positive =>
      obtain rfl := Except.ok.inj h
      exact ⟨hs', Nat.pos_of_ne_zero positive⟩

theorem settingAt_foldl_of_not_concerns {tree : Json} (h : ∀ t ∈ sources, ¬ t.Concerns names) :
    settingAt names (sources.foldl overlay tree) = settingAt names tree := by
  rw [settingAt_foldl_overlay]
  refine outcome_of_not_concerns fun g hg => ?_
  obtain ⟨t, ht, hgiven⟩ := List.mem_flatMap.1 hg
  exact fun concerns => h t ht ⟨g, hgiven, concerns⟩

theorem exists_foldl_overlay_eq (sources : List Table) :
    ∃ es, sources.foldl overlay builtIn = .object es := by
  rw [builtIn_eq]
  generalize [("render", _)] = es
  induction sources generalizing es with
  | nil => exact ⟨es, rfl⟩
  | cons source sources ih =>
    obtain ⟨es', hes'⟩ := exists_overlay_eq source es
    rw [List.foldl_cons, hes']
    exact ih es'

theorem settingAt_of_concerns (lower : List Table) {source : Table} {higher : List Table}
    (say : source.Concerns names) (last : ∀ t ∈ higher, ¬ t.Concerns names) :
    settingAt names ((lower ++ source :: higher).foldl overlay builtIn) =
      source.setting? names := by
  rw [List.foldl_append, List.foldl_cons, settingAt_foldl_of_not_concerns last, settingAt_overlay,
    outcome_of_concerns say, Table.setting?]

theorem Leaf.settingAt_above (ℓ : Leaf α) (h : ∀ t ∈ sources, ¬ t.Concerns ℓ.names)
    {above below : List String} (split : above ++ below = ℓ.names) (proper : below ≠ []) :
    settingAt above (sources.foldl overlay builtIn) = none := by
  rw [settingAt_foldl_overlay, ℓ.settingAt_builtIn split proper]
  refine outcome_above ⟨below, split⟩ fun g hg => ?_
  obtain ⟨t, ht, hgiven⟩ := List.mem_flatMap.1 hg
  exact fun concerns => h t ht ⟨g, hgiven, concerns⟩

theorem Leaf.names_eq (ℓ : Leaf α) : ∃ name rest, ℓ.names = ℓ.part :: name :: rest := by
  cases ℓ <;> exact ⟨_, _, rfl⟩

theorem Leaf.settingAt_of_list (ℓ : Leaf α) {es : Table} {items : List Json}
    (list : es.lookup ℓ.part = some (.array items)) :
    settingAt ℓ.names (.object es) = none ∧
      settingAt [ℓ.part] (.object es) = some (.array []) := by
  obtain ⟨name, rest, names⟩ := ℓ.names_eq
  constructor
  · simp [names, settingAt_cons, tableOf, list]
  · simp [settingAt, nodeAt, tableOf, list, content?]

theorem Leaf.taken_settingAt (ℓ : Leaf α) {es : Table}
    (h : Settings.read? (⟨.object es⟩ : Value) = some s) (distinct : Distinct (.object es))
    (table : ∀ items, es.lookup ℓ.part ≠ some (.array items)) :
    taken (ℓ.get {}) ℓ.read? (settingAt ℓ.names (.object es)) = some (ℓ.get s) :=
  ℓ.flat.taken_content (ℓ.taken_nodeAt h distinct table)

/-- A setting where nothing is left at its place: what the list in place of its section holds at its
position, or else the built-in one. -/
def Leaf.displaced? (ℓ : Leaf α) (tree : Json) : Option α :=
  match (tableOf tree).lookup ℓ.part with
  | some (.array items) => ℓ.listed? items
  | _ => some (ℓ.get {})

/-- A setting comes from the last source that has a say in it, or else it is the built-in one. -/
structure Prevails (sources : List Table) (ℓ : Leaf α) (a : α) : Prop where
  last (lower : List Table) (source : Table) (higher : List Table) (j : Json) :
    sources = lower ++ source :: higher → source.setting? ℓ.names = some j →
      (∀ t ∈ higher, ¬ t.Concerns ℓ.names) → ℓ.read? ⟨j⟩ = some a
  displaced (lower : List Table) (source : Table) (higher : List Table) :
    sources = lower ++ source :: higher → source.Concerns ℓ.names →
      source.setting? ℓ.names = none → (∀ t ∈ higher, ¬ t.Concerns ℓ.names) →
        ℓ.displaced? (sources.foldl overlay builtIn) = some a
  builtIn : (∀ t ∈ sources, ¬ t.Concerns ℓ.names) → a = ℓ.get {}

theorem Leaf.prevails (ℓ : Leaf α) (h : compose sources = .ok s) :
    Prevails sources ℓ (ℓ.get s) := by
  obtain ⟨hread, -⟩ := compose_eq_ok h
  obtain ⟨es, hes⟩ := exists_foldl_overlay_eq sources
  have distinct := distinct_builtIn.foldl_overlay sources
  rw [hes] at hread distinct
  have reads := ℓ.taken_settingAt hread distinct
  refine ⟨fun lower source higher j split hj last => ?given,
    fun lower source higher split say nothing last => ?displaced, fun silent => ?builtIn⟩
  case given =>
    have here := settingAt_of_concerns lower (Table.concerns_of_setting? hj) last
    rw [← split, hes, hj] at here
    have table : ∀ items, es.lookup ℓ.part ≠ some (.array items) := fun items list => by
      simp [(ℓ.settingAt_of_list list).1] at here
    rw [here] at reads
    exact reads table
  case displaced =>
    have here := settingAt_of_concerns lower say last
    rw [← split, hes, nothing] at here
    rw [hes]
    unfold displaced?
    split
    · next items list => exact ℓ.listed hread list
    · next table =>
      rw [here] at reads
      exact reads table
  case builtIn =>
    have above : settingAt [ℓ.part] (.object es) = none := by
      obtain ⟨name, rest, names⟩ := ℓ.names_eq
      have split : [ℓ.part] ++ name :: rest = ℓ.names := names.symm
      exact hes ▸ ℓ.settingAt_above silent split (List.cons_ne_nil _ _)
    have table : ∀ items, es.lookup ℓ.part ≠ some (.array items) := fun items list => by
      simp [(ℓ.settingAt_of_list list).2] at above
    rw [← hes, settingAt_foldl_of_not_concerns silent, ℓ.taken_builtIn] at reads
    exact (Option.some.inj (reads table)).symm

theorem Leaf.names_cases (ℓ : Leaf α) :
    (ℓ.names.length = 2 ∧ ℓ.names ∉ [["repository", "mappings"], ["logging", "modules"]]) ∨
    (ℓ.names.length = 3 ∧
      ℓ.names.take 2 ∈ [["repository", "mappings"], ["logging", "modules"]]) := by
  cases ℓ <;> simp [names]

theorem Leaf.eq_of_prefix {β : Type} (ℓ : Leaf α) (m : Leaf β) (h : ℓ.names <+: m.names) :
    ℓ.names = m.names := by
  have shorter := h.length_le
  rcases ℓ.names_cases with ⟨two, single⟩ | ⟨three, -⟩
  · rcases m.names_cases with ⟨two', -⟩ | ⟨-, table⟩
    · exact h.eq_of_length (two.trans two'.symm)
    · rw [List.prefix_iff_eq_take.1 h, two] at single
      exact absurd table single
  · rcases m.names_cases with ⟨two', -⟩ | ⟨three', -⟩
    · omega
    · exact h.eq_of_length (three.trans three'.symm)

theorem Leaf.not_concerns (ℓ : Leaf α) {t : Table}
    (h : ∀ g ∈ t.given, g.names ≠ ℓ.names ∧ ∃ (β : Type) (m : Leaf β), g.names = m.names) :
    ¬ t.Concerns ℓ.names := by
  rintro ⟨g, hg, ⟨longer, -⟩ | ⟨under, -⟩⟩ <;> obtain ⟨other, β, m, hm⟩ := h g hg
  · exact other (hm ▸ ℓ.eq_of_prefix m (hm ▸ longer)).symm
  · exact other (hm ▸ m.eq_of_prefix ℓ (hm ▸ under))

theorem renderer_maxDepth {r : RenderSettings} (h : 0 < r.maxDepth) :
    r.renderer.maxDepth = r.maxDepth :=
  Nat.max_eq_left h

theorem bind_eq_ok {ε β : Type} {x : Except ε α} {k : α → Except ε β} {b : β}
    (h : (x >>= k) = .ok b) : ∃ a, x = .ok a ∧ k a = .ok b := by
  cases x with
  | error cause => cases h
  | ok a => exact ⟨a, rfl, h⟩

theorem load_eq_ok {r : Reader} {e : Environment} {f : Files} {explicit : Option Path}
    (h : load e f explicit r = .ok s) :
    ∃ globals own, globalTable r e f = .ok globals ∧
      explicit.mapM (explicitTable r f) = .ok own ∧
      compose [r.arrange .globalFile globals, r.arrange .explicitFile (own.getD []),
        r.arrange .environment (ofEnvironment e.vars)] = .ok s := by
  obtain ⟨-, -, h⟩ := bind_eq_ok h
  obtain ⟨globals, hglobals, h⟩ := bind_eq_ok h
  obtain ⟨own, hown, h⟩ := bind_eq_ok h
  exact ⟨globals, own, hglobals, hown, h⟩

theorem load_of_missing {r : Reader} {e : Environment} {f : Files} {p : Path}
    (h : f.isFile p = false) : load e f (some p) r = .error (.fileNotFound p) := by
  have missing : checkPresent f p = .error (.fileNotFound p) := by
    rw [checkPresent, h, if_neg Bool.false_ne_true]
  rw [load, Option.forM, missing]
  rfl

end Settings

namespace CommandLine
open Settings

/-- Whatever the global file, the file asked for and the environment: every setting of a run comes
from the last of them that has a say in it, and an option for the directory of prompts from that.
A source that gives only other settings has no say. The order in which the entries of a source are
laid over others does not matter but where entries that differ meet. -/
theorem Invocation.settings_by_precedence (i : Invocation) (e : Environment) (f : Files)
    (r : Reader) :
    (∀ p, i.config = some p → f.isFile p = false → i.settings e f r = .error (.fileNotFound p)) ∧
    (∀ s, i.settings e f r = .ok s →
      (∃ globals own, globalTable r e f = .ok globals ∧
        i.config.mapM (explicitTable r f) = .ok own ∧
        ∀ (α : Type) (ℓ : Leaf α), i.promptsDir = none ∨ ℓ.names ≠ Leaf.promptsDir.names →
          Prevails [r.arrange .globalFile globals, r.arrange .explicitFile (own.getD []),
            r.arrange .environment (ofEnvironment e.vars)] ℓ (ℓ.get s)) ∧
      (∀ dir, i.promptsDir = some dir → s.repository.promptsDir = some dir) ∧
      0 < s.render.maxDepth ∧ s.render.renderer.maxDepth = s.render.maxDepth) ∧
    (∀ (t : Table) (α : Type) (ℓ : Leaf α),
      (∀ g ∈ t.given, g.names ≠ ℓ.names ∧ ∃ (β : Type) (m : Leaf β), g.names = m.names) →
        ¬ t.Concerns ℓ.names) ∧
    ∀ (source : Source) (t : Table) (names : List String),
      ((r.arrange source t).Concerns names ↔ t.Concerns names) ∧
      (t.Agrees names → (r.arrange source t).setting? names = t.setting? names) := by
  refine ⟨fun p hp missing => ?_, fun s h => ?_, fun t α ℓ => ℓ.not_concerns,
    fun source t names => ⟨(r.rearranged source t).concerns_iff, (r.rearranged source t).setting?_eq⟩⟩
  · rw [Invocation.settings, hp, load_of_missing missing]
    rfl
  · obtain ⟨loaded, hload, h⟩ := bind_eq_ok h
    obtain ⟨globals, own, hglobals, hown, composed⟩ := load_eq_ok hload
    obtain ⟨-, positive⟩ := compose_eq_ok composed
    cases hdir : i.promptsDir with
    | none =>
      obtain rfl : loaded = s := by simpa [hdir, pure, Except.pure] using h
      exact ⟨⟨globals, own, hglobals, hown, fun α ℓ _ => ℓ.prevails composed⟩, nofun, positive,
        renderer_maxDepth positive⟩
    | some dir =>
      obtain rfl : { loaded with repository := { loaded.repository with promptsDir := some dir } } =
          s := by simpa [hdir, pure, Except.pure] using h
      refine ⟨⟨globals, own, hglobals, hown, fun α ℓ hℓ => ?_⟩,
        fun _ => congrArg some ∘ Option.some.inj, positive, renderer_maxDepth positive⟩
      have other := hℓ.resolve_left nofun
      have same : ℓ.get { loaded with repository :=
          { loaded.repository with promptsDir := some dir } } = ℓ.get loaded := by
        cases ℓ <;> first | rfl | exact absurd rfl other
      exact same ▸ ℓ.prevails composed

/-- Settings files of a user and, in the working directory, one to be asked for. -/
def configured (globals own : String) : Files where
  entries := Dict.ofList
    [("/own.toml", .file own.toUTF8), ("/x", .directory), ("/x/promptloom", .directory),
     ("/x/promptloom/config.toml", .file globals.toUTF8)]

/-- A setting of the user's that the environment overrules, one of the file asked for, one of the
global file and one of none. -/
theorem Invocation.settings_by_precedence_layered :
    let i : Invocation := { config := some "own.toml", command := .list "text" }
    let e : Environment :=
      { vars := Dict.ofList [("PROMPTLOOM__LOGGING__LEVEL", "info"), ("XDG_CONFIG_HOME", "x")] }
    let f := configured "render = \x7b max_depth = 9, strict = true \x7d"
      "[render]\nmax_depth = 4\n[logging]\nlevel = 'debug'"
    ∃ s, i.settings e f = .ok s ∧ s.logging.level = "info" ∧ s.render.maxDepth = 4 ∧
      s.render.strict = true ∧ s.logging.output = "stderr" := by
  intro i e f
  let globals : Table :=
    [("render", .object [("max_depth", .int 9), ("strict", .bool true)])]
  let own : Table := [("render", .object [("max_depth", .int 4)]),
    ("logging", .object [("level", .string "debug")])]
  have hs : i.settings e f = .ok
      { render := { maxDepth := 4, strict := true }, logging := { level := "info" } } := by
    decide +kernel
  obtain ⟨-, run, -⟩ := i.settings_by_precedence e f {}
  obtain ⟨⟨globals', own', hglobals, hown, prevails⟩, -⟩ := run _ hs
  have hglobals' : globalTable {} e f = .ok globals := by decide +kernel
  have hown' : i.config.mapM (explicitTable {} f) = .ok (some own) := by decide +kernel
  obtain rfl := Except.ok.inj (hglobals'.symm.trans hglobals)
  obtain rfl := Except.ok.inj (hown'.symm.trans hown)
  have level := (prevails _ .logLevel (.inl rfl)).last [globals, own] _ [] (.string "info") rfl
    (by decide +kernel) nofun
  have depth := (prevails _ .maxDepth (.inl rfl)).last [globals] own _ (.int 4) rfl
    (by decide +kernel) (by decide +kernel)
  have strict := (prevails _ .strict (.inl rfl)).last [] globals _ (.bool true) rfl
    (by decide +kernel) (by decide +kernel)
  exact ⟨_, hs, (Option.some.inj level).symm, (Option.some.inj depth).symm,
    (Option.some.inj strict).symm, (prevails _ .logOutput (.inl rfl)).builtIn (by decide +kernel)⟩

/-- A list in place of a section takes away what lies below it, and names lose their case. -/
theorem Invocation.settings_lost :
    let i : Invocation := { config := some "own.toml", command := .list "text" }
    let e : Environment := { vars := Dict.ofList [("XDG_CONFIG_HOME", "x")] }
    let f := configured "repository.fragments_dir = 'f'\nlogging.modules.App = 'debug'"
      "repository = ['p']"
    ∃ s globals own, i.settings e f = .ok s ∧ globalTable {} e f = .ok globals ∧
      explicitTable {} f "own.toml" = .ok own ∧ ofEnvironment e.vars = [] ∧
      globals.setting? Leaf.fragmentsDir.names = some (.string "f") ∧
      own.setting? Leaf.fragmentsDir.names = none ∧ s.repository.fragmentsDir = none ∧
      nodeAt ["logging", "modules", "App"] (.object globals) = some (.string "debug") ∧
      s.logging.modules.get? "App" = none := by
  intro i e f
  refine ⟨{ repository := { promptsDir := some "p" },
            logging := { modules := Dict.ofList [("app", "debug")] } },
    [("repository", .object [("fragments_dir", .string "f")]),
     ("logging", .object [("modules", .object [("App", .string "debug")])])],
    [("repository", .array [.string "p"])], ?_⟩
  decide +kernel

end CommandLine
end PromptAssembly
