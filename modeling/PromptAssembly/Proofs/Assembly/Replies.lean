import PromptAssembly.Proofs.Cache.Loading
import PromptAssembly.Registry
import PromptAssembly.Repository.Directory
import PromptAssembly.Repository.Memory

/-!
# Replies from a store that does not change

Where loading reads a store and does nothing else, a registry's answer to a request is a function of
the store and the entries of the cache, and so are the entries that it leaves behind
(`Registry.run_answer`). The gates of the cache play no part.
-/
namespace PromptAssembly
open Assembly (Error Resolved resolveRef)
open Prompt (Config Fragment FragmentRef Assembled)
open Template (Vars)

variable {S : Type}

/-- What a store holds for a task type, and for a fragment's name, path and base directory. -/
structure Contents (S : Type) where
  prompt : (taskType : String) → S → Except Repository.Error Config
  fragment : (name : String) → (path : Option String) → (base : Option Files.Path) → S →
    Except Repository.Error Fragment

namespace Repository

/-- Loading reads the store and does nothing else. -/
structure Reads (repo : Repository S) (contents : Contents S) : Prop where
  loadPrompt (taskType : String) : repo.loadPrompt taskType = reading (contents.prompt taskType)
  loadFragment (name : String) (path : Option String) (base : Option Files.Path) :
    repo.loadFragment name path base = reading (contents.fragment name path base)

theorem reading_bind {α β : Type} (read : S → α) (next : α → Run S β) (pureNext : α → β)
    (h : ∀ a, next a = pure (pureNext a)) :
    (reading read >>= next) = reading fun s => pureNext (read s) := by
  funext s
  show StateT.run (next (read s.store)) s = _
  rw [h]
  rfl

theorem Memory.reads :
    Memory.repository.Reads ⟨Memory.loadPrompt, fun name path _ => Memory.loadFragment name path⟩ :=
  ⟨fun _ => rfl, fun _ _ _ => rfl⟩

theorem Directory.reads (d : Directory) : d.repository.Reads ⟨d.loadPrompt, d.loadFragment⟩ :=
  ⟨fun _ => rfl, fun _ _ _ => rfl⟩

end Repository

def populated (taskType : String) : Except Repository.Error Config → Except Error Config
  | .ok c => .ok c.withDefaults
  | .error e => .error (.loading taskType e)

def Contents.config (contents : Contents S) (store : S) (taskType : String) : Except Error Config :=
  populated taskType (contents.prompt taskType store)

def Contents.load (contents : Contents S) (base : Option Files.Path) (store : S) (r : Resolved) :
    Except Repository.Error Fragment :=
  contents.fragment r.name r.path base store

namespace Assembly

/-- The fragment variables and the fragment entries afterwards. -/
def collect (load : Resolved → Except Repository.Error Fragment) (vars : Vars) :
    (found : Vars) → List FragmentRef → Dict Fragment → Except Error Vars × Dict Fragment
  | found, [], entries => (.ok found, entries)
  | found, r :: rs, entries =>
    let resolved := resolveRef vars r
    match Cache.fetch resolved.key (load resolved) entries with
    | (.ok f, entries) => collect load vars (found.insert resolved.name f.content) rs entries
    | (.error e, entries) =>
      if r.required then (.error (.missingFragment resolved.name r.name e), entries)
      else collect load vars found rs entries

variable {repo : Repository S} {contents : Contents S}

theorem run_loadFragment (reads : repo.Reads contents) (base : Option Files.Path) (r : Resolved)
    (s : Shared S) : ∃ shelf, (loadFragment repo base r).run s =
        ((Cache.fetch r.key (contents.load base s.store r) s.cache.fragments.entries).1,
          { s with cache := { s.cache with fragments := shelf } }) ∧
      shelf.entries =
        (Cache.fetch r.key (contents.load base s.store r) s.cache.fragments.entries).2 := by
  rw [loadFragment, reads.loadFragment]
  exact Cache.run_getOrLoad Cache.fragmentSlot_lawful r.key _ s

theorem run_fragmentVars (reads : repo.Reads contents) (base : Option Files.Path)
    (vars found : Vars) (refs : List FragmentRef) (s : Shared S) :
    ∃ shelf, (fragmentVars repo base vars found refs).run s =
        ((collect (contents.load base s.store) vars found refs s.cache.fragments.entries).1,
          { s with cache := { s.cache with fragments := shelf } }) ∧
      shelf.entries =
        (collect (contents.load base s.store) vars found refs s.cache.fragments.entries).2 := by
  induction refs generalizing found s with
  | nil => exact ⟨s.cache.fragments, rfl, rfl⟩
  | cons r rs ih =>
    obtain ⟨shelf, hrun, hshelf⟩ := run_loadFragment reads base (resolveRef vars r) s
    rw [fragmentVars, StateT.run_bind, hrun]
    simp only [collect]
    generalize Cache.fetch (resolveRef vars r).key (contents.load base s.store (resolveRef vars r))
      s.cache.fragments.entries = fetched at hshelf ⊢
    obtain ⟨loaded, entries⟩ := fetched
    obtain rfl : shelf.entries = entries := hshelf
    cases loaded with
    | ok f => exact ih _ { s with cache := { s.cache with fragments := shelf } }
    | error e =>
      by_cases required : r.required
      · simp only [required, if_true]
        exact ⟨shelf, rfl, rfl⟩
      · simp only [required]
        exact ih _ { s with cache := { s.cache with fragments := shelf } }

end Assembly

structure Request where
  taskType : String
  vars : Vars := Dict.empty
  model : String := ""

namespace Registry

def answer (r : Registry S) (q : Request) : Run S (Except Error Assembled) :=
  r.assemble q.taskType q.vars q.model

def answers (r : Registry S) (qs : List Request) : Run S (List (Except Error Assembled)) :=
  qs.mapM r.answer

def prepare (load : Resolved → Except Repository.Error Fragment) (q : Request) (c : Config)
    (entries : Dict Fragment) : Except Error Vars × Dict Fragment :=
  match Template.missingVars c.requiredVars q.vars with
  | [] =>
    let base := baseVars c q.vars
    let (found, entries) := Assembly.collect load base Dict.empty c.fragments entries
    (found.map base.overlay, entries)
  | missing => (.error (.missingVariables q.taskType missing), entries)

/-- The prompt that comes of a configuration and its variables. -/
def finish (r : Registry S) (q : Request) (c : Config) : Except Error Vars → Except Error Assembled
  | .error e => .error e
  | .ok vars =>
    match r.renderer.render (c.templateFor q.model) vars with
    | .error e => .error (.rendering q.taskType e)
    | .ok text => .ok (.ofConfig c text)

def reply (r : Registry S) (contents : Contents S) (store : S) (q : Request) (es : Entries) :
    Except Error Assembled × Entries :=
  match Cache.fetch q.taskType (contents.config store q.taskType) es.prompts with
  | (.error e, prompts) => (.error e, { es with prompts })
  | (.ok c, prompts) =>
    let (vars, fragments) := prepare (contents.load r.fragmentBase store) q c es.fragments
    (r.finish q c vars, { prompts, fragments })

/-- The answers to requests that come one after the other, and the entries in the end. -/
def replies (r : Registry S) (contents : Contents S) (store : S) :
    List Request → Entries → List (Except Error Assembled) × Entries
  | [], es => ([], es)
  | q :: qs, es =>
    let (answer, es) := r.reply contents store q es
    let (answers, es) := r.replies contents store qs es
    (answer :: answers, es)

variable {r : Registry S} {repo : Repository S} {contents : Contents S}

theorem run_loadConfig (attached : r.repository = some repo) (reads : repo.Reads contents)
    (taskType : String) (s : Shared S) : ∃ shelf, (r.loadConfig taskType).run s =
        ((Cache.fetch taskType (contents.config s.store taskType) s.cache.prompts.entries).1,
          { s with cache := { s.cache with prompts := shelf } }) ∧
      shelf.entries =
        (Cache.fetch taskType (contents.config s.store taskType) s.cache.prompts.entries).2 := by
  simp only [loadConfig, attached, reads.loadPrompt]
  rw [Repository.reading_bind _ _ (populated taskType) fun loaded => by cases loaded <;> rfl]
  exact Cache.run_getOrLoad Cache.promptSlot_lawful taskType _ s

theorem run_prepareVariables (attached : r.repository = some repo) (reads : repo.Reads contents)
    (q : Request) (c : Config) (s : Shared S) :
    ∃ shelf, (r.prepareVariables c q.vars q.taskType).run s =
        ((prepare (contents.load r.fragmentBase s.store) q c s.cache.fragments.entries).1,
          { s with cache := { s.cache with fragments := shelf } }) ∧
      shelf.entries =
        (prepare (contents.load r.fragmentBase s.store) q c s.cache.fragments.entries).2 := by
  have source : r.fragmentSource = repo := by simp [fragmentSource, attached]
  simp only [prepareVariables, prepare, source]
  cases Template.missingVars c.requiredVars q.vars with
  | cons name names => exact ⟨s.cache.fragments, rfl, rfl⟩
  | nil =>
    obtain ⟨shelf, hrun, hshelf⟩ := Assembly.run_fragmentVars reads r.fragmentBase
      (baseVars c q.vars) Dict.empty c.fragments s
    refine ⟨shelf, ?_, hshelf⟩
    simp only [StateT.run_bind, hrun]
    cases (Assembly.collect (contents.load r.fragmentBase s.store) (baseVars c q.vars) Dict.empty
      c.fragments s.cache.fragments.entries).1 <;> rfl

theorem run_answer (attached : r.repository = some repo) (reads : repo.Reads contents)
    (q : Request) (s : Shared S) : ∃ cache, (r.answer q).run s =
        ((r.reply contents s.store q s.cache.entries).1, { s with cache }) ∧
      cache.entries = (r.reply contents s.store q s.cache.entries).2 := by
  obtain ⟨shelf, hrun, hshelf⟩ := run_loadConfig attached reads q.taskType s
  rw [answer, assemble, StateT.run_bind, hrun]
  simp only [reply, Cache.entries]
  generalize Cache.fetch q.taskType (contents.config s.store q.taskType) s.cache.prompts.entries =
    fetched at hshelf ⊢
  obtain ⟨loaded, prompts⟩ := fetched
  obtain rfl : shelf.entries = prompts := hshelf
  cases loaded with
  | error e => exact ⟨{ s.cache with prompts := shelf }, rfl, rfl⟩
  | ok c =>
    obtain ⟨shelf', hrun', hshelf'⟩ := run_prepareVariables attached reads q c
      { s with cache := { s.cache with prompts := shelf } }
    dsimp only at hrun' hshelf' ⊢
    generalize prepare (contents.load r.fragmentBase s.store) q c s.cache.fragments.entries =
      prepared at hrun' hshelf' ⊢
    obtain ⟨vars, fragments⟩ := prepared
    obtain rfl : shelf'.entries = fragments := hshelf'
    refine ⟨{ s.cache with prompts := shelf, fragments := shelf' }, ?_, rfl⟩
    show StateT.run (r.prepareVariables c q.vars q.taskType >>= _) _ = _
    rw [StateT.run_bind, hrun']
    cases vars with
    | error e => rfl
    | ok vars =>
      show StateT.run (match r.renderer.render (c.templateFor q.model) vars with
        | .error e => _ | .ok text => _) _ = _
      simp only [finish]
      cases r.renderer.render (c.templateFor q.model) vars <;> rfl

theorem run_answers (attached : r.repository = some repo) (reads : repo.Reads contents)
    (qs : List Request) (s : Shared S) : ∃ cache, (r.answers qs).run s =
        ((r.replies contents s.store qs s.cache.entries).1, { s with cache }) ∧
      cache.entries = (r.replies contents s.store qs s.cache.entries).2 := by
  induction qs generalizing s with
  | nil => exact ⟨s.cache, rfl, rfl⟩
  | cons q qs ih =>
    obtain ⟨cache, hrun, hcache⟩ := run_answer attached reads q s
    obtain ⟨cache', hrun', hcache'⟩ := ih { s with cache }
    dsimp only at hrun' hcache'
    rw [hcache] at hrun' hcache'
    refine ⟨cache', ?_, hcache'⟩
    rw [answers, List.mapM_cons, StateT.run_bind, hrun]
    show StateT.run (r.answers qs >>= _) _ = _
    rw [StateT.run_bind, hrun']
    rfl

end Registry
end PromptAssembly
