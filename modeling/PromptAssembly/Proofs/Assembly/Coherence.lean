import PromptAssembly.Proofs.Assembly.Registration

/-!
# Cached and held configurations

Over a repository in memory that only the registry changes, what is cached for a task type is what
the repository holds for it, with defaults filled in. Every operation keeps this
(`Registry.Coherent.step`), so that after any number of them loading shows the repository and
nothing else (`Registry.loads_what_is_held`).
-/
namespace PromptAssembly
open Prompt (Config)
open Repository (Memory)

namespace Registry
variable {S : Type}

inductive Operation where
  | loadConfig (taskType : String)
  | assemble (q : Request)
  | info (taskType : String)
  | report (taskType : String)
  | listTaskTypes
  | clearCache
  | register (taskType : String) (c : Config)

/-- Nothing is registered under another task type than its own. -/
def Operation.Own : Operation → Prop
  | .register t c => c.taskType = "" ∨ c.taskType = t
  | _ => True

def perform (r : Registry S) : Operation → Run S Unit
  | .loadConfig t => do let _ ← r.loadConfig t
  | .assemble q => do let _ ← r.assemble q.taskType q.vars q.model
  | .info t => do let _ ← r.info t
  | .report t => do let _ ← r.report t
  | .listTaskTypes => do let _ ← r.listTaskTypes
  | .clearCache => Registry.clearCache
  | .register t c => do let _ ← r.register t c

def performAll (r : Registry S) (ops : List Operation) : Run S Unit := ops.forM r.perform

theorem run_eq_state (x : Run S Unit) (s : Shared S) : x.run s = ((), (x.run s).2) := rfl

theorem run_performAll_cons (r : Registry S) (op : Operation) (ops : List Operation)
    (s : Shared S) :
    (r.performAll (op :: ops)).run s = (r.performAll ops).run ((r.perform op).run s).2 := rfl

theorem prompts_reply (r : Registry S) (contents : Contents S) (store : S) (q : Request)
    (es : Entries) : (r.reply contents store q es).2.prompts =
      (Cache.fetch q.taskType (contents.config store q.taskType) es.prompts).2 := by
  rw [reply]
  generalize Cache.fetch q.taskType (contents.config store q.taskType) es.prompts = fetched
  obtain ⟨loaded, prompts⟩ := fetched
  cases loaded <;> rfl

/-- What an operation does to the prompts that are cached and held. -/
inductive Effect (op : Operation) (s s' : Shared Memory) : Prop
  | none (held : s'.store = s.store)
      (cached : s'.cache.prompts.entries = s.cache.prompts.entries)
  | fetched (t : String) (held : s'.store = s.store) (cached : s'.cache.prompts.entries =
      (Cache.fetch t (Memory.contents.config s.store t) s.cache.prompts.entries).2)
  | cleared (held : s'.store = s.store) (cached : s'.cache.prompts.entries = Dict.empty)
  | registered (t : String) (c : Config) (asked : op = .register t c)
      (held : s'.store = s.store.insertPrompt (c.registeredAs t))
      (cached : s'.cache.prompts.entries = s.cache.prompts.entries.insert t (c.registeredAs t))

variable {r : Registry Memory} {s s' : Shared Memory} {op : Operation}

theorem effect_of_loadConfig (attached : r.repository = some Memory.repository) (t : String)
    (h : s' = ((r.loadConfig t).run s).2) : Effect op s s' := by
  obtain ⟨shelf, hrun, hshelf⟩ := run_loadConfig attached Memory.reads t s
  rw [hrun] at h
  subst h
  exact .fetched t rfl hshelf

theorem state_listTaskTypes (attached : r.repository = some Memory.repository)
    (s : Shared Memory) : ((r.listTaskTypes).run s).2 = s := by
  have listed : Memory.repository.listPrompts.run s = (.ok s.store.prompts.keys, s) := rfl
  simp only [listTaskTypes, attached]
  show (StateT.run (Memory.repository.listPrompts >>= _) s).2 = s
  rw [StateT.run_bind, listed]
  cases s.store.prompts.keys <;> rfl

theorem effect_perform (attached : r.repository = some Memory.repository) (op : Operation)
    (s : Shared Memory) : Effect op s ((r.perform op).run s).2 := by
  cases op with
  | loadConfig t => exact effect_of_loadConfig attached t rfl
  | info t => exact effect_of_loadConfig attached t rfl
  | report t => exact effect_of_loadConfig attached t rfl
  | assemble q =>
    obtain ⟨cache, hrun, hcache⟩ := run_answer attached Memory.reads q s
    have state : ((r.perform (.assemble q)).run s).2 = ((r.answer q).run s).2 := rfl
    have cached : cache.prompts.entries =
        (r.reply Memory.contents s.store q s.cache.entries).2.prompts :=
      congrArg Entries.prompts hcache
    rw [state, hrun]
    exact .fetched q.taskType rfl (cached.trans (prompts_reply ..))
  | listTaskTypes =>
    have state : ((r.perform .listTaskTypes).run s).2 = ((r.listTaskTypes).run s).2 := rfl
    rw [state, state_listTaskTypes attached]
    exact .none rfl rfl
  | clearCache => exact .cleared rfl rfl
  | register t c =>
    by_cases named : t = ""
    · subst named
      exact .none rfl rfl
    · have state : ((r.perform (.register t c)).run s).2 = ((r.register t c).run s).2 := rfl
      rw [state, run_register attached named c s]
      exact .registered t c rfl rfl rfl

/-- What is cached is what is held, with defaults filled in. -/
def Coherent (s : Shared Memory) : Prop := ∀ k c, s.cache.find? Cache.promptSlot k = some c →
  ∃ held, s.store.prompts.get? k = some held ∧ c = held.withDefaults

theorem Coherent.step (h : Coherent s) (own : op.Own) (effect : Effect op s s') :
    Coherent s' := by
  intro k c hk
  have hk : s'.cache.prompts.entries.get? k = some c := hk
  cases effect with
  | none held cached =>
    rw [held]
    rw [cached] at hk
    exact h k c hk
  | fetched t held cached =>
    rw [held]
    rw [cached] at hk
    rcases Cache.get?_fetch_cases hk with hk | ⟨rfl, hload⟩
    · exact h k c hk
    · rw [Memory.config_contents] at hload
      cases hheld : s.store.prompts.get? k with
      | none => simp [hheld, Memory.loaded] at hload
      | some held => exact ⟨held, rfl, by simpa [hheld, Memory.loaded] using hload.symm⟩
  | cleared held cached =>
    rw [cached] at hk
    simp at hk
  | registered t config asked held cached =>
    subst asked
    have name : (config.registeredAs t).taskType = t := by
      rw [Config.taskType_registeredAs]
      split
      · rfl
      · next unnamed => exact own.resolve_left unnamed
    rw [cached, Dict.get?_insert] at hk
    rw [held, Memory.insertPrompt, Dict.get?_insert, name]
    by_cases same : k = t
    · rw [if_pos same] at hk ⊢
      obtain rfl := Option.some.inj hk
      exact ⟨_, rfl, (Config.withDefaults_registeredAs config t).symm⟩
    · rw [if_neg same] at hk ⊢
      exact h k c hk

theorem Coherent.performAll (attached : r.repository = some Memory.repository)
    {ops : List Operation} (own : ∀ op ∈ ops, op.Own) (h : Coherent s) :
    Coherent ((r.performAll ops).run s).2 := by
  induction ops generalizing s with
  | nil => exact h
  | cons op ops ih =>
    obtain ⟨first, rest⟩ := List.forall_mem_cons.1 own
    rw [run_performAll_cons]
    exact ih rest (h.step first (effect_perform attached op s))

theorem Coherent.load (attached : r.repository = some Memory.repository) (h : Coherent s)
    (t : String) : ((r.loadConfig t).run s).1 = Memory.contents.config s.store t := by
  cases hk : s.cache.find? Cache.promptSlot t with
  | none => exact run_loadConfig_of_find?_eq_none attached hk
  | some c =>
    obtain ⟨held, hheld, rfl⟩ := h t c hk
    rw [run_loadConfig_of_find? attached hk, Memory.config_contents, hheld, Memory.loaded]

/-- After any number of operations from a cache without prompts, what is cached is what the
repository holds, with defaults filled in, and so is what is loaded; where it holds nothing, nothing
is found. -/
theorem loads_what_is_held (attached : r.repository = some Memory.repository)
    (empty : ∀ k, s.cache.find? Cache.promptSlot k = none) {ops : List Operation}
    (own : ∀ op ∈ ops, op.Own) (run : (r.performAll ops).run s = ((), s')) :
    (∀ k c, s'.cache.find? Cache.promptSlot k = some c →
      ∃ held, s'.store.prompts.get? k = some held ∧ c = held.withDefaults) ∧
    ∀ k, ((r.loadConfig k).run s').1 = Memory.loaded k (s'.store.prompts.get? k) := by
  have start : Coherent s := by
    intro k c hk
    simp [empty] at hk
  have coherent : Coherent s' := by
    have reached := start.performAll attached own
    rwa [run] at reached
  refine ⟨coherent, fun k => ?_⟩
  rw [coherent.load attached, Memory.config_contents]

/-- Misses, a registration that replaces what is held and cached, one for a new task type, and a
cleared cache. -/
theorem loads_what_is_held_replaced :
    let r : Registry Memory := { repository := some Memory.repository }
    let store : Memory := Memory.insertPrompt {} { taskType := "a", template := "old" }
    let ops : List Operation :=
      [.loadConfig "a", .register "a" { taskType := "a", requiredVars := ["x"] }, .info "none",
        .assemble { taskType := "a" }, .clearCache, .register "b" {}, .report "a"]
    (∀ op ∈ ops, op.Own) ∧ ∃ s, (r.performAll ops).run { store } = ((), s) ∧
      s.cache.keys Cache.promptSlot = ["a", "b"] ∧
      (∀ k c, s.cache.find? Cache.promptSlot k = some c →
        ∃ held, s.store.prompts.get? k = some held ∧ c = held.withDefaults) ∧
      ∀ k, ((r.loadConfig k).run s).1 = Memory.loaded k (s.store.prompts.get? k) := by
  intro r store ops
  have own : ∀ op ∈ ops, op.Own := by simp [ops, Operation.Own]
  have run := run_eq_state (r.performAll ops) { store }
  refine ⟨own, _, run, ?cached, ?held⟩
  case cached => decide +kernel
  case held => exact loads_what_is_held rfl (fun _ => rfl) own run

end Registry
end PromptAssembly
