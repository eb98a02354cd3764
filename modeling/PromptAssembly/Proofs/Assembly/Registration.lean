import PromptAssembly.Proofs.Assembly.Replies

/-!
# Registered configurations

Registering goes two ways: the configuration is cached under the task type it is registered under,
and saved under its own, which is that one only if it names no other. Over a repository in memory it
never fails for a proper task type, and a cleared cache gives way to what was saved
(`Registry.register_then_load`).
-/
namespace PromptAssembly
open Prompt (Config)
open Repository (Memory)

/-- What is cached and saved of a configuration that is registered under a task type. -/
def Prompt.Config.registeredAs (c : Config) (taskType : String) : Config :=
  (if c.taskType.isEmpty then { c with taskType } else c).withDefaults

variable {r : Registry Memory} {s : Shared Memory} {t : String} {c d : Config}

theorem Prompt.Config.taskType_registeredAs (c : Config) (t : String) :
    (c.registeredAs t).taskType = if c.taskType = "" then t else c.taskType := by
  by_cases h : c.taskType = "" <;> simp [registeredAs, h]

theorem Prompt.Config.withDefaults_registeredAs (c : Config) (t : String) :
    (c.registeredAs t).withDefaults = c.registeredAs t :=
  withDefaults_withDefaults _

namespace Repository.Memory

def contents : Contents Memory := ⟨loadPrompt, fun name path _ => loadFragment name path⟩

def loaded (t : String) : Option Config → Except Assembly.Error Config
  | some held => .ok held.withDefaults
  | none => .error (.loading t (.notFound s!"prompt '{t}'"))

theorem config_contents (m : Memory) (t : String) :
    contents.config m t = loaded t (m.prompts.get? t) := by
  simp only [Contents.config, contents, loadPrompt]
  cases m.prompts.get? t <;> rfl

theorem config_insertPrompt (m : Memory) (d : Config) (t : String) :
    contents.config (m.insertPrompt d) t =
      if t = d.taskType then .ok d.withDefaults else contents.config m t := by
  rw [config_contents, config_contents, insertPrompt, Dict.get?_insert]
  by_cases ht : t = d.taskType <;> simp [ht, loaded]

theorem run_savePrompt (named : d.taskType ≠ "") (s : Shared Memory) :
    (repository.savePrompt d).run s = (.ok (), { s with store := s.store.insertPrompt d }) := by
  have saved : savePrompt d s.store = (.ok (), s.store.insertPrompt d) := by
    simp [savePrompt, named]
  show ((savePrompt d s.store).1, { s with store := (savePrompt d s.store).2 }) = _
  rw [saved]

end Repository.Memory

namespace Registry

theorem run_register (attached : r.repository = some Memory.repository) (named : t ≠ "")
    (c : Config) (s : Shared Memory) : (r.register t c).run s = (.ok (),
      { cache := s.cache.insert Cache.promptSlot t (c.registeredAs t)
        store := s.store.insertPrompt (c.registeredAs t) }) := by
  have own : (c.registeredAs t).taskType ≠ "" := by
    rw [Config.taskType_registeredAs]
    split <;> assumption
  have proper : t.isEmpty = false := by simpa using named
  simp only [register, proper, attached, Bool.false_eq_true, if_false]
  show StateT.run (Memory.repository.savePrompt (c.registeredAs t) >>= _) s = _
  rw [StateT.run_bind, Memory.run_savePrompt own]
  rfl

theorem run_loadConfig_of_find? (attached : r.repository = some Memory.repository)
    (h : s.cache.find? Cache.promptSlot t = some d) : (r.loadConfig t).run s = (.ok d, s) := by
  simp only [loadConfig, attached]
  exact Cache.run_getOrLoad_of_find? h

theorem run_loadConfig_of_find?_eq_none (attached : r.repository = some Memory.repository)
    (h : s.cache.find? Cache.promptSlot t = none) :
    ((r.loadConfig t).run s).1 = Memory.contents.config s.store t := by
  obtain ⟨shelf, hrun, -⟩ := run_loadConfig attached Memory.reads t s
  have missing : s.cache.prompts.entries.get? t = none := h
  rw [hrun]
  show (Cache.fetch t (Memory.contents.config s.store t) s.cache.prompts.entries).1 = _
  cases hc : Memory.contents.config s.store t with
  | ok held => rw [Cache.fetch_of_ok missing rfl]
  | error e => rw [Cache.fetch_of_error missing rfl]

theorem run_loadConfig_cleared (attached : r.repository = some Memory.repository) (t : String)
    (s : Shared Memory) :
    ((clearCache *> r.loadConfig t).run s).1 = Memory.contents.config s.store t :=
  run_loadConfig_of_find?_eq_none (s := { s with cache := s.cache.clear }) attached rfl

/-- Registering under a proper task type succeeds, and what was registered is loaded from the cache.
Once that is cleared it is loaded from the repository, under its own task type; under the one it was
registered with there is what was there before, unless that is its own. -/
theorem register_then_load (attached : r.repository = some Memory.repository) (named : t ≠ "")
    (c : Config) (s : Shared Memory) : ∃ s', (r.register t c).run s = (.ok (), s') ∧
      (r.loadConfig t).run s' = (.ok (c.registeredAs t), s') ∧
      ((clearCache *> r.loadConfig (c.registeredAs t).taskType).run s').1 =
        .ok (c.registeredAs t) ∧
      ((clearCache *> r.loadConfig t).run s').1 =
        if c.taskType = "" ∨ c.taskType = t then .ok (c.registeredAs t)
        else Memory.loaded t (s.store.prompts.get? t) := by
  refine ⟨_, run_register attached named c s, ?cached, ?own, ?given⟩
  case cached =>
    apply run_loadConfig_of_find? attached
    simp [Cache.find?, Cache.insert, Cache.promptSlot]
  case own =>
    rw [run_loadConfig_cleared attached, Memory.config_insertPrompt, if_pos rfl,
      Config.withDefaults_registeredAs]
  case given =>
    have own_iff : t = (c.registeredAs t).taskType ↔ c.taskType = "" ∨ c.taskType = t := by
      rw [Config.taskType_registeredAs]
      by_cases h : c.taskType = "" <;> simp [h, eq_comm]
    rw [run_loadConfig_cleared attached, Memory.config_insertPrompt, Memory.config_contents]
    simp only [own_iff, Config.withDefaults_registeredAs]

/-- Registered as `chat`, saved as `help`, which the repository knew before. -/
theorem register_then_load_elsewhere :
    let r : Registry Memory := { repository := some Memory.repository }
    let c : Config := { taskType := "help", template := "new" }
    let old : Config := { taskType := "chat", template := "old" }
    let s : Shared Memory := { store := Memory.insertPrompt {} old }
    "chat" ≠ "" ∧ ∃ s', (r.register "chat" c).run s = (.ok (), s') ∧
      (r.loadConfig "chat").run s' = (.ok c.withDefaults, s') ∧
      ((clearCache *> r.loadConfig "help").run s').1 = .ok c.withDefaults ∧
      ((clearCache *> r.loadConfig "chat").run s').1 = .ok old.withDefaults := by
  intro r c old s
  have named : "chat" ≠ "" := by decide
  exact ⟨named, register_then_load (r := r) rfl named c s⟩

/-- What was registered under another task type than its own is lost with the cache. -/
theorem registered_lost_by_clear : ¬ ∀ (r : Registry Memory) (s s' : Shared Memory) (t : String)
    (c : Config), r.repository = some Memory.repository → t ≠ "" →
      (r.register t c).run s = (.ok (), s') →
        ∃ d, ((r.loadConfig t).run s').1 = .ok d ∧
          ((clearCache *> r.loadConfig t).run s').1 = .ok d := by
  intro h
  let r : Registry Memory := { repository := some Memory.repository }
  let c : Config := { taskType := "b" }
  obtain ⟨d, -, kept⟩ := h r { store := {} } _ "a" c rfl (by decide)
    (run_register rfl (by decide) c { store := {} })
  rw [run_loadConfig_cleared rfl] at kept
  have lost : (Memory.contents.config (Memory.insertPrompt {} (c.registeredAs "a")) "a").toOption =
      none := by decide +kernel
  simp [kept, Except.toOption] at lost

end Registry
end PromptAssembly
