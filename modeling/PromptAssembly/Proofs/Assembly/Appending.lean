import PromptAssembly.Proofs.Assembly.Coherence
import PromptAssembly.Proofs.Assembly.Requirements

/-!
# What asking adds to the cache

A repository leaves the cache to the registry (`Repository.SparesCache`). Then whatever a registry
is asked for, and however it ends, the entries of the cache stay. What may come is the configuration
that was asked for, and fragments under the keys of its references, as the repository returned them
when it came to each (`Registry.asking_appends`).
-/
namespace PromptAssembly
open Assembly (Resolved resolveRef)
open Prompt (Config Fragment FragmentRef)
open Repository (changing)
open Template (Vars)

namespace Dict
variable {α : Type}

/-- Entries stay, and those that come are of this kind. -/
structure Grows (new : String → α → Prop) (d d' : Dict α) : Prop where
  kept : ∀ k a, d.get? k = some a → d'.get? k = some a
  added : ∀ k a, d'.get? k = some a → d.get? k = some a ∨ new k a

namespace Grows
variable {new more : String → α → Prop} {d d' d'' : Dict α}

theorem refl (d : Dict α) : d.Grows new d := ⟨fun _ _ h => h, fun _ _ h => .inl h⟩

theorem trans (h : d.Grows new d') (h' : d'.Grows new d'') : d.Grows new d'' where
  kept k a ha := h'.kept k a (h.kept k a ha)
  added k a ha := (h'.added k a ha).elim (h.added k a) .inr

theorem mono (h : d.Grows new d') (weaker : ∀ k a, new k a → more k a) : d.Grows more d' where
  kept := h.kept
  added k a ha := (h.added k a ha).imp_right (weaker k a)

end Grows
end Dict

theorem Cache.grows_fetch {α ε : Type} (key : String) (loaded : Except ε α) (entries : Dict α) :
    entries.Grows (fun k a => k = key ∧ entries.get? key = none ∧ loaded = .ok a)
      (fetch key loaded entries).2 := by
  cases missing : entries.get? key with
  | some a =>
    rw [fetch_of_get? missing]
    exact .refl entries
  | none =>
    exact ⟨fun _ _ h => get?_fetch_of_get? h,
      fun _ _ h => (get?_fetch_cases h).imp_right fun ⟨same, hloaded⟩ => ⟨same, rfl, hloaded⟩⟩

variable {S : Type}

namespace Repository

/-- The repository leaves the cache as it is, whatever it is asked for. -/
structure SparesCache (repo : Repository S) : Prop where
  loadPrompt (taskType : String) (s : Shared S) :
    ((repo.loadPrompt taskType).run s).2.cache = s.cache
  loadFragment (name : String) (path : Option String) (base : Option Files.Path) (s : Shared S) :
    ((repo.loadFragment name path base).run s).2.cache = s.cache
  listPrompts (s : Shared S) : (repo.listPrompts.run s).2.cache = s.cache

theorem bind_eq_map {α β : Type} (x : Run S α) (next : α → Run S β) (f : α → β)
    (h : ∀ a, next a = pure (f a)) : x >>= next = f <$> x := by
  rw [funext h, bind_pure_comp]

theorem Memory.sparesCache : Memory.repository.SparesCache :=
  ⟨fun _ _ => rfl, fun _ _ _ _ => rfl, fun _ => rfl⟩

theorem Directory.sparesCache (d : Directory) : d.repository.SparesCache :=
  ⟨fun _ _ => rfl, fun _ _ _ _ => rfl, fun _ => rfl⟩

end Repository

namespace Registry
variable {r : Registry S} {s : Shared S} {q : Request}

def promptAnswer (r : Registry S) (t : String) (s : Shared S) : Except Repository.Error Config :=
  ((r.fragmentSource.loadPrompt t).run (s.atGate Cache.promptSlot t)).1

theorem run_loadConfig_detached (alone : r.repository = none) (t : String) (s : Shared S) :
    (r.loadConfig t).run s =
      ((Cache.fetch t (.error (.loading t Repository.nowhere)) s.cache.prompts.entries).1, s) := by
  simp only [loadConfig, alone, StateT.run_bind, Cache.run_getThe, pure_bind, Cache.find?,
    Cache.promptSlot]
  cases held : s.cache.prompts.entries.get? t with
  | some c => rw [Cache.fetch_of_get? held]; rfl
  | none => rw [Cache.fetch_of_error held rfl]; rfl

/-- A registry without a repository loads as one whose repository has nothing. -/
theorem run_loadConfig_sparing (spares : r.fragmentSource.SparesCache) (t : String)
    (s : Shared S) : ∃ shelf store, (r.loadConfig t).run s =
        ((Cache.fetch t (populated t (r.promptAnswer t s)) s.cache.prompts.entries).1,
          { cache := { s.cache with prompts := shelf }, store }) ∧
      shelf.entries =
        (Cache.fetch t (populated t (r.promptAnswer t s)) s.cache.prompts.entries).2 := by
  cases attached : r.repository with
  | some repo =>
    have source : r.fragmentSource = repo := by rw [fragmentSource, attached, Option.getD_some]
    rw [source] at spares
    simp only [promptAnswer, source, loadConfig, attached]
    rw [Repository.bind_eq_map _ _ (populated t) fun loaded => by cases loaded <;> rfl]
    have filled (s : Shared S) : (populated t <$> repo.loadPrompt t).run s =
      (populated t ((repo.loadPrompt t).run s).1, ((repo.loadPrompt t).run s).2) := rfl
    obtain ⟨shelf, hrun, hshelf⟩ := Cache.run_getOrLoad_sparing (s := s) Cache.promptSlot_lawful t
      ((congrArg (·.2.cache) (filled _)).trans (spares.loadPrompt t _))
    rw [filled] at hrun hshelf
    exact ⟨shelf, _, hrun, hshelf⟩
  | none =>
    have nothing : r.promptAnswer t s = .error Repository.nowhere := by
      rw [promptAnswer, fragmentSource, attached]
      rfl
    rw [run_loadConfig_detached attached, nothing]
    exact ⟨s.cache.prompts, s.store, rfl, (Cache.entries_fetch_error ..).symm⟩

def fragmentAnswer (r : Registry S) (ref : Resolved) (s : Shared S) :
    Except Repository.Error Fragment :=
  ((r.fragmentSource.loadFragment ref.name ref.path r.fragmentBase).run
    (s.atGate Cache.fragmentSlot ref.key)).1

theorem run_loadFragment_sparing (spares : r.fragmentSource.SparesCache) (ref : Resolved)
    (s : Shared S) : ∃ shelf store,
      (Assembly.loadFragment r.fragmentSource r.fragmentBase ref).run s =
        ((Cache.fetch ref.key (r.fragmentAnswer ref s) s.cache.fragments.entries).1,
          { cache := { s.cache with fragments := shelf }, store }) ∧
      shelf.entries =
        (Cache.fetch ref.key (r.fragmentAnswer ref s) s.cache.fragments.entries).2 := by
  obtain ⟨shelf, hrun, hshelf⟩ := Cache.run_getOrLoad_sparing (s := s) Cache.fragmentSlot_lawful
    ref.key (spares.loadFragment ref.name ref.path r.fragmentBase _)
  exact ⟨shelf, _, hrun, hshelf⟩

/-- The state in which a registry comes to a reference, after the ones before it. -/
def before (r : Registry S) (base : Vars) (refs : List FragmentRef) (s : Shared S) : Shared S :=
  ((r.attempts base refs).run s).2

/-- The repository was asked for a reference, under whose key nothing was cached when its turn came,
and this is the key and what it returned. -/
def IsReturned (r : Registry S) (base : Vars) (refs : List FragmentRef) (s : Shared S)
    (key : String) (f : Fragment) : Prop :=
  ∃ earlier ref later, refs = earlier ++ ref :: later ∧
    let resolved := resolveRef base ref
    let s' := r.before base earlier s
    key = resolved.key ∧ s'.cache.find? Cache.fragmentSlot key = none ∧
      r.fragmentAnswer resolved s' = .ok f

theorem before_cons {base : Vars} {ref : FragmentRef} {s' : Shared S}
    (first : ((Assembly.loadFragment r.fragmentSource r.fragmentBase (resolveRef base ref)).run s).2
      = s') (refs : List FragmentRef) : r.before base (ref :: refs) s = r.before base refs s' := by
  subst first
  rw [before, attempts, Assembly.run_attempts_cons]
  rfl

theorem grows_before (spares : r.fragmentSource.SparesCache) (base : Vars)
    (refs : List FragmentRef) (s : Shared S) :
    (r.before base refs s).cache.prompts = s.cache.prompts ∧ s.cache.fragments.entries.Grows
      (r.IsReturned base refs s) (r.before base refs s).cache.fragments.entries := by
  induction refs generalizing s with
  | nil => exact ⟨rfl, .refl _⟩
  | cons ref refs ih =>
    obtain ⟨shelf, store, hrun, hshelf⟩ :=
      run_loadFragment_sparing spares (resolveRef base ref) s
    have next (refs) : r.before base (ref :: refs) s =
        r.before base refs { cache := { s.cache with fragments := shelf }, store } :=
      before_cons (congrArg Prod.snd hrun) refs
    have first := Cache.grows_fetch (resolveRef base ref).key
      (r.fragmentAnswer (resolveRef base ref) s) s.cache.fragments.entries
    rw [← hshelf] at first
    obtain ⟨prompts, rest⟩ := ih { cache := { s.cache with fragments := shelf }, store }
    rw [next]
    refine ⟨prompts, (first.mono ?here).trans (rest.mono ?later)⟩
    case here =>
      rintro k f ⟨rfl, missing, returned⟩
      exact ⟨[], ref, refs, rfl, rfl, missing, returned⟩
    case later =>
      rintro k f ⟨earlier, ref', later, rfl, returned⟩
      exact ⟨ref :: earlier, ref', later, rfl, by rwa [next]⟩

theorem IsReturned.of_take {base : Vars} {refs : List FragmentRef} {n : Nat} {k : String}
    {f : Fragment} (h : r.IsReturned base (refs.take n) s k f) :
    r.IsReturned base refs s k f := by
  obtain ⟨earlier, ref, later, split, returned⟩ := h
  refine ⟨earlier, ref, later ++ refs.drop n, ?_, returned⟩
  rw [← List.cons_append, ← List.append_assoc, ← split, List.take_append_drop]

/-- Preparing variables tries the references up to some point, which may be the first or the
last. -/
theorem state_prepareVariables (r : Registry S) (c : Config) (vars : Vars) (t : String)
    (s : Shared S) : ∃ n, ((r.prepareVariables c vars t).run s).2 =
      r.before (baseVars c vars) (c.fragments.take n) s := by
  by_cases missing : Template.missingVars c.requiredVars vars = []
  · have passed : Template.checkRequired c.requiredVars vars = .ok () := by
      rw [Template.checkRequired, missing]
    rcases run_prepareVariables_cases (r := r) t s passed with
      ⟨-, bindings, hrun, -⟩ | ⟨tried, a, rest, cause, -, -, -, -, hrun⟩
    · exact ⟨c.fragments.length, by rw [hrun, List.take_length, before]⟩
    · exact ⟨tried.length + 1, by rw [hrun, before]⟩
  · exact ⟨0, by rw [run_prepareVariables_of_missing missing]; rfl⟩

/-- The operation neither clears nor registers anything. -/
def Operation.Asks : Operation → Prop
  | .clearCache => False
  | .register _ _ => False
  | _ => True

def Operation.taskType? : Operation → Option String
  | .loadConfig t => some t
  | .assemble q => some q.taskType
  | .info t => some t
  | .report t => some t
  | _ => none

/-- The configuration is what the repository returns, with defaults filled in. -/
def IsPopulated (r : Registry S) (s : Shared S) (t : String) (c : Config) : Prop :=
  ∃ raw, r.promptAnswer t s = .ok raw ∧ c = raw.withDefaults

/-- From the one state to the other the cache only gains entries: the configuration that the
operation needs and, if it assembles, fragments that the repository returned for the references in
it. If the configuration loads, it is there in the end; if not, there is nothing to gain. -/
structure Appends (r : Registry S) (op : Operation) (s s' : Shared S) : Prop where
  prompts : s.cache.prompts.entries.Grows
    (fun k c => op.taskType? = some k ∧ r.IsPopulated s k c) s'.cache.prompts.entries
  fragments : s.cache.fragments.entries.Grows (fun k f => ∃ q c s₁, op = .assemble q ∧
      (r.loadConfig q.taskType).run s = (.ok c, s₁) ∧
      r.IsReturned (baseVars c q.vars) c.fragments s₁ k f) s'.cache.fragments.entries
  loaded : ∀ t c, op.taskType? = some t → ((r.loadConfig t).run s).1 = .ok c →
    s'.cache.find? Cache.promptSlot t = some c
  failed : ∀ t e, op.taskType? = some t → ((r.loadConfig t).run s).1 = .error e →
    s'.cache.entries = s.cache.entries

variable {op : Operation} {t : String}

theorem populated_eq_ok_iff {loaded : Except Repository.Error Config} {c : Config} :
    populated t loaded = .ok c ↔ ∃ raw, loaded = .ok raw ∧ c = raw.withDefaults := by
  cases loaded <;> simp [populated, eq_comm]

theorem grows_loadConfig (spares : r.fragmentSource.SparesCache) (t : String) (s : Shared S) :
    let result := (r.loadConfig t).run s
    s.cache.prompts.entries.Grows (fun k c => k = t ∧ r.IsPopulated s k c)
        result.2.cache.prompts.entries ∧
      result.2.cache.fragments = s.cache.fragments ∧
      (∀ c, result.1 = .ok c → result.2.cache.find? Cache.promptSlot t = some c) ∧
      ∀ e, result.1 = .error e → result.2.cache.entries = s.cache.entries := by
  obtain ⟨shelf, store, hrun, hshelf⟩ := run_loadConfig_sparing spares t s
  have first := Cache.grows_fetch t (populated t (r.promptAnswer t s))
    s.cache.prompts.entries
  rw [← hshelf] at first
  rw [hrun]
  refine ⟨first.mono ?_, rfl, fun c loaded => ?_, fun e failed => ?_⟩
  · rintro k c ⟨rfl, -, loaded⟩
    exact ⟨rfl, populated_eq_ok_iff.1 loaded⟩
  · show shelf.entries.get? t = some c
    rw [hshelf]
    exact Cache.get?_fetch loaded
  · have same : shelf.entries = s.cache.prompts.entries :=
      hshelf.trans (Cache.fetch_error failed).2.2
    exact congrArg (Entries.mk · s.cache.fragments.entries) same

theorem appends_of_loadConfig (spares : r.fragmentSource.SparesCache) (s : Shared S)
    (needed : op.taskType? = some t) : Appends r op s ((r.loadConfig t).run s).2 := by
  obtain ⟨prompts, fragments, loaded, failed⟩ := grows_loadConfig spares t s
  refine ⟨prompts.mono ?_, fragments ▸ .refl _, fun t' c other => ?_, fun t' e other => ?_⟩
  · rintro k c ⟨rfl, populated⟩
    exact ⟨needed, populated⟩
  · obtain rfl : t = t' := Option.some.inj (needed.symm.trans other)
    exact loaded c
  · obtain rfl : t = t' := Option.some.inj (needed.symm.trans other)
    exact failed e

theorem appends_answer (spares : r.fragmentSource.SparesCache) (q : Request) (s : Shared S) :
    Appends r (.assemble q) s ((r.answer q).run s).2 := by
  cases held : (r.loadConfig q.taskType).run s with
  | mk loaded s₁ =>
    have loading : Appends r (.assemble q) s ((r.loadConfig q.taskType).run s).2 :=
      appends_of_loadConfig spares s rfl
    rw [held] at loading
    cases loaded with
    | error e =>
      have ended : ((r.answer q).run s).2 = s₁ := by
        rw [answer, assemble, StateT.run_bind, held]
        rfl
      rwa [ended]
    | ok c =>
      obtain ⟨n, hn⟩ := state_prepareVariables r c q.vars q.taskType s₁
      obtain ⟨prompts, fragments⟩ :=
        grows_before spares (baseVars c q.vars) (c.fragments.take n) s₁
      rw [run_answer_of_held held]
      show Appends r _ s ((r.prepareVariables c q.vars q.taskType).run s₁).2
      rw [hn]
      refine ⟨prompts ▸ loading.prompts, loading.fragments.trans (fragments.mono ?_),
        fun t c needed hloaded => ?_, ?_⟩
      · exact fun k f returned => ⟨q, c, s₁, rfl, held, returned.of_take⟩
      · exact (congrArg (·.entries.get? t) prompts).trans (loading.loaded t c needed hloaded)
      · rintro t e ⟨⟩ failed
        rw [held] at failed
        cases failed

theorem cache_listTaskTypes (spares : r.fragmentSource.SparesCache) (s : Shared S) :
    ((r.listTaskTypes).run s).2.cache = s.cache := by
  cases attached : r.repository with
  | none => simp only [listTaskTypes, attached]; rfl
  | some repo =>
    rw [fragmentSource, attached, Option.getD_some] at spares
    have spared := spares.listPrompts s
    simp only [listTaskTypes, attached]
    show (StateT.run (repo.listPrompts >>= _) s).2.cache = s.cache
    rw [StateT.run_bind]
    revert spared
    rcases repo.listPrompts.run s with ⟨e | ⟨_ | ⟨t, ts⟩⟩, s'⟩ <;> exact id

theorem appends_perform (spares : r.fragmentSource.SparesCache) (asks : op.Asks)
    (s : Shared S) : Appends r op s ((r.perform op).run s).2 := by
  cases op with
  | loadConfig t => exact appends_of_loadConfig spares s rfl
  | info t => exact appends_of_loadConfig spares s rfl
  | report t => exact appends_of_loadConfig spares s rfl
  | assemble q => exact appends_answer spares q s
  | listTaskTypes =>
    have cache : ((r.perform .listTaskTypes).run s).2.cache = s.cache :=
      cache_listTaskTypes spares s
    refine ⟨?_, ?_, fun _ _ none => (by cases none), fun _ _ none => (by cases none)⟩
    all_goals
      rw [cache]
      exact .refl _
  | clearCache => exact asks.elim
  | register t c => exact asks.elim

/-- However often a registry is asked, entries stay. Configurations come only for task types that
are asked for, and fragments only with an assembly. -/
theorem grows_performAll (spares : r.fragmentSource.SparesCache) {ops : List Operation}
    (asks : ∀ op ∈ ops, op.Asks) (s : Shared S) :
    let s' := ((r.performAll ops).run s).2
    s.cache.prompts.entries.Grows (fun k _ => ∃ op ∈ ops, op.taskType? = some k)
        s'.cache.prompts.entries ∧
      s.cache.fragments.entries.Grows (fun _ _ => ∃ q, .assemble q ∈ ops)
        s'.cache.fragments.entries := by
  induction ops generalizing s with
  | nil => exact ⟨.refl _, .refl _⟩
  | cons op ops ih =>
    obtain ⟨first, others⟩ := List.forall_mem_cons.1 asks
    have step := appends_perform spares first s
    obtain ⟨prompts, fragments⟩ := ih others ((r.perform op).run s).2
    rw [run_performAll_cons]
    constructor
    · refine (step.prompts.mono ?_).trans (prompts.mono ?_)
      · exact fun k _ ⟨needed, _⟩ => ⟨op, List.mem_cons_self, needed⟩
      · exact fun k _ ⟨other, mem, needed⟩ => ⟨other, List.mem_cons_of_mem _ mem, needed⟩
    · refine (step.fragments.mono ?_).trans (fragments.mono ?_)
      · rintro k _ ⟨q, _, _, rfl, _⟩
        exact ⟨q, List.mem_cons_self⟩
      · exact fun k _ ⟨q, mem⟩ => ⟨q, List.mem_cons_of_mem _ mem⟩

/-- The one condition is that the repository leaves the cache to the registry, as those in memory and
in a directory do (`Memory.sparesCache`, `Directory.sparesCache`). Then whatever a registry is asked
for, with whatever cache and however it ends, the entries of the cache stay, and none comes if the
configuration does not load. Otherwise the configuration is there in the end; if it was not before,
it is as the repository returns it, with defaults filled in. Fragments come only with an assembly,
each under the key of a reference of the configuration, as the repository returned it for the
reference. This holds as well where the assembled prompt is all that is wanted. -/
theorem asking_appends (spares : r.fragmentSource.SparesCache) (s : Shared S) :
    (∀ op : Operation, op.Asks → Appends r op s ((r.perform op).run s).2) ∧
      ∀ q : Request, Appends r (.assemble q) s
        ((r.load? q.taskType q.vars q.model).run s).2 :=
  ⟨fun _ asks => appends_perform spares asks s, fun q => appends_answer spares q s⟩

/-- A repository whose answers tell how often it has been called. Of the references one is cached,
one is missing and one is missing and required, so that the last is not tried. -/
theorem asking_appends_counted :
    let c : Config := {
      taskType := "t"
      fragments := [{ name := "{{who}}", path := some "{{where}}/x" }, { name := "kept" },
        { name := "gone" }, { name := "{{who}}", path := some "{{empty}}" },
        { name := "gone", required := true }, { name := "late" }] }
    let repo : Repository Nat := {
      loadPrompt := fun t =>
        changing fun n => (if t = "t" then .ok c else .error (.notFound t), n + 1)
      loadFragment := fun name path _ => changing fun n =>
        (if name = "gone" then .error (.notFound name)
          else .ok { content := s!"{path.getD name} {n}" }, n + 1)
      listPrompts := changing fun n => (.ok [], n + 1)
      savePrompt := fun _ => return .ok () }
    let r : Registry Nat := { repository := some repo }
    let s : Shared Nat := {
      cache := ({} : Cache).insert Cache.fragmentSlot "kept" { content := "old" }, store := 0 }
    let q : Request := {
      taskType := "t", vars := Dict.ofList [("who", "Ann"), ("where", "here"), ("empty", "")] }
    let s' := ((r.perform (.assemble q)).run s).2
    r.fragmentSource.SparesCache ∧
      (∀ op : Operation, op.Asks → Appends r op s ((r.perform op).run s).2) ∧
      ((r.answer q).run s).1 = .error (.missingFragment "gone" "gone" (.notFound "gone")) ∧
      s'.cache.find? Cache.promptSlot "t" = some c.withDefaults ∧
      s'.cache.keys Cache.fragmentSlot = ["Ann", "here/x", "kept"] ∧
      s'.cache.find? Cache.fragmentSlot "kept" = some { content := "old" } ∧
      s'.cache.find? Cache.fragmentSlot "here/x" = some { content := "here/x 1" } ∧
      s'.cache.find? Cache.fragmentSlot "Ann" = some { content := "Ann 3" } ∧
      ((r.perform (.assemble { q with taskType := "u" })).run s).2.cache.entries =
        s.cache.entries := by
  intro c repo r s q s'
  have spares : r.fragmentSource.SparesCache :=
    ⟨fun _ _ => rfl, fun _ _ _ _ => rfl, fun _ => rfl⟩
  obtain ⟨appends, -⟩ := asking_appends spares s
  have stays := (appends (.assemble q) trivial).fragments.kept "kept" { content := "old" }
  have unchanged := (appends (.assemble { q with taskType := "u" }) trivial).failed "u"
    (.loading "u" (.notFound "u")) rfl
  refine ⟨spares, appends, ?_, ?_, ?_, stays (by decide +kernel), ?_, ?_,
    unchanged (by decide +kernel)⟩
  all_goals decide +kernel

end Registry
end PromptAssembly
