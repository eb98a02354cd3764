import Mathlib.Control.Monad.Basic
import PromptAssembly.Proofs.Assembly.Replies

/-!
# What the cache shows

A fragment is cached under its path, or under its name if there is none, but it is loaded by name,
path and base directory together: under one key there may be two fragments. As long as requests
agree on what they load under a key the cache does not show (`Registry.cache_transparent`), and a
request that is made again and again has one answer from the second time on.
-/
namespace PromptAssembly
open Prompt (Config Fragment FragmentRef Assembled)
open Template (Vars)

variable {S : Type}

namespace Assembly

def lookUp (load : Resolved → Except Repository.Error Fragment) (entries : Dict Fragment)
    (a : Resolved) : Except Repository.Error Fragment :=
  (Cache.fetch a.key (load a) entries).1

variable {load : Resolved → Except Repository.Error Fragment} {vars found : Vars} {r : FragmentRef}
  {refs : List FragmentRef} {entries other : Dict Fragment} {k : String} {f : Fragment}
  {e : Repository.Error} {a b : Resolved}

theorem lookUp_of_get?_eq_none (h : entries.get? a.key = none) :
    lookUp load entries a = load a := by
  cases hl : load a with
  | ok f => rw [lookUp, hl, Cache.fetch_of_ok h rfl]
  | error e => rw [lookUp, hl, Cache.fetch_of_error h rfl]

theorem lookUp_of_get? (h : entries.get? a.key = some f) : lookUp load entries a = .ok f := by
  rw [lookUp, Cache.fetch_of_get? h]

theorem collect_of_ok (h : lookUp load entries (resolveRef vars r) = .ok f) :
    collect load vars found (r :: refs) entries =
      collect load vars (found.insert (resolveRef vars r).name f.content) refs
        (Cache.fetch (resolveRef vars r).key (load (resolveRef vars r)) entries).2 := by
  rw [collect]
  rw [lookUp] at h
  generalize Cache.fetch (resolveRef vars r).key (load (resolveRef vars r)) entries = fetched at h ⊢
  obtain ⟨_, _⟩ := fetched
  obtain rfl := h
  rfl

theorem collect_of_required (h : lookUp load entries (resolveRef vars r) = .error e)
    (required : r.required = true) : collect load vars found (r :: refs) entries =
      (.error (.missingFragment (resolveRef vars r).name r.name e), entries) := by
  obtain ⟨hk, hl, _⟩ := Cache.fetch_error h
  rw [collect, Cache.fetch_of_error hk hl]
  simp only [required, if_true]

theorem collect_of_optional (h : lookUp load entries (resolveRef vars r) = .error e)
    (optional : r.required = false) : collect load vars found (r :: refs) entries =
      collect load vars found refs entries := by
  obtain ⟨hk, hl, _⟩ := Cache.fetch_error h
  rw [collect, Cache.fetch_of_error hk hl]
  simp [optional]

/-- The references that are tried: all, or those up to a required one that fails. -/
def reached (load : Resolved → Except Repository.Error Fragment) (vars : Vars) :
    List FragmentRef → Dict Fragment → List Resolved
  | [], _ => []
  | r :: rs, entries =>
    let resolved := resolveRef vars r
    match Cache.fetch resolved.key (load resolved) entries with
    | (.ok _, entries) => resolved :: reached load vars rs entries
    | (.error _, entries) =>
      if r.required then [resolved] else resolved :: reached load vars rs entries

theorem reached_of_ok (h : lookUp load entries (resolveRef vars r) = .ok f) :
    reached load vars (r :: refs) entries = resolveRef vars r :: reached load vars refs
      (Cache.fetch (resolveRef vars r).key (load (resolveRef vars r)) entries).2 := by
  rw [reached]
  rw [lookUp] at h
  generalize Cache.fetch (resolveRef vars r).key (load (resolveRef vars r)) entries = fetched at h ⊢
  obtain ⟨_, _⟩ := fetched
  obtain rfl := h
  rfl

theorem reached_of_required (h : lookUp load entries (resolveRef vars r) = .error e)
    (required : r.required = true) :
    reached load vars (r :: refs) entries = [resolveRef vars r] := by
  obtain ⟨hk, hl, _⟩ := Cache.fetch_error h
  rw [reached, Cache.fetch_of_error hk hl]
  simp only [required, if_true]

theorem reached_of_optional (h : lookUp load entries (resolveRef vars r) = .error e)
    (optional : r.required = false) : reached load vars (r :: refs) entries =
      resolveRef vars r :: reached load vars refs entries := by
  obtain ⟨hk, hl, _⟩ := Cache.fetch_error h
  rw [reached, Cache.fetch_of_error hk hl]
  simp [optional]

theorem head_mem_reached : resolveRef vars r ∈ reached load vars (r :: refs) entries := by
  cases h : lookUp load entries (resolveRef vars r) with
  | ok f => simp [reached_of_ok h]
  | error e => cases hq : r.required <;> simp [reached_of_required, reached_of_optional, h, hq]

theorem lookUp_fetch_of_ok (h : lookUp load entries a = .ok f) (b : Resolved) :
    lookUp load (Cache.fetch a.key (load a) entries).2 b =
      if b.key = a.key then .ok f else lookUp load entries b := by
  have kept := Cache.get?_fetch h
  split
  · next same => exact lookUp_of_get? (same ▸ kept)
  · next distinct =>
    cases hb : entries.get? b.key with
    | some g => rw [lookUp_of_get? hb, lookUp_of_get? (Cache.get?_fetch_of_get? hb)]
    | none =>
      have still : (Cache.fetch a.key (load a) entries).2.get? b.key = none := by
        cases hg : (Cache.fetch a.key (load a) entries).2.get? b.key with
        | none => rfl
        | some g =>
          rcases Cache.get?_fetch_cases hg with hg | ⟨same, _⟩
          · simp [hb] at hg
          · exact absurd same distinct
      rw [lookUp_of_get?_eq_none hb, lookUp_of_get?_eq_none still]

/-- Entries under which every reference that is tried with the others has the same answer. -/
def Alike (load : Resolved → Except Repository.Error Fragment) (vars : Vars)
    (refs : List FragmentRef) (entries other : Dict Fragment) : Prop :=
  ∀ a ∈ reached load vars refs entries, lookUp load entries a = lookUp load other a

theorem Alike.head (h : Alike load vars (r :: refs) entries other) :
    lookUp load entries (resolveRef vars r) = lookUp load other (resolveRef vars r) :=
  h _ head_mem_reached

theorem Alike.of_ok (h : Alike load vars (r :: refs) entries other)
    (found : lookUp load entries (resolveRef vars r) = .ok f) :
    Alike load vars refs
      (Cache.fetch (resolveRef vars r).key (load (resolveRef vars r)) entries).2
      (Cache.fetch (resolveRef vars r).key (load (resolveRef vars r)) other).2 := by
  intro a ha
  have tried : a ∈ reached load vars (r :: refs) entries := by
    rw [reached_of_ok found]
    exact List.mem_cons_of_mem _ ha
  rw [lookUp_fetch_of_ok found, lookUp_fetch_of_ok (h.head ▸ found), h a tried]

theorem Alike.of_optional (h : Alike load vars (r :: refs) entries other)
    (failed : lookUp load entries (resolveRef vars r) = .error e) (optional : r.required = false) :
    Alike load vars refs entries other := by
  intro a ha
  have tried : a ∈ reached load vars (r :: refs) entries := by
    rw [reached_of_optional failed optional]
    exact List.mem_cons_of_mem _ ha
  exact h a tried

theorem collect_congr (h : Alike load vars refs entries other) :
    (collect load vars found refs entries).1 = (collect load vars found refs other).1 := by
  induction refs generalizing found entries other with
  | nil => rfl
  | cons r rs ih =>
    cases hr : lookUp load entries (resolveRef vars r) with
    | ok f =>
      rw [collect_of_ok hr, collect_of_ok (h.head ▸ hr)]
      exact ih (h.of_ok hr)
    | error e =>
      cases hq : r.required with
      | true => rw [collect_of_required hr hq, collect_of_required (h.head ▸ hr) hq]
      | false =>
        rw [collect_of_optional hr hq, collect_of_optional (h.head ▸ hr) hq]
        exact ih (h.of_optional hr hq)

theorem get?_collect_of_get? (h : entries.get? k = some f) :
    (collect load vars found refs entries).2.get? k = some f := by
  induction refs generalizing found entries with
  | nil => exact h
  | cons r rs ih =>
    cases hr : lookUp load entries (resolveRef vars r) with
    | ok g =>
      rw [collect_of_ok hr]
      exact ih (Cache.get?_fetch_of_get? h)
    | error e =>
      cases hq : r.required with
      | true => rwa [collect_of_required hr hq]
      | false =>
        rw [collect_of_optional hr hq]
        exact ih h

/-- A new entry is what one of the references loads under its key. -/
theorem get?_collect_cases (alike : Alike load vars refs entries other)
    (h : (collect load vars found refs other).2.get? k = some f) : other.get? k = some f ∨
      ∃ a ∈ reached load vars refs entries, a.key = k ∧ load a = .ok f := by
  induction refs generalizing found entries other with
  | nil => exact .inl h
  | cons r rs ih =>
    cases hr : lookUp load entries (resolveRef vars r) with
    | ok g =>
      rw [collect_of_ok (alike.head ▸ hr)] at h
      rw [reached_of_ok hr]
      rcases ih (alike.of_ok hr) h with h | later
      · rcases Cache.get?_fetch_cases h with h | ⟨rfl, hl⟩
        · exact .inl h
        · exact .inr ⟨_, List.mem_cons_self, rfl, hl⟩
      · obtain ⟨a, ha, hload⟩ := later
        exact .inr ⟨a, List.mem_cons_of_mem _ ha, hload⟩
    | error e =>
      cases hq : r.required with
      | true =>
        rw [collect_of_required (alike.head ▸ hr) hq] at h
        exact .inl h
      | false =>
        rw [collect_of_optional (alike.head ▸ hr) hq] at h
        rw [reached_of_optional hr hq]
        rcases ih (alike.of_optional hr hq) h with h | later
        · exact .inl h
        · obtain ⟨a, ha, hload⟩ := later
          exact .inr ⟨a, List.mem_cons_of_mem _ ha, hload⟩

/-- Whatever is not there the second time was not to be had the first time: once references have
been collected, collecting them again leaves the entries as they are. -/
theorem collect_settled (found' : Vars) :
    (collect load vars found' refs (collect load vars found refs entries).2).2 =
      (collect load vars found refs entries).2 := by
  induction refs generalizing found found' entries with
  | nil => rfl
  | cons r rs ih =>
    cases hr : lookUp load entries (resolveRef vars r) with
    | ok f =>
      have kept : (collect load vars (found.insert (resolveRef vars r).name f.content) rs
          (Cache.fetch (resolveRef vars r).key (load (resolveRef vars r)) entries).2).2.get?
            (resolveRef vars r).key = some f := get?_collect_of_get? (Cache.get?_fetch hr)
      rw [collect_of_ok hr, collect_of_ok (lookUp_of_get? kept), Cache.fetch_of_get? kept]
      exact ih _
    | error e =>
      cases hq : r.required with
      | true => rw [collect_of_required hr hq, collect_of_required hr hq]
      | false =>
        rw [collect_of_optional hr hq]
        cases hk : (collect load vars found rs entries).2.get? (resolveRef vars r).key with
        | some g =>
          rw [collect_of_ok (lookUp_of_get? hk), Cache.fetch_of_get? hk]
          exact ih _
        | none =>
          have again := (lookUp_of_get?_eq_none hk).trans (Cache.fetch_error hr).2.1
          rw [collect_of_optional again hq]
          exact ih _

end Assembly

namespace Contents
open Assembly (Resolved resolveRef)
variable {contents : Contents S} {base : Option Files.Path} {store : S} {q : Request}

/-- The references that a request tries if nothing is cached. -/
def asked (contents : Contents S) (base : Option Files.Path) (store : S) (q : Request) :
    List Resolved :=
  match contents.config store q.taskType with
  | .error _ => []
  | .ok c =>
    match Template.missingVars c.requiredVars q.vars with
    | [] =>
      Assembly.reached (contents.load base store) (Registry.baseVars c q.vars) c.fragments Dict.empty
    | _ => []

/-- What the earlier request loads under a key, the later one would load under that key. -/
def Agree (contents : Contents S) (base : Option Files.Path) (store : S)
    (earlier later : Request) : Prop :=
  ∀ b ∈ contents.asked base store earlier, ∀ a ∈ contents.asked base store later, b.key = a.key →
    ∀ f, contents.load base store b = .ok f → contents.load base store a = .ok f

/-- Entries that requests over the store have left behind. -/
structure Stems (contents : Contents S) (base : Option Files.Path) (store : S)
    (past : List Request) (es : Entries) : Prop where
  prompts : ∀ t c, es.prompts.get? t = some c → contents.config store t = .ok c
  fragments : ∀ k f, es.fragments.get? k = some f → ∃ q ∈ past, ∃ b ∈ contents.asked base store q,
    b.key = k ∧ contents.load base store b = .ok f

theorem stems_nil : contents.Stems base store [] {} := by
  constructor
  · intro t c h
    simp at h
  · intro k f h
    simp at h

theorem Stems.fetch_config {past : List Request} {es : Entries}
    (h : contents.Stems base store past es) (t : String) :
    (Cache.fetch t (contents.config store t) es.prompts).1 = contents.config store t := by
  cases hk : es.prompts.get? t with
  | some c => rw [Cache.fetch_of_get? hk, h.prompts t c hk]
  | none =>
    cases hl : contents.config store t with
    | ok c => rw [Cache.fetch_of_ok hk rfl]
    | error e => rw [Cache.fetch_of_error hk rfl]

theorem Stems.lookUp {past : List Request} {es : Entries} {a : Resolved}
    (h : contents.Stems base store past es) (agree : ∀ p ∈ past, contents.Agree base store p q)
    (ha : a ∈ contents.asked base store q) :
    Assembly.lookUp (contents.load base store) es.fragments a = contents.load base store a := by
  cases hk : es.fragments.get? a.key with
  | none => exact Assembly.lookUp_of_get?_eq_none hk
  | some f =>
    obtain ⟨p, hp, b, hb, same, hl⟩ := h.fragments a.key f hk
    rw [Assembly.lookUp_of_get? hk, agree p hp b hb a ha same f hl]

theorem Stems.alike {past : List Request} {es : Entries} {c : Config}
    (h : contents.Stems base store past es) (agree : ∀ p ∈ past, contents.Agree base store p q)
    (hc : contents.config store q.taskType = .ok c)
    (complete : Template.missingVars c.requiredVars q.vars = []) :
    Assembly.Alike (contents.load base store) (Registry.baseVars c q.vars) c.fragments Dict.empty
      es.fragments := by
  intro a ha
  have asked : a ∈ contents.asked base store q := by
    simpa only [Contents.asked, hc, complete] using ha
  rw [Assembly.lookUp_of_get?_eq_none rfl, h.lookUp agree asked]

end Contents

namespace Registry
open Assembly (Error)
variable {r : Registry S} {repo : Repository S} {contents : Contents S} {store : S}

theorem reply_of_error {q : Request} {es : Entries} {e : Error}
    (h : (Cache.fetch q.taskType (contents.config store q.taskType) es.prompts).1 = .error e) :
    r.reply contents store q es = (.error e, es) := by
  obtain ⟨hk, hl, _⟩ := Cache.fetch_error h
  rw [reply, Cache.fetch_of_error hk hl]

theorem reply_of_ok {q : Request} {es : Entries} {c : Config}
    (h : (Cache.fetch q.taskType (contents.config store q.taskType) es.prompts).1 = .ok c) :
    r.reply contents store q es =
      (r.finish q c (prepare (contents.load r.fragmentBase store) q c es.fragments).1,
        ⟨(Cache.fetch q.taskType (contents.config store q.taskType) es.prompts).2,
          (prepare (contents.load r.fragmentBase store) q c es.fragments).2⟩) := by
  rw [reply]
  generalize Cache.fetch q.taskType (contents.config store q.taskType) es.prompts = fetched at h ⊢
  obtain ⟨_, _⟩ := fetched
  obtain rfl := h
  rfl

theorem prepare_settled {load : Assembly.Resolved → Except Repository.Error Fragment} {q : Request}
    {c : Config} {entries : Dict Fragment} :
    (prepare load q c (prepare load q c entries).2).2 = (prepare load q c entries).2 := by
  simp only [prepare]
  cases Template.missingVars c.requiredVars q.vars with
  | nil => exact Assembly.collect_settled Dict.empty
  | cons name names => rfl

/-- A request that has been answered leaves nothing to be cached when it comes again. -/
theorem reply_settled (q : Request) (es : Entries) :
    (r.reply contents store q (r.reply contents store q es).2).2 =
      (r.reply contents store q es).2 := by
  cases h : (Cache.fetch q.taskType (contents.config store q.taskType) es.prompts).1 with
  | error e => rw [reply_of_error h, reply_of_error h]
  | ok c =>
    rw [reply_of_ok h, reply_of_ok (by rw [Cache.fetch_settled, h]), Cache.fetch_settled,
      prepare_settled]

theorem replies_cons (q : Request) (qs : List Request) (es : Entries) :
    (r.replies contents store (q :: qs) es).1 = (r.reply contents store q es).1 ::
      (r.replies contents store qs (r.reply contents store q es).2).1 := rfl

theorem replies_replicate {q : Request} {es : Entries}
    (settled : (r.reply contents store q es).2 = es) (n : Nat) :
    (r.replies contents store (List.replicate n q) es).1 =
      List.replicate n (r.reply contents store q es).1 := by
  induction n with
  | zero => rfl
  | succ n ih => rw [List.replicate_succ, replies_cons, settled, ih, ← List.replicate_succ]

variable {past : List Request} {es : Entries} {q : Request}

theorem stems_reply (h : contents.Stems r.fragmentBase store past es)
    (agree : ∀ p ∈ past, contents.Agree r.fragmentBase store p q) :
    contents.Stems r.fragmentBase store (q :: past) (r.reply contents store q es).2 := by
  have fetched := h.fetch_config q.taskType
  cases hc : contents.config store q.taskType with
  | error e =>
    rw [reply_of_error (fetched.trans hc)]
    refine ⟨h.prompts, fun k f hf => ?_⟩
    obtain ⟨p, hp, found⟩ := h.fragments k f hf
    exact ⟨p, List.mem_cons_of_mem q hp, found⟩
  | ok c =>
    rw [reply_of_ok (fetched.trans hc)]
    refine ⟨fun t d ht => ?_, fun k f hf => ?_⟩
    · rcases Cache.get?_fetch_cases ht with ht | ⟨rfl, hd⟩
      · exact h.prompts t d ht
      · exact hd
    · have cases : es.fragments.get? k = some f ∨
          ∃ a ∈ contents.asked r.fragmentBase store q, a.key = k ∧
            contents.load r.fragmentBase store a = .ok f := by
        simp only [prepare] at hf
        simp only [Contents.asked, hc]
        cases hm : Template.missingVars c.requiredVars q.vars with
        | nil =>
          simp only [hm] at hf
          exact Assembly.get?_collect_cases (h.alike agree hc hm) hf
        | cons name names =>
          simp only [hm] at hf
          exact .inl hf
      rcases cases with hf | new
      · obtain ⟨p, hp, found⟩ := h.fragments k f hf
        exact ⟨p, List.mem_cons_of_mem q hp, found⟩
      · exact ⟨q, List.mem_cons_self, new⟩

/-- A request that agrees with all earlier ones is answered as if it were the first. -/
theorem reply_eq_of_agree (h : contents.Stems r.fragmentBase store past es)
    (agree : ∀ p ∈ past, contents.Agree r.fragmentBase store p q) :
    (r.reply contents store q es).1 = (r.reply contents store q {}).1 := by
  have start : contents.Stems r.fragmentBase store [] {} := Contents.stems_nil
  have fetched := h.fetch_config q.taskType
  have fresh := start.fetch_config q.taskType
  cases hc : contents.config store q.taskType with
  | error e => rw [reply_of_error (fetched.trans hc), reply_of_error (fresh.trans hc)]
  | ok c =>
    have same : (prepare (contents.load r.fragmentBase store) q c es.fragments).1 =
        (prepare (contents.load r.fragmentBase store) q c Dict.empty).1 := by
      simp only [prepare]
      cases hm : Template.missingVars c.requiredVars q.vars with
      | cons name names => rfl
      | nil =>
        exact congrArg (Except.map _) (Assembly.collect_congr (h.alike agree hc hm)).symm
    rw [reply_of_ok (fetched.trans hc), reply_of_ok (fresh.trans hc), same]

theorem replies_eq_of_agree {qs : List Request} (h : contents.Stems r.fragmentBase store past es)
    (agree : ∀ p ∈ past, ∀ q ∈ qs, contents.Agree r.fragmentBase store p q)
    (pairwise : qs.Pairwise (contents.Agree r.fragmentBase store)) :
    (r.replies contents store qs es).1 = qs.map fun q => (r.reply contents store q {}).1 := by
  induction qs generalizing past es with
  | nil => rfl
  | cons q qs ih =>
    obtain ⟨later, rest⟩ := List.pairwise_cons.1 pairwise
    have first := reply_eq_of_agree h fun p hp => agree p hp q List.mem_cons_self
    have others := ih (stems_reply h fun p hp => agree p hp q List.mem_cons_self)
      (fun p hp q' hq' => ?_) rest
    · rw [replies_cons, List.map_cons, first, others]
    · rcases List.mem_cons.1 hp with rfl | hp
      · exact later q' hq'
      · exact agree p hp q' (List.mem_cons_of_mem q hq')

/-- Requests that agree with all earlier ones on the references they come to are answered as by a
fresh registry. A request that is made again and again, whatever has been cached before, has one
answer from the second time on. -/
theorem cache_transparent (attached : r.repository = some repo) (reads : repo.Reads contents)
    (store : S) :
    (∀ qs : List Request, qs.Pairwise (contents.Agree r.fragmentBase store) →
      ((r.answers qs).run { store }).1 = qs.map fun q => ((r.answer q).run { store }).1) ∧
    (∀ (q : Request) (cache : Cache), ∃ first again, ∀ n,
      ((r.answers (List.replicate (n + 1) q)).run { cache, store }).1 =
        first :: List.replicate n again) := by
  have answer_eq : ∀ q s, ((r.answer q).run s).1 =
      (r.reply contents s.store q s.cache.entries).1 := by
    intro q s
    obtain ⟨cache, hrun, _⟩ := run_answer attached reads q s
    rw [hrun]
  have answers_eq : ∀ qs s, ((r.answers qs).run s).1 =
      (r.replies contents s.store qs s.cache.entries).1 := by
    intro qs s
    obtain ⟨cache, hrun, _⟩ := run_answers attached reads qs s
    rw [hrun]
  constructor
  · intro qs pairwise
    simp only [answer_eq, answers_eq]
    exact replies_eq_of_agree Contents.stems_nil (by simp) pairwise
  · intro q cache
    refine ⟨(r.reply contents store q cache.entries).1,
      (r.reply contents store q (r.reply contents store q cache.entries).2).1, fun n => ?_⟩
    rw [answers_eq, List.replicate_succ, replies_cons, replies_replicate (reply_settled q _)]

open Repository (Memory)

/-- A region's persona is asked for by name, the tone by path: no key stands for two fragments. -/
theorem cache_transparent_regions :
    let c : Config := {
      taskType := "greet", template := "{{persona_us}}{{persona_uk}}", requiredVars := ["region"]
      fragments := [{ name := "persona_{{region}}" }, { name := "tone", path := some "warm" }] }
    let store : Memory := ((Memory.insertPrompt {} c).insertFragment "persona_us"
      { content := "Hi" }).insertFragment "persona_uk" { content := "Hello" }
    let r : Registry Memory := { repository := some Memory.repository }
    let us : Request := { taskType := "greet", vars := Dict.ofList [("region", "us")] }
    let uk : Request := { taskType := "greet", vars := Dict.ofList [("region", "uk")] }
    (((r.answers [us, uk, us]).run { store }).1 =
        [us, uk, us].map fun q => ((r.answer q).run { store }).1) ∧
      ∃ first again, ∀ n, ((r.answers (List.replicate (n + 1) us)).run { store }).1 =
        first :: List.replicate n again := by
  intro c store r us uk
  let contents : Contents Memory :=
    ⟨Memory.loadPrompt, fun name path _ => Memory.loadFragment name path⟩
  have askedUs : contents.asked none store us = [⟨"persona_us", none⟩, ⟨"tone", some "warm"⟩] := by
    decide +kernel
  have askedUk : contents.asked none store uk = [⟨"persona_uk", none⟩, ⟨"tone", some "warm"⟩] := by
    decide +kernel
  have pairwise : [us, uk, us].Pairwise (contents.Agree none store) := by
    simp [Contents.Agree, askedUs, askedUk, Assembly.Resolved.key]
  have both := cache_transparent (r := r) rfl Memory.reads store
  exact ⟨both.1 _ pairwise, both.2 us {}⟩

/-- Two fragments under one key: what the second reference has cached is there for the first when
the request comes again. -/
theorem cache_shows :
    let c : Config := {
      taskType := "t", template := "{{k}}"
      fragments := [{ name := "k" }, { name := "b", path := some "k", required := true }] }
    let store : Memory := (Memory.insertPrompt {} c).insertFragment "b" { content := "B" }
    let r : Registry Memory :=
      { repository := some Memory.repository, renderer := { strict := true } }
    let q : Request := { taskType := "t" }
    let unresolved := Error.rendering "t" (.unresolvedPlaceholders ["k"])
    ((r.answer q).run { store }).1.map Assembled.text = .error unresolved ∧
      ((r.answers [q, q]).run { store }).1.map (Except.map Assembled.text) =
        [.error unresolved, .ok "B"] ∧
      ((r.answers [q, q]).run { store }).1 ≠
        [q, q].map fun q => ((r.answer q).run { store }).1 := by
  intro c store r q unresolved
  have fresh : ((r.answer q).run { store }).1.map Assembled.text = .error unresolved := by
    decide +kernel
  have warm : ((r.answers [q, q]).run { store }).1.map (Except.map Assembled.text) =
      [.error unresolved, .ok "B"] := by decide +kernel
  refine ⟨fresh, warm, fun same => ?_⟩
  rw [same] at warm
  simp [fresh] at warm

end Registry
end PromptAssembly
