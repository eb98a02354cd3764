import Mathlib.Data.List.Basic
import PromptAssembly.Settings

/-!
# What merging leaves at a place

A source comes down to a list of what it gives, each with the names that lead to it
(`Table.given`). What is at a place after sources have been laid over each other depends on nothing
else: they overrule each other there one after the other (`settingAt_foldl_overlay`), and most of
what they give does not concern the place at all. No name comes twice in the tables that come about
(`Distinct`).
-/
namespace PromptAssembly.Settings
open Text (lower)

/-- The node that names lead to. -/
def nodeAt : List String → Json → Option Json
  | [], j => some j
  | name :: names, j => ((tableOf j).lookup name).bind (nodeAt names)

/-- A table is no setting itself. Of a list it does not matter what it holds. -/
def content? : Json → Option Json
  | .object _ => none
  | .array _ => some (.array [])
  | j => some j

def settingAt (names : List String) (tree : Json) : Option Json := (nodeAt names tree).bind content?

/-- What a source gives, with the names that lead to it. -/
structure Given where
  names : List String
  value : Json
  deriving DecidableEq, Repr

namespace Given

def below (name : String) (g : Given) : Given := { g with names := name :: g.names }

/-- What is given makes tables of all nodes above it, and leaves none below it unless it is a table
itself. -/
def apply (g : Given) (names : List String) (old : Option Json) : Option Json :=
  if g.names = names then (content? g.value).or old
  else if names <+: g.names then none
  else if g.names <+: names ∧ (content? g.value).isSome then none
  else old

end Given

mutual

def given : Json → List Given
  | .object [] => [⟨[], .object []⟩]
  | .object (e :: es) => givenIn (e :: es)
  | j => [⟨[], j⟩]

def givenIn : Table → List Given
  | [] => []
  | (name, j) :: es => (given j).map (Given.below (lower name)) ++ givenIn es

end

/-- What is given by a node at a place. -/
def givenAt (j : Json) : List Step → List Given
  | [] => given j
  | [.entry name] => (given j).map (Given.below (lower name))
  | .entry name :: steps => (givenAt j steps).map (Given.below name)
  | .item _ :: _ => [⟨[], .array []⟩]

def Table.given (source : Table) : List Given :=
  source.flatMap fun (name, j) => givenAt j (place name)

/-- What there is at a place when all this has been given. -/
def outcome (names : List String) (gs : List Given) (old : Option Json) : Option Json :=
  gs.foldl (fun old g => g.apply names old) old

section
variable {name key : String} {names : List String} {gs : List Given} {old : Option Json}

@[simp] theorem outcome_nil : outcome names [] old = old := rfl

@[simp] theorem outcome_cons (g : Given) :
    outcome names (g :: gs) old = outcome names gs (g.apply names old) := rfl

theorem outcome_append (gs hs : List Given) :
    outcome names (gs ++ hs) old = outcome names hs (outcome names gs old) :=
  List.foldl_append

@[simp] theorem Given.apply_below_nil (g : Given) : (g.below name).apply [] old = none := by
  simp [apply, below]

@[simp] theorem Given.apply_below_cons (g : Given) :
    (g.below name).apply (key :: names) old = if key = name then g.apply names old else old := by
  by_cases h : key = name
  · simp [apply, below, h]
  · simp [apply, below, h, Ne.symm h]

theorem outcome_below_nil_none : outcome [] (gs.map (Given.below name)) none = none := by
  induction gs with
  | nil => rfl
  | cons g gs ih => simpa using ih

theorem outcome_below_nil (h : gs ≠ []) : outcome [] (gs.map (Given.below name)) old = none := by
  cases gs with
  | nil => exact absurd rfl h
  | cons g gs => simpa using outcome_below_nil_none

theorem outcome_below_cons : outcome (key :: names) (gs.map (Given.below name)) old =
    if key = name then outcome names gs old else old := by
  induction gs generalizing old with
  | nil => simp
  | cons g gs ih =>
    rw [List.map_cons, outcome_cons, ih, Given.apply_below_cons]
    by_cases h : key = name <;> simp [h]

end

theorem given_ne_nil : ∀ j : Json, given j ≠ []
  | .object [] => by simp [given]
  | .object (e :: es) => by simp [given, givenIn, given_ne_nil e.2]
  | .null | .bool _ | .int _ | .float _ | .string _ | .array _ => by simp [given]

section
variable {name key : String} {names : List String}

@[simp] theorem settingAt_object (es : Table) : settingAt [] (.object es) = none := rfl

theorem settingAt_cons (j : Json) : settingAt (key :: names) j =
    ((tableOf j).lookup key).bind (settingAt names) := by
  rw [settingAt, nodeAt, Option.bind_assoc]
  rfl

theorem settingAt_put (t : Table) (j : Json) : settingAt (key :: names) (.object (t.put name j)) =
    if key = name then settingAt names j else settingAt (key :: names) (.object t) := by
  rw [settingAt_cons, settingAt_cons, tableOf, Table.lookup_put]
  by_cases h : key = name <;> simp [h, tableOf]

theorem settingAt_getD (t : Table) : settingAt names ((t.lookup name).getD (.object [])) =
    settingAt (name :: names) (.object t) := by
  rw [settingAt_cons, tableOf]
  cases t.lookup name with
  | some j => rfl
  | none => cases names <;> rfl

theorem settingAt_put_flat (t : Table) {j : Json} (flat : (content? j).isSome) :
    settingAt names (.object (t.put name j)) =
      outcome names ([⟨[], j⟩].map (Given.below name)) (settingAt names (.object t)) := by
  cases names with
  | nil => rw [outcome_below_nil (List.cons_ne_nil _ _), settingAt_object]
  | cons k names =>
    rw [settingAt_put, outcome_below_cons]
    congr 1
    cases names with
    | nil =>
      obtain ⟨c, hc⟩ := Option.isSome_iff_exists.1 flat
      simp [Given.apply, settingAt, nodeAt, hc]
    | cons k' names =>
      have empty : tableOf j = [] := by
        cases j with
        | object es => cases flat
        | _ => rfl
      simp [Given.apply, settingAt_cons, empty, flat]

theorem outcome_given_object (es : Table) (old : Option Json) :
    outcome names (given (.object es)) old = outcome names (givenIn es) old := by
  cases es with
  | nil => cases names <;> simp [given, givenIn, Given.apply, content?]
  | cons e es => rw [given]

end

mutual

theorem settingAt_set (t : Table) (name : String) (names : List String) : ∀ j : Json,
    settingAt names (.object (t.set name j)) =
      outcome names ((given j).map (Given.below name)) (settingAt names (.object t))
  | .object es => by
    rw [Table.set]
    cases names with
    | nil => rw [outcome_below_nil (given_ne_nil _), settingAt_object]
    | cons k names =>
      rw [settingAt_put, outcome_below_cons, outcome_given_object, settingAt_merge _ _ es,
        settingAt_getD]
      by_cases h : k = name <;> simp [h]
  | .null | .bool _ | .int _ | .float _ | .string _ | .array _ => settingAt_put_flat t rfl

theorem settingAt_merge (target : Json) (names : List String) : ∀ es : Table,
    settingAt names (merge target es) = outcome names (givenIn es) (settingAt names target)
  | [] => by rw [merge, givenIn, outcome_nil]
  | (key, j) :: es => by
    rw [merge, settingAt_merge _ _ es, settingAt_set _ _ _ j, givenIn, outcome_append]
    cases names with
    | nil => rw [outcome_below_nil (given_ne_nil j), outcome_below_nil (given_ne_nil j)]
    | cons k names => rw [settingAt_cons, settingAt_cons, tableOf]

end

theorem givenAt_ne_nil (j : Json) : ∀ steps, givenAt j steps ≠ []
  | [] => given_ne_nil j
  | [.entry _] => by simp [givenAt, given_ne_nil]
  | .entry _ :: step :: steps => by simp [givenAt, givenAt_ne_nil j (step :: steps)]
  | .item _ :: _ => by simp [givenAt]

theorem outcome_givenAt_nil (j : Json) {steps : List Step} (h : steps ≠ [])
    (old old' : Option Json) :
    outcome [] (givenAt j steps) old = outcome [] (givenAt j steps) old' := by
  match steps with
  | [.entry _] =>
    rw [givenAt, outcome_below_nil (given_ne_nil j), outcome_below_nil (given_ne_nil j)]
  | .entry _ :: step :: steps =>
    have proper := givenAt_ne_nil j (step :: steps)
    rw [givenAt, outcome_below_nil proper, outcome_below_nil proper]
    simp
  | .item _ :: _ => simp [givenAt, Given.apply, content?]

theorem settingAt_setAt (j : Json) : ∀ (steps : List Step) (node : Json) (names : List String),
    steps ≠ [] → settingAt names (setAt j steps node) =
      outcome names (givenAt j steps) (settingAt names node)
  | [.entry key], node, names, _ => by
    rw [setAt, givenAt, settingAt_set]
    cases names with
    | nil => rw [outcome_below_nil (given_ne_nil j), outcome_below_nil (given_ne_nil j)]
    | cons k names => rw [settingAt_cons, settingAt_cons, tableOf]
  | .entry key :: step :: steps, node, names, _ => by
    rw [setAt, givenAt]
    · cases names with
      | nil => rw [outcome_below_nil (givenAt_ne_nil j _), settingAt_object]
      | cons k names =>
        rw [settingAt_put, outcome_below_cons,
          settingAt_setAt j (step :: steps) _ names (List.cons_ne_nil _ _), settingAt_cons node,
          settingAt_cons, tableOf]
        by_cases h : k = key
        · subst h
          cases hnode : (tableOf node).lookup k with
          | some j' => simp
          | none =>
            -- the null that is put there for want of a node goes away again
            cases names with
            | nil => simpa using outcome_givenAt_nil j (List.cons_ne_nil _ _) _ _
            | cons k' names => simp [settingAt_cons, tableOf]
        · simp [h]
    · simp
    · simp
  | .item i :: steps, node, names, _ => by
    rw [setAt, givenAt]
    cases names with
    | nil => simp [settingAt, nodeAt, content?, Given.apply]
    | cons k names => simp [settingAt_cons, tableOf, content?, Given.apply]

theorem exists_place_eq (s : String) : ∃ name steps, place s = .entry name :: steps := by
  unfold place
  dsimp only
  split
  · exact ⟨_, _, rfl⟩
  · exact ⟨_, _, rfl⟩

theorem place_ne_nil (s : String) : place s ≠ [] := by
  obtain ⟨name, steps, h⟩ := exists_place_eq s
  exact h ▸ List.cons_ne_nil _ _

theorem exists_overlay_eq (source : Table) (es : Table) :
    ∃ es', overlay (.object es) source = .object es' := by
  induction source generalizing es with
  | nil => exact ⟨es, rfl⟩
  | cons e source ih =>
    obtain ⟨name, steps, hplace⟩ := exists_place_eq e.1
    obtain ⟨es', hes'⟩ : ∃ es', setAt e.2 (place e.1) (.object es) = .object es' := by
      rw [hplace]
      cases steps <;> exact ⟨_, rfl⟩
    obtain ⟨rest, hrest⟩ := ih es'
    exact ⟨rest, (congrArg (overlay · source) hes').trans hrest⟩

theorem Table.given_cons (e : String × Json) (source : Table) :
    Table.given (e :: source) = givenAt e.2 (place e.1) ++ Table.given source :=
  List.flatMap_cons

theorem settingAt_overlay (tree : Json) (source : Table) (names : List String) :
    settingAt names (overlay tree source) = outcome names source.given (settingAt names tree) := by
  induction source generalizing tree with
  | nil => rfl
  | cons e source ih =>
    rw [overlay, List.foldl_cons, ← overlay, ih, settingAt_setAt _ _ _ _ (place_ne_nil _),
      Table.given_cons, outcome_append]

/-- Sources lie over each other as if one had given what they all give. -/
theorem settingAt_foldl_overlay (tree : Json) (sources : List Table) (names : List String) :
    settingAt names (sources.foldl overlay tree) =
      outcome names (sources.flatMap Table.given) (settingAt names tree) := by
  induction sources generalizing tree with
  | nil => rfl
  | cons source sources ih =>
    rw [List.foldl_cons, ih, settingAt_overlay, List.flatMap_cons, outcome_append]

/-- Has a say in what is at a place: is given there or, other than a table, above it, or makes a
table of it. -/
def Given.Concerns (g : Given) (names : List String) : Prop :=
  (names <+: g.names ∧ names ≠ g.names) ∨ (g.names <+: names ∧ (content? g.value).isSome)

section
variable {names above : List String} {gs : List Given} {old : Option Json}

theorem Given.apply_of_not_concerns {g : Given} (h : ¬ g.Concerns names) :
    g.apply names old = old := by
  obtain ⟨apart, under⟩ := not_or.1 h
  by_cases same : g.names = names
  · have table : content? g.value = none := by
      simpa [same] using under
    simp [apply, same, table]
  · have apart' : ¬ names <+: g.names := fun longer => apart ⟨longer, Ne.symm same⟩
    simp only [apply, if_neg same, if_neg apart', if_neg under]

theorem outcome_of_not_concerns (h : ∀ g ∈ gs, ¬ g.Concerns names) :
    outcome names gs old = old := by
  induction gs with
  | nil => rfl
  | cons g gs ih =>
    obtain ⟨hg, hgs⟩ := List.forall_mem_cons.1 h
    rw [outcome_cons, Given.apply_of_not_concerns hg, ih hgs]

/-- Above a place that nothing concerns there is nothing but tables. -/
theorem outcome_above (longer : above <+: names) (h : ∀ g ∈ gs, ¬ g.Concerns names) :
    outcome above gs none = none := by
  induction gs with
  | nil => rfl
  | cons g gs ih =>
    obtain ⟨hg, hgs⟩ := List.forall_mem_cons.1 h
    have left : g.apply above none = none := by
      by_cases same : g.names = above
      · have table : content? g.value = none := by
          by_contra other
          exact hg (.inr ⟨same ▸ longer, by simpa [Option.isSome_iff_ne_none] using other⟩)
        simp [Given.apply, same, table]
      · simp [Given.apply, same]
    rw [outcome_cons, left, ih hgs]

theorem Given.apply_of_concerns {g : Given} (h : g.Concerns names) :
    g.apply names old = g.apply names none := by
  rcases h with ⟨longer, other⟩ | ⟨under, flat⟩
  · simp [apply, Ne.symm other, longer]
  · obtain ⟨c, hc⟩ := Option.isSome_iff_exists.1 flat
    simp [apply, under, hc]

theorem outcome_of_concerns (h : ∃ g ∈ gs, g.Concerns names) :
    outcome names gs old = outcome names gs none := by
  induction gs generalizing old with
  | nil => simp at h
  | cons g gs ih =>
    rw [outcome_cons, outcome_cons]
    by_cases head : g.Concerns names
    · rw [Given.apply_of_concerns head]
    · rw [Given.apply_of_not_concerns head, Given.apply_of_not_concerns head]
      obtain ⟨k, hk, concerns⟩ := h
      exact ih ⟨k, (List.mem_cons.1 hk).resolve_left fun same => head (same ▸ concerns), concerns⟩

end

/-- No table has a name twice. -/
def Distinct (tree : Json) : Prop :=
  ∀ names es, nodeAt names tree = some (.object es) → (es.map (·.1)).Nodup

theorem distinct_object_iff {es : Table} : Distinct (.object es) ↔
    (es.map (·.1)).Nodup ∧ ∀ name j, es.lookup name = some j → Distinct j := by
  constructor
  · exact fun h => ⟨h [] es rfl, fun name j hj names es' hes' =>
      h (name :: names) es' (by simpa [nodeAt, tableOf, hj] using hes')⟩
  · rintro ⟨nodup, below⟩ names es' hes'
    cases names with
    | nil =>
      obtain rfl : es = es' := by simpa [nodeAt] using hes'
      exact nodup
    | cons name names =>
      obtain ⟨j, hj, hes'⟩ := Option.bind_eq_some_iff.1 hes'
      exact below name j hj names es' hes'

theorem distinct_empty : Distinct (.object []) :=
  distinct_object_iff.2 ⟨List.nodup_nil, fun _ _ h => by cases h⟩

theorem tableOf_of_content? {j : Json} (flat : (content? j).isSome) : tableOf j = [] := by
  cases j with
  | object es => cases flat
  | _ => rfl

theorem distinct_of_content? {j : Json} (flat : (content? j).isSome) : Distinct j := by
  intro names es hes
  cases names with
  | nil =>
    obtain rfl : j = .object es := by simpa [nodeAt] using hes
    cases flat
  | cons name names => simp [nodeAt, tableOf_of_content? flat] at hes

theorem Distinct.tableOf {j : Json} (h : Distinct j) : Distinct (.object (tableOf j)) := by
  cases j with
  | object es => exact h
  | _ => exact distinct_empty

theorem Distinct.getD {t : Table} (h : Distinct (.object t)) (name : String) {default : Json}
    (hd : Distinct default) : Distinct ((t.lookup name).getD default) := by
  cases hj : t.lookup name with
  | none => exact hd
  | some j => exact (distinct_object_iff.1 h).2 name j hj

theorem mem_names_put {t : Table} {name key : String} {j : Json} :
    name ∈ (t.put key j).map (·.1) ↔ name = key ∨ name ∈ t.map (·.1) := by
  induction t with
  | nil => simp [Table.put]
  | cons e t ih =>
    rw [Table.put]
    split
    · next same => simp [same]
    · simp only [List.map_cons, List.mem_cons, ih]
      tauto

theorem Distinct.put {t : Table} {j : Json} (h : Distinct (.object t)) (hj : Distinct j)
    (name : String) : Distinct (.object (t.put name j)) := by
  obtain ⟨nodup, below⟩ := distinct_object_iff.1 h
  refine distinct_object_iff.2 ⟨?_, fun name' j' hj' => ?_⟩
  · clear h below
    induction t with
    | nil => simp [Table.put]
    | cons e t ih =>
      obtain ⟨fresh, rest⟩ := List.nodup_cons.1 nodup
      rw [Table.put]
      split
      · next same => exact List.nodup_cons.2 ⟨same ▸ fresh, rest⟩
      · next other =>
        refine List.nodup_cons.2 ⟨fun again => ?_, ih rest⟩
        exact (mem_names_put.1 again).elim other fresh
  · rw [Table.lookup_put] at hj'
    split at hj'
    · exact Option.some.inj hj' ▸ hj
    · exact below name' j' hj'

mutual

theorem Distinct.set {t : Table} (h : Distinct (.object t)) (name : String) :
    ∀ j : Json, Distinct (.object (t.set name j))
  | .object es => by
    rw [Table.set]
    exact h.put (Distinct.merge (h.getD name distinct_empty) es) name
  | .null | .bool _ | .int _ | .float _ | .string _ | .array _ =>
    h.put (distinct_of_content? rfl) name

theorem Distinct.merge {target : Json} (h : Distinct target) :
    ∀ es : Table, Distinct (merge target es)
  | [] => by rwa [Settings.merge]
  | (key, j) :: es => by
    rw [Settings.merge]
    exact Distinct.merge (Distinct.set h.tableOf (lower key) j) es

end

theorem Distinct.setAt {j : Json} : ∀ (steps : List Step) {node : Json}, steps ≠ [] →
    Distinct node → Distinct (setAt j steps node)
  | [.entry key], node, _, h => by
    rw [Settings.setAt]
    exact h.tableOf.set _ j
  | .entry key :: step :: steps, node, _, h => by
    rw [Settings.setAt]
    · exact h.tableOf.put (Distinct.setAt (step :: steps) (List.cons_ne_nil _ _)
        (h.tableOf.getD key (distinct_of_content? rfl))) key
    · simp
  | .item i :: steps, node, _, h => by
    rw [Settings.setAt]
    exact distinct_of_content? rfl

theorem Distinct.overlay {tree : Json} (h : Distinct tree) (source : Table) :
    Distinct (overlay tree source) := by
  induction source generalizing tree with
  | nil => exact h
  | cons e source ih => exact ih (h.setAt _ (place_ne_nil _))

theorem Distinct.foldl_overlay {tree : Json} (h : Distinct tree) (sources : List Table) :
    Distinct (sources.foldl Settings.overlay tree) := by
  induction sources generalizing tree with
  | nil => exact h
  | cons source sources ih => exact ih (h.overlay source)

end PromptAssembly.Settings
