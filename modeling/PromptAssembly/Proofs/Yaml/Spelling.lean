import PromptAssembly.Proofs.Document.Shown
import PromptAssembly.Yaml.Printer
import PromptAssembly.Yaml.Reader

/-!
# Trees that spell a value

A YAML tree spells a value if its scalars stand for the value's scalars, in whatever style, and its
collections have the same shape. Such trees show their values faithfully (`faithful_spells`), so
that records can be read from them. `ReadsBack` says of a value that its text is the text of such a
tree.
-/
namespace PromptAssembly.Yaml
open Document

namespace Node

mutual

/-- Whether the tree is this value's, without tags or aliases. -/
def spells : Node → Json → Bool
  | .scalar none style s, j => scalarValue? none style s = some j
  | .sequence none ns, .array js => spellsItems ns js
  | .mapping none es, .object fs => spellsFields es fs
  | _, _ => false

def spellsItems : List Node → List Json → Bool
  | [], [] => true
  | n :: ns, j :: js => n.spells j && spellsItems ns js
  | _, _ => false

/-- Keys have to mean texts. -/
def spellsFields : List (Node × Node) → List (String × Json) → Bool
  | [], [] => true
  | (k, n) :: es, (name, j) :: fs => k.spells (.string name) && n.spells j && spellsFields es fs
  | _, _ => false

end

variable {n : Node} {j : Json} {style : ScalarStyle} {s : String}

theorem eq_of_scalarValue? {t : String} (h : scalarValue? none style s = some (.string t)) :
    s = t := by
  by_cases hstyle : style = .plain
  · cases hm : meaning s with
    | float x => cases x <;> simp [scalarValue?, hstyle, hm] at h
    | _ => simp_all [scalarValue?]
  · simpa [scalarValue?, hstyle] using h

theorem bool?_of_meaning {b : Bool} (h : meaning s = .bool b) : bool? s = some b := by
  unfold meaning at h
  split at h
  · cases h
  · cases hb : bool? s with
    | some c => simp_all
    | none =>
      simp only [hb] at h
      split at h
      · next m hm =>
        obtain ⟨k, -, hk⟩ := Option.bind_eq_some_iff.1 hm
        unfold meaningOfInt at hk
        grind
      · grind

theorem plain_of_scalarValue? {b : Bool} (h : scalarValue? none style s = some (.bool b)) :
    style = .plain ∧ bool? s = some b := by
  by_cases hstyle : style = .plain
  · refine ⟨hstyle, bool?_of_meaning ?_⟩
    cases hm : meaning s with
    | float x => cases x <;> simp [scalarValue?, hstyle, hm] at h
    | _ => simp_all [scalarValue?]
  · simp [scalarValue?, hstyle] at h

theorem isNull?_of_scalarValue? (h : scalarValue? none style s = some j) (hj : j ≠ .null) :
    isNull? (.scalar none style s) = some false := by
  by_cases hstyle : style = .plain
  · by_cases hs : s.isEmpty || isNull s
    · simp [scalarValue?, hstyle, meaning, hs] at h
      exact absurd h.symm hj
    · simpa [isNull?, hstyle] using hs
  · cases style <;> simp_all [isNull?]

theorem ne_of_scalarValue? (h : scalarValue? none style s = some j) :
    (∀ js, j ≠ .array js) ∧ ∀ fs, j ≠ .object fs := by
  by_cases hstyle : style = .plain
  · cases hm : meaning s with
    | float x => cases x <;> simp [scalarValue?, hstyle, hm] at h <;> simp [← h]
    | wideInt => simp [scalarValue?, hstyle, hm] at h
    | _ => simp [scalarValue?, hstyle, hm] at h; simp [← h]
  · simp [scalarValue?, hstyle] at h
    simp [← h]

@[simp] theorem text?_scalar (tag : Option String) : (scalar tag style s).text? = some s := rfl

theorem exists_scalar_of_spells (h : n.spells j = true) (noArray : ∀ js, j ≠ .array js)
    (noObject : ∀ fs, j ≠ .object fs) :
    ∃ style s, n = .scalar none style s ∧ scalarValue? none style s = some j := by
  cases n with
  | scalar tag style s =>
    cases tag with
    | none => exact ⟨style, s, rfl, by simpa [spells] using h⟩
    | some _ => simp [spells] at h
  | sequence tag _ => cases tag <;> cases j <;> simp_all [spells]
  | mapping tag _ => cases tag <;> cases j <;> simp_all [spells]
  | _ => simp [spells] at h

theorem exists_of_spells_string {t : String} (h : n.spells (.string t) = true) :
    ∃ style, n = .scalar none style t ∧ scalarValue? none style t = some (.string t) := by
  obtain ⟨style, s, rfl, hs⟩ := exists_scalar_of_spells h (by simp) (by simp)
  obtain rfl := eq_of_scalarValue? hs
  exact ⟨style, rfl, hs⟩

theorem exists_of_spells_array {js : List Json} (h : n.spells (.array js) = true) :
    ∃ ns, n = .sequence none ns ∧ spellsItems ns js = true := by
  cases n with
  | scalar tag style s =>
    cases tag with
    | none => exact absurd rfl ((ne_of_scalarValue? (by simpa [spells] using h)).1 js)
    | some _ => simp [spells] at h
  | sequence tag ns => cases tag <;> simp_all [spells]
  | mapping tag _ => cases tag <;> simp [spells] at h
  | _ => simp [spells] at h

theorem exists_of_spells_object {fs : List (String × Json)} (h : n.spells (.object fs) = true) :
    ∃ es, n = .mapping none es ∧ spellsFields es fs = true := by
  cases n with
  | scalar tag style s =>
    cases tag with
    | none => exact absurd rfl ((ne_of_scalarValue? (by simpa [spells] using h)).2 fs)
    | some _ => simp [spells] at h
  | sequence tag _ => cases tag <;> simp [spells] at h
  | mapping tag es => cases tag <;> simp_all [spells]
  | _ => simp [spells] at h

theorem forall₂_of_spellsItems {ns : List Node} {js : List Json} (h : spellsItems ns js = true) :
    List.Forall₂ (fun n j => n.spells j = true) ns js := by
  induction ns generalizing js with
  | nil => cases js <;> simp_all [spellsItems]
  | cons n ns ih =>
    cases js with
    | nil => simp [spellsItems] at h
    | cons j js =>
      rw [spellsItems, Bool.and_eq_true] at h
      exact .cons h.1 (ih h.2)

theorem exists_of_spellsFields {es : List (Node × Node)} {fs : List (String × Json)}
    (h : spellsFields es fs = true) : ∃ ss : List (String × Node),
      es.mapM (fun e => e.1.text?.bind fun name => some (name, e.2)) = some ss ∧
        ShowsFields (fun n j => n.spells j = true) ss fs := by
  induction es generalizing fs with
  | nil =>
    cases fs with
    | nil => exact ⟨[], rfl, .nil⟩
    | cons => simp [spellsFields] at h
  | cons e es ih =>
    cases fs with
    | nil => simp [spellsFields] at h
    | cons f fs =>
      obtain ⟨⟨key, n⟩, name, j⟩ := e, f
      simp only [spellsFields, Bool.and_eq_true] at h
      obtain ⟨ss, hss, shown⟩ := ih h.2
      obtain ⟨style, rfl, -⟩ := exists_of_spells_string h.1.1
      exact ⟨(name, n) :: ss, by simp [hss], .cons ⟨rfl, h.1.2⟩ shown⟩

mutual

theorem value?_of_spells (textKeys : Bool) : ∀ (n : Node) (j : Json),
    n.spells j = true → j.isSorted = true → n.value? textKeys = some j
  | .scalar none style s, j, h, _ => by simpa [spells, value?] using h
  | .scalar (some _) _ _, j, h, _ => by simp [spells] at h
  | .sequence none ns, .array js, h, sorted => by
    have hitems := itemValues?_of_spells textKeys ns js (by simpa [spells] using h)
      (by simpa [Json.isSorted] using sorted)
    simp [value?, isOwnTag, hitems]
  | .mapping none es, .object fs, h, sorted => by
    have hsorted : fs.Pairwise (fun a b => a.1 < b.1) ∧ Json.fieldsSorted fs = true := by
      simpa [Json.isSorted] using sorted
    have hentries := entryValues?_of_spells textKeys es fs (by simpa [spells] using h) hsorted.2
    simp [value?, isOwnTag, hentries, Dict.entries_ofList hsorted.1]

theorem itemValues?_of_spells (textKeys : Bool) : ∀ (ns : List Node) (js : List Json),
    spellsItems ns js = true → Json.itemsSorted js = true → itemValues? textKeys ns = some js
  | [], [], _, _ => rfl
  | n :: ns, j :: js, h, sorted => by
    simp only [spellsItems, Json.itemsSorted, Bool.and_eq_true] at h sorted
    have hn := value?_of_spells textKeys n j h.1 sorted.1
    have hns := itemValues?_of_spells textKeys ns js h.2 sorted.2
    simp [itemValues?, hn, hns]

theorem entryValues?_of_spells (textKeys : Bool) :
    ∀ (es : List (Node × Node)) (fs : List (String × Json)), spellsFields es fs = true →
      Json.fieldsSorted fs = true → entryValues? textKeys es = some fs
  | [], [], _, _ => rfl
  | (key, n) :: es, (name, j) :: fs, h, sorted => by
    simp only [spellsFields, Json.fieldsSorted, Bool.and_eq_true] at h sorted
    have hn := value?_of_spells textKeys n j h.1.2 sorted.1
    have hes := entryValues?_of_spells textKeys es fs h.2 sorted.2
    obtain ⟨style, rfl, hkey⟩ := exists_of_spells_string h.1.1
    cases textKeys <;> simp [entryValues?, hkey, hn, hes]

end

/-- A tree shows the value that it spells. -/
theorem faithful_spells : Faithful fun (n : Node) (j : Json) => n.spells j = true where
  text h := by
    obtain ⟨style, rfl, -⟩ := exists_of_spells_string h
    rfl
  flag h := by
    obtain ⟨style, s, rfl, hs⟩ := exists_scalar_of_spells h (by simp) (by simp)
    obtain ⟨rfl, hb⟩ := plain_of_scalarValue? hs
    exact hb
  isNull {n j} h hj := by
    cases n with
    | scalar tag style s =>
      cases tag with
      | none => exact isNull?_of_scalarValue? (by simpa [spells] using h) hj
      | some _ => simp [spells] at h
    | sequence => rfl
    | mapping => rfl
    | _ => simp [spells] at h
  items h := by
    obtain ⟨ns, rfl, hns⟩ := exists_of_spells_array h
    exact ⟨ns, rfl, forall₂_of_spellsItems hns⟩
  entries h := by
    obtain ⟨es, rfl, hes⟩ := exists_of_spells_object h
    exact exists_of_spellsFields hes
  fields {n fs} names h distinct := by
    obtain ⟨es, rfl, hes⟩ := exists_of_spells_object h
    obtain ⟨ss, hss, shown⟩ := exists_of_spellsFields hes
    have hentries : (mapping none es).entries? = some ss := hss
    have once : ∀ name ∈ names, ss.countP (·.1 = name) ≤ 1 :=
      fun name _ => countP_le_one shown distinct name
    show fields? names (mapping none es) = entries? (mapping none es)
    simpa [fields?, hentries] using once
  value h sorted := value?_of_spells false _ _ h sorted
  extra h sorted := value?_of_spells true _ _ h sorted

end Node

/-- The text of a value is read as a tree that spells the value. -/
def ReadsBack (j : Json) : Prop := (Node.parse? (print j)).any (·.spells j) = true

instance (j : Json) : Decidable (ReadsBack j) := inferInstanceAs (Decidable (_ = true))

end PromptAssembly.Yaml
