import PromptAssembly.Proofs.Settings.Leaves

/-!
# Texts from the environment

A text from the environment is taken for a flag or a number wherever it can be one, and is spelled
anew where a text is wanted after all (`Respelled`). A whole number keeps its spelling if and only
if that is the plain one (`toString_eq_iff`), and what starts as no number does is left as it is,
but for a few words (`verbatim_of_head`).
-/
namespace PromptAssembly.Text

/-- A numeral that starts neither with a plus sign nor with an idle zero. -/
def IsPlainNumeral (s : List Char) : Prop :=
  s = ['0'] ∨ ¬ (['0'] <+: s ∨ ['+'] <+: s ∨ ['-', '0'] <+: s)

def addDigit? (n : Nat) (d : Char) : Option Nat := do
  let v ← hexValue? d
  if v < 10 then some (10 * n + v) else none

theorem digits?_eq {ds : List Char} (h : ds ≠ []) : digits? 10 ds = ds.foldlM addDigit? 0 := by
  cases ds with
  | nil => exact absurd rfl h
  | cons d ds => rfl

theorem isDigit_iff {c : Char} : isDigit c ↔ 48 ≤ c.toNat ∧ c.toNat ≤ 57 := by
  simp [isDigit, Char.le_def, UInt32.le_iff_toNat_le]

theorem digitChar_sub {c : Char} (h : isDigit c) : Nat.digitChar (c.toNat - 48) = c := by
  obtain ⟨low, high⟩ := isDigit_iff.1 h
  apply Char.toNat_inj.1
  rw [Nat.toNat_digitChar_of_lt_ten (by omega)]
  omega

theorem addDigit?_eq_some_iff {n m : Nat} {d : Char} :
    addDigit? n d = some m ↔ isDigit d ∧ m = 10 * n + (d.toNat - 48) := by
  by_cases digit : isDigit d
  · have value : hexValue? d = some (d.toNat - 48) :=
      if_pos (by simpa [isDigit] using digit)
    have small : d.toNat - 48 < 10 := by
      have := isDigit_iff.1 digit
      omega
    simp [addDigit?, value, small, digit, eq_comm]
  · have none : addDigit? n d = none := by
      rw [addDigit?, hexValue?, if_neg (by simpa [isDigit] using digit)]
      split_ifs <;> simp
    simp [none, digit]

theorem toDigits_foldlM {ds : List Char} {n m : Nat} (positive : 0 < n)
    (h : ds.foldlM addDigit? n = some m) : Nat.toDigits 10 n ++ ds = Nat.toDigits 10 m := by
  induction ds generalizing n with
  | nil =>
    obtain rfl : n = m := by simpa using h
    simp
  | cons d ds ih =>
    rw [List.foldlM_cons] at h
    obtain ⟨k, hk, h⟩ := Option.bind_eq_some_iff.1 h
    obtain ⟨digit, rfl⟩ := addDigit?_eq_some_iff.1 hk
    have small : d.toNat - 48 < 10 := by
      have := isDigit_iff.1 digit
      omega
    calc Nat.toDigits 10 n ++ d :: ds
        = (Nat.toDigits 10 n ++ [d]) ++ ds := by simp
      _ = Nat.toDigits 10 (10 * n + (d.toNat - 48)) ++ ds := by
          rw [← Nat.toDigits_append_toDigits (by decide) positive small,
            Nat.toDigits_of_lt_base small, digitChar_sub digit]
      _ = Nat.toDigits 10 m := ih (by omega) h

theorem toDigits_of_head {d : Char} {ds : List Char} {m : Nat} (h : digits? 10 (d :: ds) = some m)
    (nonzero : d ≠ '0') : Nat.toDigits 10 m = d :: ds := by
  rw [digits?_eq (List.cons_ne_nil _ _), List.foldlM_cons] at h
  obtain ⟨k, hk, h⟩ := Option.bind_eq_some_iff.1 h
  obtain ⟨digit, rfl⟩ := addDigit?_eq_some_iff.1 hk
  have bounds := isDigit_iff.1 digit
  have positive : d.toNat ≠ 48 := fun same => nonzero (Char.toNat_inj.1 same)
  rw [← toDigits_foldlM (by omega) h, Nat.mul_zero, Nat.zero_add,
    Nat.toDigits_of_lt_base (by omega), digitChar_sub digit]
  rfl

theorem length_toDigits_le {ds : List Char} {m : Nat} (h : digits? 10 ds = some m) :
    (Nat.toDigits 10 m).length ≤ ds.length := by
  induction ds with
  | nil => cases h
  | cons d ds ih =>
    by_cases zero : d = '0'
    · subst d
      cases ds with
      | nil =>
        obtain rfl : 0 = m := Option.some.inj h
        decide
      | cons d' ds =>
        exact Nat.le_succ_of_le (ih h)
    · exact Nat.le_of_eq (congrArg List.length (toDigits_of_head h zero))

/-- Only the plain spelling of a number has no idle zeros. -/
theorem toDigits_eq_iff {ds : List Char} {m : Nat} (h : digits? 10 ds = some m) :
    Nat.toDigits 10 m = ds ↔ ds = ['0'] ∨ ds.head? ≠ some '0' := by
  cases ds with
  | nil => cases h
  | cons d ds =>
    by_cases zero : d = '0'
    · subst d
      cases ds with
      | nil =>
        obtain rfl : 0 = m := Option.some.inj h
        simp
      | cons d' ds =>
        have shorter : (Nat.toDigits 10 m).length ≤ (d' :: ds).length := length_toDigits_le h
        have other : Nat.toDigits 10 m ≠ '0' :: d' :: ds := fun same => by
          rw [same] at shorter
          exact absurd shorter (Nat.not_succ_le_self _)
        simp [other]
    · simp [toDigits_of_head h zero, zero]

theorem toDigits_ne_cons {c : Char} (h : c.isDigit = false) (m : Nat) (s : List Char) :
    Nat.toDigits 10 m ≠ c :: s := by
  intro same
  have digit := Nat.isDigit_of_mem_toDigits (b := 10) (n := m) (by decide) (by decide)
    (same ▸ List.mem_cons_self)
  simp [h] at digit

theorem toList_toString_ofNat (m : Nat) : (toString (m : Int)).toList = Nat.toDigits 10 m :=
  Nat.toList_repr

theorem toList_toString_neg {m : Nat} (h : m ≠ 0) :
    (toString (-(m : Int))).toList = '-' :: Nat.toDigits 10 m := by
  obtain ⟨k, rfl⟩ := Nat.exists_eq_succ_of_ne_zero h
  exact (String.toList_append ..).trans (congrArg _ Nat.toList_repr)

/-- A whole number is spelled as it was read only if that was its plain spelling. -/
theorem toString_eq_iff {s : List Char} {n : Int} (h : integer? s = some n) :
    (toString n).toList = s ↔ IsPlainNumeral s := by
  unfold integer? splitSign at h
  split at h
  next negative ds hsplit =>
  obtain ⟨k, hk, rfl⟩ := Option.map_eq_some_iff.1 h
  obtain ⟨m, hm, hk⟩ := Option.bind_eq_some_iff.1 hk
  obtain rfl : (m : Int) = k := Option.some.inj hk
  have plain := toDigits_eq_iff hm
  split at hsplit
  · next tail =>
    obtain ⟨rfl, rfl⟩ := Prod.mk.inj hsplit
    have idle : ['-', '0'] <+: '-' :: tail ↔ tail.head? = some '0' := by
      cases tail <;> simp [eq_comm]
    rw [if_pos rfl, IsPlainNumeral, idle]
    by_cases zero : m = 0
    · subst m
      have head : tail.head? = some '0' := by
        by_contra other
        exact other (plain.2 (.inr other) ▸ rfl)
      have left : (toString (-((0 : Nat) : Int))).toList ≠ '-' :: tail := fun same =>
        absurd (List.cons.inj (show ['0'] = '-' :: tail from same)).1 (by decide)
      simp only [left, head]
      simp
    · have other : tail ≠ ['0'] := by
        rintro rfl
        exact zero (Option.some.inj hm).symm
      rw [toList_toString_neg zero, List.cons_inj_right, plain]
      simp [other]
  · obtain ⟨rfl, rfl⟩ := Prod.mk.inj hsplit
    rw [if_neg Bool.false_ne_true, toList_toString_ofNat]
    simp [toDigits_ne_cons (show ('+').isDigit = false from rfl), IsPlainNumeral]
  · next rest minus plus =>
    obtain ⟨rfl, rfl⟩ := Prod.mk.inj hsplit
    rw [if_neg Bool.false_ne_true, toList_toString_ofNat, plain, IsPlainNumeral]
    cases s with
    | nil => cases hm
    | cons c s =>
      have noMinus : '-' ≠ c := fun same => minus s (same ▸ rfl)
      have noPlus : '+' ≠ c := fun same => plus s (same ▸ rfl)
      simp [noMinus, noPlus, eq_comm]

end PromptAssembly.Text

namespace PromptAssembly.Settings
open Text (lower integer? isInt64 isDigit decimal? splitSign IsPlainNumeral)
open Value (floatText?)
variable {s t : String}

def IsFlag (s : String) : Prop := lower s = "true" ∨ lower s = "false"

theorem exists_head_of_integer {cs : List Char} {n : Int} (h : integer? cs = some n) :
    ∃ c rest, cs = c :: rest ∧ (isDigit c ∨ c = '-' ∨ c = '+') := by
  unfold integer? at h
  split at h
  next negative ds hsplit =>
  obtain ⟨k, hk, -⟩ := Option.map_eq_some_iff.1 h
  obtain ⟨m, hm, -⟩ := Option.bind_eq_some_iff.1 hk
  unfold splitSign at hsplit
  split at hsplit
  · exact ⟨_, _, rfl, .inr (.inl rfl)⟩
  · exact ⟨_, _, rfl, .inr (.inr rfl)⟩
  · obtain ⟨-, rfl⟩ := Prod.mk.inj hsplit
    cases cs with
    | nil => cases hm
    | cons c rest =>
      rw [Text.digits?_eq (List.cons_ne_nil _ _), List.foldlM_cons] at hm
      obtain ⟨v, hv, -⟩ := Option.bind_eq_some_iff.1 hm
      exact ⟨c, rest, rfl, .inl (Text.addDigit?_eq_some_iff.1 hv).1⟩

theorem lowerChar_of_isDigit {c : Char} (h : isDigit c) : Text.lowerChar c = [c] := by
  have all : ∀ k < 10, Text.lowerChar (Nat.digitChar k) = [Nat.digitChar k] := by decide
  obtain ⟨low, high⟩ := Text.isDigit_iff.1 h
  rw [← Text.digitChar_sub h]
  exact all _ (by omega)

theorem not_isFlag_of_integer {n : Int} (h : integer? s.toList = some n) : ¬ IsFlag s := by
  obtain ⟨c, rest, hs, hc⟩ := exists_head_of_integer h
  have same : Text.lowerChar c = [c] ∧ c ≠ 'Σ' := by
    rcases hc with digit | rfl | rfl
    · refine ⟨lowerChar_of_isDigit digit, ?_⟩
      rintro rfl
      exact absurd digit (by decide)
    · decide
    · decide
  have head : (lower s).toList.head? = some c := by
    simp [lower, hs, Text.lowerBehind_cons same.2, same.1]
  rintro (yes | no)
  · obtain rfl : 't' = c := by simpa [yes] using head
    revert hc
    decide
  · obtain rfl : 'f' = c := by simpa [no] using head
    revert hc
    decide

/-- How a text from the environment is spelled where a text is wanted. -/
inductive Respelled (s : String) : String → Prop where
  | yes : lower s = "true" → Respelled s "true"
  | no : lower s = "false" → Respelled s "false"
  | integer {n : Int} : integer? s.toList = some n → isInt64 n → Respelled s (toString n)
  | float {x : Binary64} : ¬ IsFlag s → (integer? s.toList).filter isInt64 = none →
      floatText? s = some x → Respelled s (Binary64.setting.text x)
  | verbatim : ¬ IsFlag s → (integer? s.toList).filter isInt64 = none → floatText? s = none →
      Respelled s s

theorem content?_ofText (s : String) : content? (Value.ofText s) = some (Value.ofText s) := by
  unfold Value.ofText
  split_ifs
  · rfl
  · rfl
  · split
    · rfl
    · split <;> rfl

theorem respelled_iff : Respelled s t ↔ Value.text? (Value.ofText s) = some t := by
  unfold Value.ofText
  constructor
  · intro h
    cases h with
    | yes h => simp [h, Value.text?]
    | no h => simp [h, Value.text?]
    | integer h small =>
      obtain ⟨h1, h2⟩ := not_or.1 (not_isFlag_of_integer h)
      simp [h1, h2, h, small, Value.text?, Option.filter]
    | float flag none h =>
      obtain ⟨h1, h2⟩ := not_or.1 flag
      simp [h1, h2, none, h, Value.text?]
    | verbatim flag none h =>
      obtain ⟨h1, h2⟩ := not_or.1 flag
      simp [h1, h2, none, h, Value.text?]
  · intro h
    split_ifs at h with h1 h2
    · obtain rfl := Option.some.inj h
      exact .yes h1
    · obtain rfl := Option.some.inj h
      exact .no h2
    · have flag : ¬ IsFlag s := not_or.2 ⟨h1, h2⟩
      split at h
      · next n hn =>
        obtain ⟨hn, small⟩ := Option.filter_eq_some_iff.1 hn
        obtain rfl := Option.some.inj h
        exact .integer hn small
      · next none =>
        split at h
        · next x hx =>
          obtain rfl := Option.some.inj h
          exact .float flag none hx
        · next hnone =>
          obtain rfl := Option.some.inj h
          exact .verbatim flag none hnone

theorem exists_respelled (s : String) : ∃ t, Respelled s t := by
  obtain ⟨t, ht⟩ : ∃ t, Value.text? (Value.ofText s) = some t := by
    unfold Value.ofText
    split_ifs
    · exact ⟨_, rfl⟩
    · exact ⟨_, rfl⟩
    · split
      · exact ⟨_, rfl⟩
      · split <;> exact ⟨_, rfl⟩
  exact ⟨t, respelled_iff.2 ht⟩

/-- A number of 64 bits keeps its spelling only if that is the plain one. -/
theorem verbatim_iff_of_integer {n : Int} (h : integer? s.toList = some n) (small : isInt64 n) :
    Respelled s s ↔ IsPlainNumeral s.toList := by
  have spelled := Respelled.integer h small
  rw [← Text.toString_eq_iff h, String.toList_inj]
  constructor
  · intro hs
    exact Option.some.inj ((respelled_iff.1 spelled).symm.trans (respelled_iff.1 hs))
  · intro hs
    rwa [hs] at spelled

theorem verbatim_of_head {c : Char} {cs : List Char} (hs : s.toList = c :: cs)
    (digit : isDigit c = false) (mark : c ∉ ['+', '-', '.']) (flag : ¬ IsFlag s)
    (word : String.ofList (s.toList.map Char.toLower) ∉ ["inf", "infinity", "nan"]) :
    Respelled s s := by
  have sign : splitSign (c :: cs) = (false, c :: cs) := by
    unfold splitSign
    split
    · next h => simp_all
    · next h => simp_all
    · rfl
  have integer : integer? (c :: cs) = none := by
    have none : Text.addDigit? 0 c = none := by
      by_contra some
      obtain ⟨m, hm⟩ := Option.ne_none_iff_exists'.1 some
      exact absurd (Text.addDigit?_eq_some_iff.1 hm).1 (by simp [digit])
    simp [integer?, sign, Text.digits?_eq (List.cons_ne_nil c cs), none]
  have decimal : decimal? (c :: cs) = none := by
    have point : c ≠ '.' := fun same => by simp [same] at mark
    simp [decimal?, sign, digit, point]
  refine .verbatim flag (by rw [hs, integer, Option.filter_none]) ?_
  simp only [List.mem_cons, List.not_mem_nil, or_false, not_or, hs] at word
  obtain ⟨inf, infinity, nan⟩ := word
  unfold floatText?
  rw [hs, sign]
  exact (if_neg (not_or.2 ⟨inf, infinity⟩)).trans ((if_neg nan).trans decimal)

end PromptAssembly.Settings
