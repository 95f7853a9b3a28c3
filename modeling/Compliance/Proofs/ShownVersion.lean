import Compliance.Document.Basic
import Compliance.Proofs.Literals
import Compliance.Proofs.NearestDoubles

/-! Which versions are shown, and as what. A text is hidden if it is blank or if it spells a literal that
is zero or less once it is rounded to a double. -/
namespace Compliance
open Decimal (Literal Scientific)

namespace Decimal.Literal

/-- Whether the double nearest to a literal is zero or less. It has the sign of the literal, zero
included, and may be too large for a finite one. -/
def RoundsToAtMostZero : Literal → Prop
  | .finite negative significand exponent =>
    ∃ d : Double, d.negative = negative ∧ d.value ≤ 0 ∧
      IsNearest ((⟨significand, exponent⟩ : Scientific).value * unitsPerOne) d.units
  | .infinite negative => negative = true
  | .notANumber => False

private theorem value_nonneg (s : Scientific) : 0 ≤ s.value * unitsPerOne := by
  unfold Scientific.value
  positivity

/-- Negative numbers are, and those up to half the smallest magnitude. -/
theorem roundsToAtMostZero_finite_iff (negative : Bool) (significand : Nat) (exponent : Int) :
    (finite negative significand exponent).RoundsToAtMostZero ↔
      negative = true ∨ (significand : ℚ) * (10 : ℚ) ^ exponent ≤ (2 : ℚ) ^ (-1075 : ℤ) := by
  have hnonneg := value_nonneg ⟨significand, exponent⟩
  have hhalf := two_mul_units_le_one_iff (⟨significand, exponent⟩ : Scientific).value
  show _ ↔ negative = true ∨ (⟨significand, exponent⟩ : Scientific).value ≤ _
  rw [← hhalf]
  constructor
  · rintro ⟨d, rfl, hvalue, hnearest⟩
    rw [← hnearest.eq_zero_iff hnonneg]
    exact d.value_le_zero_iff.mp hvalue
  · intro h
    obtain ⟨u, hu⟩ := exists_isNearest hnonneg
    rw [← hu.eq_zero_iff hnonneg] at h
    exact ⟨⟨negative, u⟩, rfl, (Double.value_le_zero_iff ⟨negative, u⟩).mpr h, hu⟩

theorem roundsToNoMoreThanZero_iff (l : Literal) :
    l.roundsToNoMoreThanZero = true ↔ l.RoundsToAtMostZero := by
  cases l with
  | finite negative significand exponent =>
    have hzero := nearestToDecimal_eq_zero_iff ⟨significand, exponent⟩
    rw [inUnits_le_iff, two_mul_units_le_one_iff] at hzero
    rw [roundsToAtMostZero_finite_iff, roundsToNoMoreThanZero, Bool.or_eq_true, beq_iff_eq]
    exact or_congr_right hzero
  | infinite negative => exact Iff.rfl
  | notANumber => exact iff_of_false Bool.false_ne_true id

end Decimal.Literal

def Number.value : Number → ℚ
  | .integer n => n
  | .double d => d.value

private theorem Number.isPositive_iff (n : Number) : n.isPositive = true ↔ 0 < n.value := by
  cases n with
  | integer n =>
    rw [Number.isPositive, Number.value, decide_eq_true_iff, Int.cast_pos]
  | double d =>
    rw [Number.isPositive, Number.value, ← not_le, d.value_le_zero_iff, Decimal.Double.isPositive]
    simp

/-- As what a version is shown: a number that is greater than zero as it is written, and a text without
the white space at its ends. -/
inductive Json.ShownAs : Json → String → Prop where
  | number {n : Number} (positive : 0 < n.value) :
      ShownAs (.number n) (String.ofList (Json.compact (.number n)))
  | string {s : String} {t : List Char} (trimmed : Text.Trimmed s.toList t) (present : t ≠ [])
      (kept : ∀ l, Literal.Spells t l → ¬ l.RoundsToAtMostZero) :
      ShownAs (.string s) (String.ofList t)

private theorem hidden_iff (t : List Char) :
    (Literal.parse? t).any (·.roundsToNoMoreThanZero) = true ↔
      ∃ l, Literal.Spells t l ∧ l.RoundsToAtMostZero := by
  simp only [Option.any_eq_true, Literal.parse?_eq_some_iff, Literal.roundsToNoMoreThanZero_iff]

private theorem shownVersion_eq_some_iff {v : Json} {x : String} :
    shownVersion v = some x ↔ v.ShownAs x := by
  constructor
  · intro h
    unfold shownVersion at h
    split at h
    next n =>
      split at h
      next hpositive =>
        cases h
        exact .number (n.isPositive_iff.mp hpositive)
      next => cases h
    next s =>
      simp only at h
      split at h
      next => cases h
      next hkept =>
        cases h
        rw [not_or, hidden_iff] at hkept
        exact .string (Text.trim_trimmed _) hkept.1 fun l hl hzero => hkept.2 ⟨l, hl, hzero⟩
    next => cases h
  · intro h
    cases h with
    | number positive => exact if_pos ((Number.isPositive_iff _).mpr positive)
    | string trimmed present kept =>
      unfold shownVersion
      simp only [trimmed.trim_eq]
      refine if_neg ?_
      rw [not_or, hidden_iff]
      exact ⟨present, fun ⟨l, hl, hzero⟩ => kept l hl hzero⟩

namespace Decimal.Literal

private theorem ofDigits_toDigits (n : Nat) : ofDigits (Nat.toDigits 10 n) = n := by
  have h := ofDigits_digitsOf n
  rwa [Json.Numeral.ofDigits, digitsOf, List.foldl_map] at h

theorem digits_toDigits (n : Nat) : Digits (Nat.toDigits 10 n) := by
  rw [← digitsText_digitsOf]
  exact Json.Numeral.forall_mem_digitsText (digits_digitsOf n)

/-- A whole number is a literal of its value. -/
theorem spells_toDigits (n : Nat) : Spells (Nat.toDigits 10 n) (.finite false n 0) := by
  have h := Spells.number .absent (.whole (digits_toDigits n) Nat.toDigits_ne_nil) .absent
  rw [ofDigits_toDigits, List.append_nil] at h
  exact h

theorem not_roundsToAtMostZero_of_pos {n : Nat} (hn : 0 < n) :
    ¬ (finite false n 0).RoundsToAtMostZero := by
  rw [roundsToAtMostZero_finite_iff, zpow_zero, mul_one]
  have hcast : (1 : ℚ) ≤ n := by exact_mod_cast hn
  have hsmall : (2 : ℚ) ^ (-1075 : ℤ) < 1 := zpow_lt_one_of_neg₀ (by norm_num) (by norm_num)
  rintro (h | h)
  · cases h
  · linarith

theorem isBlank_of_isDigit {c : Char} (h : isDigit c = true) : Text.isBlank c = false := by
  have hlow : 48 ≤ c.toNat := of_decide_eq_true (Bool.and_eq_true_iff.mp h).1
  have hhigh : c.toNat ≤ 57 := of_decide_eq_true (Bool.and_eq_true_iff.mp h).2
  simp only [Text.isBlank, Text.blankRanges, Text.Ranges.contains, List.any_cons, List.any_nil,
    Bool.or_eq_false_iff, Bool.and_eq_false_iff, decide_eq_false_iff_not, and_true]
  omega

end Decimal.Literal

namespace Json

private theorem ShownAs.ne_empty {v : Json} {x : String} (h : v.ShownAs x) : x ≠ "" := by
  have hempty : ∀ t : List Char, t ≠ [] → String.ofList t ≠ "" := fun t ht hx => by
    rw [← String.toList_inj, String.toList_ofList] at hx
    exact ht hx
  cases h with
  | string _ present => exact hempty _ present
  | @number n =>
    obtain ⟨c, cs, htext, _⟩ := Json.Numeral.exists_text_eq_cons n.numeral_proper
    refine hempty _ ?_
    show n.render ≠ []
    rw [n.render_eq_text, htext]
    exact List.cons_ne_nil c cs

/-- A text that is shown is shown again as it is, -/
private theorem ShownAs.string_again {s x : String} (h : (Json.string s).ShownAs x) :
    (Json.string x).ShownAs x := by
  cases h with
  | string trimmed present kept =>
    refine .string ?_ present kept
    rw [String.toList_ofList]
    exact trimmed.again

/-- and so is a whole number, as a text. -/
private theorem ShownAs.integer_again {n : Int} {x : String}
    (h : (Json.number (.integer n)).ShownAs x) :
    (Json.string x).ShownAs x := by
  cases h with
  | number positive =>
    have hpos : 0 < n := Int.cast_pos.mp positive
    obtain ⟨k, rfl⟩ := Int.eq_ofNat_of_zero_le (Int.le_of_lt hpos)
    have hdigits := Literal.digits_toDigits k
    show (Json.string (String.ofList (Nat.toDigits 10 k))).ShownAs _
    refine .string ?_ Nat.toDigits_ne_nil fun l hl => ?_
    · rw [String.toList_ofList]
      exact Text.trimmed_of_forall fun c hc => Literal.isBlank_of_isDigit (hdigits c hc)
    · rw [hl.unique (Literal.spells_toDigits k)]
      exact Literal.not_roundsToAtMostZero_of_pos (Int.natCast_pos.mp hpos)

end Json

/-- What is shown of any version. It is not empty, and what is shown of a whole number or a text is shown
again. A text is hidden as a literal if that is negative, minus infinity included, or not above half the
smallest double. -/
theorem Benchmark.displayVersion_shows (b : Benchmark) :
    (∀ x, b.displayVersion = some x ↔ ∃ v, b.version = some v ∧ v.ShownAs x) ∧
    (∀ x, b.displayVersion = some x → x ≠ "" ∧
      ((∃ n, b.version = some (.number (.integer n))) ∨ (∃ s, b.version = some (.string s)) →
        { b with version := some (.string x) }.displayVersion = some x)) ∧
    (∀ negative significand exponent,
      (Literal.finite negative significand exponent).RoundsToAtMostZero ↔
        negative = true ∨ (significand : ℚ) * (10 : ℚ) ^ exponent ≤ (2 : ℚ) ^ (-1075 : ℤ)) ∧
    (∀ negative, (Literal.infinite negative).RoundsToAtMostZero ↔ negative = true) ∧
    ¬ Literal.notANumber.RoundsToAtMostZero := by
  have hshown : ∀ x, b.displayVersion = some x ↔ ∃ v, b.version = some v ∧ v.ShownAs x := fun x => by
    simp only [displayVersion, Option.bind_eq_some_iff, shownVersion_eq_some_iff]
  refine ⟨hshown, fun x hx => ?_, Literal.roundsToAtMostZero_finite_iff, fun _ => Iff.rfl, fun h => h⟩
  obtain ⟨v, hv, hvx⟩ := (hshown x).mp hx
  refine ⟨hvx.ne_empty, fun hkind => ?_⟩
  show shownVersion (.string x) = some x
  rw [shownVersion_eq_some_iff]
  rcases hkind with ⟨n, hn⟩ | ⟨s, hs⟩
  · obtain rfl := Option.some.inj (hv.symm.trans hn)
    exact hvx.integer_again
  · obtain rfl := Option.some.inj (hv.symm.trans hs)
    exact hvx.string_again

theorem Benchmark.displayVersion_shows_oddly :
    { Benchmark.empty with version := some (.string " 1.2.1\n") }.displayVersion = some "1.2.1" ∧
    { Benchmark.empty with version := some (.string "1.2.1") }.displayVersion = some "1.2.1" ∧
    { Benchmark.empty with version := some (.number (.integer 12)) }.displayVersion = some "12" ∧
    { Benchmark.empty with version := some (.string "12") }.displayVersion = some "12" := by
  have hstring :
      { Benchmark.empty with version := some (.string " 1.2.1\n") }.displayVersion = some "1.2.1" := by
    decide
  have hinteger :
      { Benchmark.empty with version := some (.number (.integer 12)) }.displayVersion = some "12" := by
    decide
  exact ⟨hstring, ((displayVersion_shows _).2.1 _ hstring).2 (.inr ⟨_, rfl⟩),
    hinteger, ((displayVersion_shows _).2.1 _ hinteger).2 (.inl ⟨_, rfl⟩)⟩

/-- Half the smallest double is between these two. -/
example : { Benchmark.empty with version := some (.string "2e-324") }.displayVersion = none ∧
    { Benchmark.empty with version := some (.string "+3e-324") }.displayVersion = some "+3e-324" := by
  decide +kernel

end Compliance
