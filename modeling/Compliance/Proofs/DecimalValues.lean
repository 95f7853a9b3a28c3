import Compliance.Proofs.Reading
import Mathlib.Algebra.Order.Field.Basic
import Mathlib.Algebra.Order.Field.Power
import Mathlib.Data.Rat.Cast.Order
import Mathlib.Tactic.FieldSimp
import Mathlib.Tactic.Linarith
import Mathlib.Tactic.NormNum
import Mathlib.Tactic.Positivity
import Mathlib.Tactic.Ring

/-! The value of a written number. In either form a double is written by a decimal that rounds to it
and to no other double, so no two numbers have the same text. -/
namespace Compliance
open Json (Numeral)

namespace Decimal

def Scientific.value (s : Scientific) : ℚ := s.digits * (10 : ℚ) ^ s.exponent

theorem inUnits_den_pos (s : Scientific) : 0 < s.inUnits.2 := by
  unfold Scientific.inUnits
  split
  · exact Nat.one_pos
  · exact tenPow_pos _

/-- A decimal in units is its value. -/
theorem inUnits_value (s : Scientific) :
    (s.inUnits.1 : ℚ) = s.value * unitsPerOne * s.inUnits.2 := by
  unfold Scientific.inUnits Scientific.value
  generalize unitsPerOne = one
  split
  next h =>
    obtain ⟨e, he⟩ := Int.eq_ofNat_of_zero_le h
    have hpow : ((Nat.pow 10 s.exponent.natAbs : ℕ) : ℚ) = (10 : ℚ) ^ s.exponent := by
      rw [he, Int.natAbs_natCast, zpow_natCast]
      exact Nat.cast_pow 10 e
    push_cast
    rw [hpow]
    ring
  next h =>
    obtain ⟨e, he⟩ := Int.eq_ofNat_of_zero_le (Int.le_of_lt (Int.neg_pos_of_neg (Int.not_le.mp h)))
    have hexponent : s.exponent = -(e : ℤ) := by omega
    have habs : s.exponent.natAbs = e := by omega
    have hpow : ((Nat.pow 10 e : ℕ) : ℚ) = (10 : ℚ) ^ e := Nat.cast_pow 10 e
    have hne : (10 : ℚ) ^ e ≠ 0 := by positivity
    rw [habs, hexponent, zpow_neg, zpow_natCast, hpow]
    push_cast
    field_simp

/-- Two decimals of one value are one number of units. -/
private theorem inUnits_cross {s t : Scientific} (h : s.value = t.value) :
    s.inUnits.1 * t.inUnits.2 = t.inUnits.1 * s.inUnits.2 := by
  have hs := inUnits_value s
  have ht := inUnits_value t
  have : (s.inUnits.1 : ℚ) * t.inUnits.2 = t.inUnits.1 * s.inUnits.2 := by
    rw [hs, ht, h]
    ring
  exact_mod_cast this

private theorem strip_value (fuel : Nat) (s : Scientific) : (s.strip fuel).value = s.value := by
  induction fuel generalizing s with
  | zero => rfl
  | succ fuel ih =>
    rw [Scientific.strip]
    split
    next h =>
      rw [ih]
      have hten : ((s.digits / 10 : ℕ) : ℚ) * 10 = s.digits := by
        exact_mod_cast Nat.div_mul_cancel (Nat.dvd_of_mod_eq_zero h.1)
      rw [Scientific.value, Scientific.value, zpow_add_one₀ (by norm_num), ← hten]
      ring
    next => rfl

/-- The grid of the smallest magnitude is fine enough for all of them. -/
private theorem roundsTo_exact (units k : Nat) (hk : 0 < k) (hone : unitsPerOne = Nat.pow 2 k) :
    roundsTo units (⟨units * Nat.pow 10 k / unitsPerOne, -(k : ℤ)⟩ : Scientific).inUnits.1
      (⟨units * Nat.pow 10 k / unitsPerOne, -(k : ℤ)⟩ : Scientific).inUnits.2 = true := by
  have hdigits : units * Nat.pow 10 k / unitsPerOne * unitsPerOne = units * Nat.pow 10 k := by
    rw [hone]
    exact Nat.div_mul_cancel (Nat.dvd_mul_left_of_dvd (pow_dvd_pow_of_dvd (by decide) k) units)
  have hneg : ¬ (0 : ℤ) ≤ -(k : ℤ) := by omega
  simp only [Scientific.inUnits, if_neg hneg, hdigits, Int.natAbs_neg, Int.natAbs_natCast]
  exact roundsTo_self units (tenPow_pos k)

/-- The shortest decimal of a magnitude has the value of a decimal that rounds to it. -/
private theorem exists_roundsTo_shortest (units : Nat) :
    ∃ s : Scientific, s.value = (shortest units).value ∧
      roundsTo units s.inUnits.1 s.inUnits.2 = true := by
  rcases shortest_cases units with ⟨rfl, h⟩ | ⟨e, s, _, hs, h⟩ | h
  · refine ⟨⟨0, 0⟩, by rw [h], ?_⟩
    have hunits : (⟨0, 0⟩ : Scientific).inUnits = (0, 1) := by
      unfold Scientific.inUnits
      generalize unitsPerOne = one
      simp
    rw [hunits]
    rfl
  · exact ⟨s, by rw [h, strip_value], (onGrid_eq_some hs).2.2⟩
  · -- The powers stay folded: no step may evaluate them.
    obtain ⟨k, hk, h⟩ : ∃ k : ℕ, k = 1074 ∧
        shortest units = ⟨units * Nat.pow 10 k / unitsPerOne, -(k : ℤ)⟩ := by
      generalize Nat.pow 10 = power at h ⊢
      exact ⟨1074, rfl, h⟩
    have hone : unitsPerOne = Nat.pow 2 k := by
      rw [hk]
      unfold unitsPerOne
      generalize 1074 = n
      rfl
    exact ⟨_, congrArg Scientific.value h.symm, roundsTo_exact units k (by omega) hone⟩

/-- Different magnitudes have shortest decimals of different values. -/
private theorem shortest_value_injective {u v : Nat} (hu : Representable u) (hv : Representable v)
    (h : (shortest u).value = (shortest v).value) : u = v := by
  obtain ⟨s, hs, hsu⟩ := exists_roundsTo_shortest u
  obtain ⟨t, ht, htv⟩ := exists_roundsTo_shortest v
  exact roundsTo_unique hu hv (inUnits_den_pos s) (inUnits_den_pos t)
    (inUnits_cross (hs.trans (h.trans ht.symm))) hsu htv

end Decimal

namespace Json.Numeral
open Decimal

/-- The place of the last digit. -/
def scale (n : Numeral) : ℤ :=
  (match n.exponent with
    | none => 0
    | some (false, ds) => (ofDigits ds : ℤ)
    | some (true, ds) => -(ofDigits ds : ℤ)) - n.fraction.length

/-- The value of a numeral without its sign. -/
def magnitude (n : Numeral) : ℚ := ofDigits (n.whole ++ n.fraction) * (10 : ℚ) ^ n.scale

private theorem ofDigits_append_replicate (ds : List Nat) (k : Nat) :
    ofDigits (ds ++ List.replicate k 0) = ofDigits ds * 10 ^ k := by
  induction k with
  | zero => simp
  | succ k ih =>
    rw [List.replicate_succ', ← List.append_assoc, ofDigits_append, ih, List.foldl_cons,
      List.foldl_nil, pow_succ]
    ring

private theorem ofDigits_replicate_append (k : Nat) (ds : List Nat) :
    ofDigits (List.replicate k 0 ++ ds) = ofDigits ds := by
  have hzero := ofDigits_append_replicate [] k
  rw [List.nil_append] at hzero
  rw [ofDigits_append, hzero]
  simp [ofDigits]

end Json.Numeral

namespace Decimal.Scientific
open Json.Numeral

private theorem positionalNumeral_magnitude (negative : Bool) (s : Scientific) :
    (s.positionalNumeral negative).magnitude = s.value := by
  have hlead := s.leading_eq
  unfold positionalNumeral
  simp only
  split
  next h0 =>
    obtain ⟨e, he⟩ := Int.eq_ofNat_of_zero_le h0
    have hscale : scale ⟨negative, digitsOf s.digits ++ List.replicate s.exponent.natAbs 0, [0], none⟩
        = -1 := rfl
    have hdigits : ofDigits (digitsOf s.digits ++ List.replicate s.exponent.natAbs 0 ++ [0])
        = s.digits * 10 ^ (e + 1) := by
      rw [List.append_assoc, ← List.replicate_succ', ofDigits_append_replicate, ofDigits_digitsOf, he]
      rfl
    rw [magnitude, hscale, value, hdigits, he]
    push_cast
    rw [zpow_natCast, pow_succ, zpow_neg_one]
    ring
  next h0 =>
    split
    next h1 =>
      rw [magnitude, value]
      show ((ofDigits (_ ++ _) : ℕ) : ℚ) * (10 : ℚ) ^ (0 - ((List.drop _ _).length : ℤ)) = _
      rw [List.take_append_drop, ofDigits_digitsOf, List.length_drop]
      congr 2
      omega
    next h1 =>
      rw [magnitude, value]
      show ((ofDigits ([0] ++ (_ ++ _)) : ℕ) : ℚ) * (10 : ℚ) ^ (0 - ((_ ++ _ : List ℕ).length : ℤ)) = _
      have hzeros := ofDigits_replicate_append (s.leading.natAbs - 1 + 1) (digitsOf s.digits)
      rw [List.replicate_succ, List.cons_append] at hzeros
      rw [List.singleton_append, hzeros, ofDigits_digitsOf, List.length_append, List.length_replicate]
      congr 2
      omega

private theorem exponentNumeral_magnitude (negative : Bool) (s : Scientific) :
    (s.exponentNumeral negative).magnitude = s.value := by
  have hlead := s.leading_eq
  have hlength := List.length_pos_iff.mpr (digitsOf_ne_nil s.digits)
  rw [magnitude, value]
  show ((ofDigits (List.take 1 _ ++ List.drop 1 _) : ℕ) : ℚ) * _ = _
  rw [List.take_append_drop, ofDigits_digitsOf]
  congr 2
  unfold exponentNumeral scale
  simp only [List.length_drop]
  by_cases h0 : s.leading < 0
  · simp only [decide_eq_true h0, ofDigits_digitsOf]
    omega
  · simp only [decide_eq_false h0, ofDigits_digitsOf]
    omega

private theorem positionalNumeral_fraction (negative : Bool) (s : Scientific) :
    (s.positionalNumeral negative).fraction ≠ [] := by
  have hlead := s.leading_eq
  unfold positionalNumeral
  simp only
  split
  next => exact List.cons_ne_nil _ _
  next =>
    split
    next =>
      rw [ne_eq, List.drop_eq_nil_iff]
      omega
    next => exact List.append_ne_nil_of_right_ne_nil _ (digitsOf_ne_nil _)

end Decimal.Scientific

namespace Number
open Decimal

/-- The numeral of a double has its sign and the value of its shortest decimal, and a point or an
exponent. -/
private theorem numeral_double (d : Decimal.Double) :
    (double d).numeral.negative = d.negative ∧
    (double d).numeral.magnitude = (shortest d.units).value ∧
    ¬ ((double d).numeral.fraction = [] ∧ (double d).numeral.exponent = none) := by
  unfold numeral
  simp only
  split
  next =>
    refine ⟨?_, Scientific.positionalNumeral_magnitude _ _,
      fun h => Scientific.positionalNumeral_fraction _ _ h.1⟩
    unfold Scientific.positionalNumeral
    simp only
    split
    next => rfl
    next => split <;> rfl
  next => exact ⟨rfl, Scientific.exponentNumeral_magnitude _ _, nofun⟩

private theorem numeral_integer (n : Int) :
    (integer n).numeral.negative = decide (n < 0) ∧
    Numeral.ofDigits (integer n).numeral.whole = n.natAbs ∧
    (integer n).numeral.fraction = [] ∧ (integer n).numeral.exponent = none := by
  match n with
  | .ofNat n => exact ⟨rfl, ofDigits_digitsOf n, rfl, rfl⟩
  | .negSucc n =>
    exact ⟨(decide_eq_true (Int.negSucc_lt_zero n)).symm, ofDigits_digitsOf (n + 1), rfl, rfl⟩

/-- Whole numbers, and doubles that exist. -/
def Exact : Number → Prop
  | .integer _ => True
  | .double d => Representable d.units

theorem Storable.exact {n : Number} (h : n.Storable) : n.Exact := by
  cases n with
  | integer n => trivial
  | double d => exact h

/-- No two numbers have one numeral. -/
theorem numeral_injective {m n : Number} (hm : m.Exact) (hn : n.Exact)
    (h : m.numeral = n.numeral) : m = n := by
  match m, n with
  | .integer a, .integer b =>
    obtain ⟨hsign, habs, _⟩ := numeral_integer a
    obtain ⟨hsign', habs', _⟩ := numeral_integer b
    rw [h, hsign', decide_eq_decide] at hsign
    rw [h, habs'] at habs
    exact congrArg integer (by omega)
  | .integer a, .double d => exact absurd (h ▸ (numeral_integer a).2.2) (numeral_double d).2.2
  | .double d, .integer a => exact absurd (h ▸ (numeral_integer a).2.2) (numeral_double d).2.2
  | .double ⟨negative, u⟩, .double ⟨negative', v⟩ =>
    obtain ⟨hsign, hvalue, _⟩ := numeral_double ⟨negative, u⟩
    obtain ⟨hsign', hvalue', _⟩ := numeral_double ⟨negative', v⟩
    rw [h, hsign'] at hsign
    rw [h, hvalue'] at hvalue
    obtain rfl : negative' = negative := hsign
    obtain rfl := shortest_value_injective hn hm hvalue
    rfl

end Number
end Compliance
