import Compliance.Proofs.Doubles
import Compliance.Proofs.WrittenNumbers
import Mathlib.Tactic.Linarith
import Mathlib.Tactic.Ring

/-! The error of a rounding. A quotient of whole numbers is computed with three roundings, of which the
first two change nothing for numbers of 53 bits, and rounded to a whole number in the end. -/
namespace Compliance.Decimal

/-- Rounding is off by half a spacing at most. -/
theorem nearest_error (num : Nat) {den : Nat} (hden : 0 < den) :
    2 * (nearest num den * den) ≤ 2 * num + den * spacing (num / den) ∧
    2 * num ≤ 2 * (nearest num den * den) + den * spacing (num / den) := by
  have hpos : 0 < den * spacing (num / den) := Nat.mul_pos hden (spacing_pos _)
  have hdiv := Nat.div_add_mod num (den * spacing (num / den))
  have hmod := Nat.mod_lt num hpos
  have hgrid : ∀ k, k * spacing (num / den) * den = den * spacing (num / den) * k := fun k => by
    rw [Nat.mul_assoc, Nat.mul_comm k, Nat.mul_comm (spacing _)]
  unfold nearest
  simp only
  split
  next =>
    rw [hgrid]
    omega
  next =>
    rw [hgrid, Nat.mul_succ]
    omega

/-- What is representable is not rounded. -/
theorem nearest_of_representable {u den : Nat} (hden : 0 < den) (hu : Representable u) :
    nearest (u * den) den = u := by
  have hgrid : u * den = u / spacing u * (den * spacing u) := by
    rw [Nat.mul_left_comm, div_spacing_mul hu, Nat.mul_comm]
  have hpos : 0 < den * spacing u := Nat.mul_pos hden (spacing_pos u)
  unfold nearest
  simp only [Nat.mul_div_cancel u hden]
  rw [hgrid, Nat.mul_mod_left, Nat.mul_div_cancel _ hpos, if_pos (.inl hpos), div_spacing_mul hu]

private theorem unitsOfNat_eq {n : Nat} (hn : n ≤ 0x20000000000000) :
    unitsOfNat n = n * unitsPerOne := by
  unfold unitsOfNat unitsPerOne
  generalize 1074 = e
  have h := nearest_of_representable Nat.one_pos (representable_mul_twoPow hn e)
  rwa [Nat.mul_one] at h

/-- One is a power of two, which leaves room for smaller ones. -/
theorem exists_unitsPerOne {k : Nat} (hk : k ≤ 1074) :
    ∃ e, unitsPerOne = Nat.pow 2 k * Nat.pow 2 e := by
  unfold unitsPerOne
  generalize 1074 = n at hk
  refine ⟨n - k, ?_⟩
  show 2 ^ n = 2 ^ k * 2 ^ (n - k)
  rw [← Nat.pow_add, Nat.add_sub_cancel' hk]

private theorem spacing_le_succ (u : Nat) : spacing u ≤ u + 1 := by
  rcases Nat.eq_zero_or_pos u with rfl | hu
  · decide
  · have hpow : 2 ^ (u.log2 - 52) ≤ 2 ^ u.log2 := Nat.pow_le_pow_right (by decide) (Nat.sub_le _ _)
    exact Nat.le_succ_of_le (Nat.le_trans hpow (Nat.log2_self_le (by omega)))

/-- Rounding does not double a number, except a very small one. -/
private theorem nearest_le (num : Nat) {den : Nat} (hden : 0 < den) :
    nearest num den * den ≤ 2 * num + den := by
  have herror := (nearest_error num hden).1
  have hspacing := Nat.mul_le_mul_left den (spacing_le_succ (num / den))
  have hdiv := Nat.mul_div_le num den
  rw [Nat.mul_succ] at hspacing
  omega

/-- The spacing below a power of two. -/
private theorem spacing_le_of_lt {u e : Nat} (h : u < 0x20000000000000 * Nat.pow 2 e) :
    spacing u ≤ Nat.pow 2 e := by
  rcases Nat.eq_zero_or_pos u with rfl | hu
  · exact Nat.pow_pos (by decide)
  · have hpow : 2 ^ 53 * 2 ^ e = 2 ^ (53 + e) := (Nat.pow_add ..).symm
    have hlog : u.log2 < 53 + e := (Nat.log2_lt (by omega)).mpr (Nat.lt_of_lt_of_eq h hpow)
    exact Nat.pow_le_pow_right (by decide) (by omega)

private theorem roundUnits_eq {x m : Nat} (hlow : 2 * (m * unitsPerOne) ≤ 2 * x + unitsPerOne)
    (hhigh : 2 * x < 2 * (m * unitsPerOne) + unitsPerOne) : roundUnits x = m := by
  refine Nat.div_eq_of_lt_le ?_ ?_
  · linarith
  · linarith

/-- The error of dividing a whole number by 72, where 64 spacings are one at most. -/
private theorem divUnits_error {n : Nat} (hn : n < 0x20000000000000) : ∃ s, 64 * s ≤ unitsPerOne ∧
    144 * divUnits (n * unitsPerOne) (72 * unitsPerOne) ≤ 2 * (n * unitsPerOne) + 72 * s ∧
    2 * (n * unitsPerOne) ≤ 144 * divUnits (n * unitsPerOne) (72 * unitsPerOne) + 72 * s := by
  have hpos := unitsPerOne_pos
  obtain ⟨hhigh, hlow⟩ :=
    nearest_error (n * unitsPerOne * unitsPerOne) (Nat.mul_pos (by decide : 0 < 72) hpos)
  rw [Nat.mul_div_mul_right _ _ hpos] at hhigh hlow
  refine ⟨spacing (n * unitsPerOne / 72), ?_, ?_, ?_⟩
  · obtain ⟨e, he⟩ := exists_unitsPerOne (k := 6) (by decide)
    have htwo : 0 < 2 ^ e := Nat.two_pow_pos e
    have hlt := Nat.mul_lt_mul_of_pos_right hn htwo
    have hsmall : n * unitsPerOne < 72 * (0x20000000000000 * Nat.pow 2 e) := by
      rw [he]
      show n * (64 * 2 ^ e) < 72 * (0x20000000000000 * 2 ^ e)
      linarith
    calc 64 * spacing (n * unitsPerOne / 72)
        ≤ 64 * Nat.pow 2 e :=
          Nat.mul_le_mul_left _ (spacing_le_of_lt (Nat.div_lt_of_lt_mul hsmall))
      _ = unitsPerOne := he.symm
  · refine Nat.le_of_mul_le_mul_right ?_ hpos
    rw [divUnits]
    linarith
  · refine Nat.le_of_mul_le_mul_right ?_ hpos
    rw [divUnits]
    linarith

/-- A half has no error. -/
private theorem divUnits_half {m : Nat} (hm : m < 0x20000000000000) :
    2 * divUnits (36 * m * unitsPerOne) (72 * unitsPerOne) = m * unitsPerOne := by
  obtain ⟨e, he⟩ := exists_unitsPerOne (k := 1) (by decide)
  have he : unitsPerOne = 2 * Nat.pow 2 e := he
  have hhalf : 36 * m * unitsPerOne * unitsPerOne = m * Nat.pow 2 e * (72 * unitsPerOne) := by
    rw [he]
    ring
  rw [divUnits, hhalf, nearest_of_representable (Nat.mul_pos (by decide) unitsPerOne_pos)
    (representable_mul_twoPow (Nat.le_of_lt hm) e), he]
  ring

/-- A quotient by 72 is rounded correctly although it is computed with an error: that is less than what
lies between two 72nds, and halves have no error. -/
theorem roundUnits_div72 {n : Nat} (hn : n < 0x20000000000000) :
    roundUnits (divUnits (unitsOfNat n) (unitsOfNat 72)) = (n + 36) / 72 := by
  have hpos := unitsPerOne_pos
  rw [unitsOfNat_eq (Nat.le_of_lt hn), unitsOfNat_eq (by decide)]
  generalize hm : (n + 36) / 72 = m
  by_cases htie : n + 36 = 72 * m
  · obtain ⟨k, rfl⟩ : ∃ k, m = k + 1 := ⟨m - 1, by omega⟩
    obtain rfl : n = 36 * (2 * k + 1) := by omega
    have hhalf := divUnits_half (show 2 * k + 1 < 0x20000000000000 by omega)
    apply roundUnits_eq <;> linarith
  · obtain ⟨s, hs, hhigh, hlow⟩ := divUnits_error hn
    have hceil := Nat.mul_le_mul_right unitsPerOne (show n ≤ 72 * m + 35 by omega)
    have hfloor := Nat.mul_le_mul_right unitsPerOne (show 72 * m ≤ n + 35 by omega)
    apply roundUnits_eq <;> linarith

/-- However large the number, no more than one is added. -/
theorem roundUnits_div72_le (n : Nat) :
    roundUnits (divUnits (unitsOfNat n) (unitsOfNat 72)) ≤ n + 1 := by
  have hpos := unitsPerOne_pos
  have hn := nearest_le (n * unitsPerOne) Nat.one_pos
  have hdiv := nearest_le (unitsOfNat n * unitsPerOne) (Nat.mul_pos (by decide : 0 < 72) hpos)
  rw [unitsOfNat_eq (show 72 ≤ _ by decide), divUnits]
  have hquotient : 72 * nearest (unitsOfNat n * unitsPerOne) (72 * unitsPerOne)
      ≤ 2 * unitsOfNat n + 72 := by
    refine Nat.le_of_mul_le_mul_right ?_ hpos
    linarith
  refine Nat.le_of_lt_succ (Nat.div_lt_of_lt_mul (k := n + 2) ?_)
  have hnonneg := Nat.zero_le (n * unitsPerOne)
  rw [unitsOfNat] at hquotient ⊢
  linarith

end Compliance.Decimal
