import Compliance.Decimal.Literal
import Compliance.Proofs.DecimalValues
import Compliance.Proofs.Rounding

/-! Rounding to the nearest double. Between two neighbours on the grid around a number there is no other
magnitude, so the nearer of the two is the nearest of all. A number is rounded to zero up to half the
smallest magnitude, and this is where a decimal stops being positive. -/
namespace Compliance.Decimal

/-- The magnitude nearest to a number, both in units: none is nearer, and if another is as near, its
own significand is even. Whether it is too large for a double is not asked. -/
structure IsNearest (x : ℚ) (u : Nat) : Prop where
  representable : Representable u
  closest : ∀ v, Representable v → |(u : ℚ) - x| ≤ |(v : ℚ) - x|
  even : ∀ v, Representable v → v ≠ u → |(v : ℚ) - x| = |(u : ℚ) - x| → u / spacing u % 2 = 0

private theorem spacing_dvd {u v : Nat} (h : spacing u ≤ spacing v) : spacing u ∣ spacing v :=
  Nat.pow_dvd_pow 2 ((Nat.pow_le_pow_iff_right (by decide)).mp h)

/-- The grid around a magnitude has all magnitudes on one side or the other of its cells. -/
private theorem le_or_le_of_representable {w v : Nat} (hv : Representable v) :
    v ≤ w / spacing w * spacing w ∨ (w / spacing w + 1) * spacing w ≤ v := by
  rcases Nat.lt_or_ge w v with h | h
  · right
    have hdvd : spacing w ∣ v := Nat.dvd_trans (spacing_dvd (spacing_mono (Nat.le_of_lt h))) hv
    obtain ⟨k, rfl⟩ := hdvd
    rw [Nat.mul_comm (spacing w)]
    exact Nat.mul_le_mul_right _ (Nat.div_lt_of_lt_mul h)
  · left
    rcases Nat.lt_or_eq_of_le (spacing_mono h) with hstep | hstep
    · -- In a lower binade everything is below the significands of this one.
      have htwo := two_mul_spacing_le hstep
      have hsmall := lt_spacing v
      have hfloor := le_of_one_lt_spacing (Nat.lt_of_le_of_lt (spacing_pos v) hstep)
      have hq : 0x10000000000000 ≤ w / spacing w :=
        (Nat.le_div_iff_mul_le (spacing_pos w)).mpr hfloor
      have hgrid := Nat.mul_le_mul_right (spacing w) hq
      omega
    · have hq : v / spacing w ≤ w / spacing w := Nat.div_le_div_right h
      have hgrid := Nat.mul_le_mul_right (spacing w) hq
      rwa [← hstep, div_spacing_mul hv, hstep] at hgrid

/-- Between two neighbours, the nearer one is nearest. If both are as near, it has to be even. -/
theorem isNearest_of_neighbours {x : ℚ} {lo hi u : Nat} (hu : Representable u)
    (hgap : ∀ v, Representable v → v ≤ lo ∨ hi ≤ v) (hl : (lo : ℚ) ≤ x) (hh : x ≤ hi)
    (hlo : |(u : ℚ) - x| ≤ x - lo) (hhi : |(u : ℚ) - x| ≤ hi - x)
    (heven : x - lo = hi - x → u / spacing u % 2 = 0) (hside : u = lo ∨ u = hi) : IsNearest x u := by
  have hbelow : ∀ v : Nat, v ≤ lo → |(v : ℚ) - x| = x - v := fun v hv => by
    have hcast : (v : ℚ) ≤ lo := by exact_mod_cast hv
    rw [abs_sub_comm, abs_of_nonneg (by linarith)]
  have habove : ∀ v : Nat, hi ≤ v → |(v : ℚ) - x| = v - x := fun v hv => by
    have hcast : (hi : ℚ) ≤ v := by exact_mod_cast hv
    rw [abs_of_nonneg (by linarith)]
  refine ⟨hu, fun v hv => ?_, fun v hv hne htie => ?_⟩
  · rcases hgap v hv with h | h
    · have hcast : (v : ℚ) ≤ lo := by exact_mod_cast h
      rw [hbelow v h]
      linarith
    · have hcast : (hi : ℚ) ≤ v := by exact_mod_cast h
      rw [habove v h]
      linarith
  · -- What is as near is one of the neighbours, and so the other one.
    refine heven ?_
    rcases hgap v hv with h | h
    · have hcast : (v : ℚ) ≤ lo := by exact_mod_cast h
      rw [hbelow v h] at htie
      obtain rfl : v = lo := by
        have heq : (v : ℚ) = lo := by linarith
        exact_mod_cast heq
      obtain rfl : u = hi := hside.resolve_left (Ne.symm hne)
      rw [habove u (Nat.le_refl u)] at htie
      exact htie
    · have hcast : (hi : ℚ) ≤ v := by exact_mod_cast h
      rw [habove v h] at htie
      obtain rfl : v = hi := by
        have heq : (v : ℚ) = hi := by linarith
        exact_mod_cast heq
      obtain rfl : u = lo := hside.resolve_right (Ne.symm hne)
      rw [hbelow u (Nat.le_refl u)] at htie
      exact htie.symm

/-- An even multiple of a power of two has an even significand. -/
theorem even_significand {m : Nat} (hm : m ≤ 0x20000000000000) (heven : m % 2 = 0) (e : Nat) :
    m * Nat.pow 2 e / spacing (m * Nat.pow 2 e) % 2 = 0 := by
  rcases spacing_dvd_or_eq hm e with hdvd | heq
  · rw [Nat.mul_div_assoc m hdvd, Nat.mul_mod, heven, Nat.zero_mul]
  · rw [Nat.div_eq_of_eq_mul_left (spacing_pos _) heq]

section
variable {x f : ℚ} {q e : Nat}
  (hgap : ∀ v, Representable v → v ≤ q * Nat.pow 2 e ∨ (q + 1) * Nat.pow 2 e ≤ v)
  (hq : q < 0x20000000000000) (hx : x = (q * Nat.pow 2 e : ℕ) + f)
include hgap hq hx

/-- In the lower half of a cell of the grid the lower neighbour is nearest, -/
private theorem isNearest_lower (hf : 0 ≤ f) (hhalf : 2 * f ≤ (Nat.pow 2 e : ℕ))
    (heven : 2 * f = (Nat.pow 2 e : ℕ) → q % 2 = 0) : IsNearest x (q * Nat.pow 2 e) := by
  have hnext : (((q + 1) * Nat.pow 2 e : ℕ) : ℚ) = (q * Nat.pow 2 e : ℕ) + (Nat.pow 2 e : ℕ) := by
    push_cast
    ring
  refine isNearest_of_neighbours (representable_mul_twoPow (Nat.le_of_lt hq) e) hgap ?_ ?_ ?_ ?_
    (fun htie => even_significand (Nat.le_of_lt hq) (heven ?_) e) (.inl rfl)
  · linarith
  · linarith
  · rw [abs_sub_comm, abs_of_nonneg (by linarith)]
  · rw [abs_sub_comm, abs_of_nonneg (by linarith)]
    linarith
  · linarith

/-- and in the upper half the upper one. -/
private theorem isNearest_upper (hf : f ≤ (Nat.pow 2 e : ℕ)) (hhalf : (Nat.pow 2 e : ℕ) ≤ 2 * f)
    (heven : 2 * f = (Nat.pow 2 e : ℕ) → (q + 1) % 2 = 0) : IsNearest x ((q + 1) * Nat.pow 2 e) := by
  have hnext : (((q + 1) * Nat.pow 2 e : ℕ) : ℚ) = (q * Nat.pow 2 e : ℕ) + (Nat.pow 2 e : ℕ) := by
    push_cast
    ring
  refine isNearest_of_neighbours (representable_mul_twoPow hq e) hgap ?_ ?_ ?_ ?_
    (fun htie => even_significand hq (heven ?_) e) (.inr rfl)
  · linarith
  · linarith
  · rw [abs_of_nonneg (by linarith)]
    linarith
  · rw [abs_of_nonneg (by linarith)]
  · linarith

end

/-- Rounding gives the nearest magnitude. -/
theorem nearest_isNearest (num : Nat) {den : Nat} (hden : 0 < den) :
    IsNearest (num / den) (nearest num den) := by
  have hden' : (0 : ℚ) < den := by exact_mod_cast hden
  have hcell : num / (den * spacing (num / den)) = num / den / spacing (num / den) :=
    (Nat.div_div_eq_div_mul ..).symm
  have hgap := fun v hv => le_or_le_of_representable (w := num / den) (v := v) hv
  have hq : num / den / spacing (num / den) < 0x20000000000000 := div_spacing_lt _
  have hdiv := Nat.div_add_mod num (den * spacing (num / den))
  have hmod := Nat.mod_lt num (Nat.mul_pos hden (spacing_pos (num / den)))
  unfold nearest
  simp only
  rw [hcell] at hdiv ⊢
  generalize num % (den * spacing (num / den)) = r at hdiv hmod ⊢
  generalize num / den / spacing (num / den) = q at hgap hq hdiv ⊢
  obtain ⟨e, he⟩ : ∃ e, spacing (num / den) = Nat.pow 2 e := ⟨_, rfl⟩
  rw [he] at hgap hdiv hmod ⊢
  have hx : (num : ℚ) / den = (q * Nat.pow 2 e : ℕ) + r / den := by
    rw [← hdiv]
    push_cast
    field_simp
  -- The place in the cell, compared with its middle.
  have hle : 2 * ((r : ℚ) / den) ≤ (Nat.pow 2 e : ℕ) ↔ 2 * r ≤ den * Nat.pow 2 e := by
    rw [← mul_div_assoc, div_le_iff₀ hden', mul_comm _ (den : ℚ)]
    norm_cast
  have hge : (Nat.pow 2 e : ℕ) ≤ 2 * ((r : ℚ) / den) ↔ den * Nat.pow 2 e ≤ 2 * r := by
    rw [← mul_div_assoc, le_div_iff₀ hden', mul_comm _ (den : ℚ)]
    norm_cast
  have htie : 2 * ((r : ℚ) / den) = (Nat.pow 2 e : ℕ) → 2 * r = den * Nat.pow 2 e := fun h =>
    Nat.le_antisymm (hle.mp h.le) (hge.mp h.ge)
  split
  next h =>
    refine isNearest_lower hgap hq hx (by positivity) (hle.mpr ?_) fun ht => ?_
    · omega
    · have := htie ht
      omega
  next h =>
    have hend : (r : ℚ) / den ≤ (Nat.pow 2 e : ℕ) := by
      rw [div_le_iff₀ hden', mul_comm]
      exact_mod_cast Nat.le_of_lt hmod
    refine isNearest_upper hgap hq hx hend (hge.mpr ?_) fun ht => ?_
    · omega
    · have := htie ht
      omega

/-- Some magnitude is nearest to any number that is not negative. -/
theorem exists_isNearest {x : ℚ} (hx : 0 ≤ x) : ∃ u, IsNearest x u := by
  have h := nearest_isNearest x.num.toNat x.den_pos
  have hnum : ((x.num.toNat : ℕ) : ℚ) = x.num := by
    exact_mod_cast Int.toNat_of_nonneg (Rat.num_nonneg.mpr hx)
  rw [hnum, Rat.num_div_den] at h
  exact ⟨_, h⟩

/-- Up to half the smallest magnitude, zero is nearest, and only there. -/
theorem IsNearest.eq_zero_iff {x : ℚ} {u : Nat} (h : IsNearest x u) (hx : 0 ≤ x) :
    u = 0 ↔ 2 * x ≤ 1 := by
  constructor
  · rintro rfl
    have hone := h.closest 1 (show spacing 1 ∣ 1 by decide)
    rw [Nat.cast_zero, zero_sub, abs_neg, abs_of_nonneg hx, Nat.cast_one] at hone
    rcases le_abs.mp hone with hle | hle
    · linarith
    · linarith
  · intro hle
    refine Nat.eq_zero_of_not_pos fun hu => ?_
    have hcast : (1 : ℚ) ≤ u := by exact_mod_cast hu
    have hzero := h.closest 0 representable_zero
    rw [Nat.cast_zero, zero_sub, abs_neg, abs_of_nonneg hx, abs_of_nonneg (by linarith)] at hzero
    -- Then one is as near as zero is, and odd.
    have htie := h.even 0 representable_zero (Nat.ne_of_lt hu)
    rw [Nat.cast_zero, zero_sub, abs_neg, abs_of_nonneg hx, abs_of_nonneg (by linarith)] at htie
    have hodd := htie (by linarith)
    obtain rfl : u = 1 := by
      have heq : (u : ℚ) = 1 := by linarith
      exact_mod_cast heq
    exact absurd hodd (by decide)

private theorem nearest_eq_zero_iff (num : Nat) {den : Nat} (hden : 0 < den) :
    nearest num den = 0 ↔ 2 * num ≤ den := by
  have hden' : (0 : ℚ) < den := by exact_mod_cast hden
  rw [(nearest_isNearest num hden).eq_zero_iff (by positivity), ← mul_div_assoc, div_le_one₀ hden']
  exact_mod_cast Iff.rfl

private theorem twoPow_le_tenPow {k n : Nat} (h : k ≤ 3 * n) : Nat.pow 2 k ≤ Nat.pow 10 n :=
  calc 2 ^ k ≤ 2 ^ (3 * n) := Nat.pow_le_pow_right (by decide) h
    _ = 8 ^ n := Nat.pow_mul 2 3 n
    _ ≤ 10 ^ n := Nat.pow_le_pow_left (by decide) n

private theorem exists_unitsPerOne_eq : ∃ k : ℕ, k = 1074 ∧ unitsPerOne = Nat.pow 2 k := by
  unfold unitsPerOne
  generalize 1074 = k
  exact ⟨k, rfl, rfl⟩

private theorem two_mul_unitsPerOne_le {n : Nat} (hn : 400 ≤ n) :
    2 * unitsPerOne ≤ Nat.pow 10 n := by
  obtain ⟨k, hk, hone⟩ := exists_unitsPerOne_eq
  rw [hone]
  calc 2 * Nat.pow 2 k = Nat.pow 2 (k + 1) := (Nat.pow_succ').symm
    _ ≤ Nat.pow 10 n := twoPow_le_tenPow (by omega)

private theorem lt_of_digitCount (n : Nat) : n < Nat.pow 10 (digitCount n) :=
  (Nat.length_toDigits_le_iff (by decide) Nat.length_toDigits_pos).mp (Nat.le_refl _)

/-- A decimal is rounded to zero up to half the smallest magnitude. -/
theorem nearestToDecimal_eq_zero_iff (s : Scientific) :
    nearestToDecimal s.digits s.exponent = 0 ↔ 2 * s.inUnits.1 ≤ s.inUnits.2 := by
  have hpos := unitsPerOne_pos
  obtain ⟨digits, exponent⟩ := s
  unfold nearestToDecimal Scientific.inUnits unitsOfNat
  generalize maxUnits = most
  cases exponent with
  | ofNat e =>
    simp only [Int.ofNat_eq_natCast, Int.natCast_nonneg, if_true, Int.natAbs_natCast]
    split
    next h => simp [h]
    next h =>
      have hvalue : 0 < digits * Nat.pow 10 e * unitsPerOne :=
        Nat.mul_pos (Nat.mul_pos (Nat.pos_of_ne_zero h) (tenPow_pos e)) hpos
      split
      next =>
        refine iff_of_false (Nat.succ_ne_zero _) ?_
        omega
      next => exact nearest_eq_zero_iff _ Nat.one_pos
  | negSucc e =>
    have hneg : ¬ (0 : ℤ) ≤ Int.negSucc e := Int.not_le.mpr (Int.negSucc_lt_zero e)
    simp only [if_neg hneg, Int.natAbs_negSucc]
    split
    next h =>
      refine iff_of_true rfl ?_
      calc 2 * (digits * unitsPerOne)
          = digits * (2 * unitsPerOne) := Nat.mul_left_comm ..
        _ ≤ Nat.pow 10 (digitCount digits) * Nat.pow 10 (e + 1 - digitCount digits) :=
            Nat.mul_le_mul (Nat.le_of_lt (lt_of_digitCount digits)) (two_mul_unitsPerOne_le (by omega))
        _ = Nat.pow 10 (e + 1) := by
            show 10 ^ _ * 10 ^ _ = 10 ^ (e + 1)
            rw [← Nat.pow_add, Nat.add_sub_cancel' (by omega)]
    next => exact nearest_eq_zero_iff _ (tenPow_pos _)

theorem inUnits_le_iff (s : Scientific) :
    2 * s.inUnits.1 ≤ s.inUnits.2 ↔ 2 * (s.value * unitsPerOne) ≤ 1 := by
  have hden : (0 : ℚ) < s.inUnits.2 := by exact_mod_cast inUnits_den_pos s
  have hvalue := inUnits_value s
  generalize (unitsPerOne : ℚ) = one at hvalue ⊢
  calc 2 * s.inUnits.1 ≤ s.inUnits.2
      ↔ (2 * (s.value * one)) * s.inUnits.2 ≤ 1 * s.inUnits.2 := by
        rw [one_mul, mul_assoc, ← hvalue]
        norm_cast
    _ ↔ 2 * (s.value * one) ≤ 1 := mul_le_mul_iff_left₀ hden

/-- Half the smallest magnitude, as a number. -/
theorem two_mul_units_le_one_iff (x : ℚ) :
    2 * (x * unitsPerOne) ≤ 1 ↔ x ≤ (2 : ℚ) ^ (-1075 : ℤ) := by
  obtain ⟨k, hk, hone⟩ := exists_unitsPerOne_eq
  have hexponent : (-1075 : ℤ) = -((k + 1 : ℕ) : ℤ) := by omega
  have hpow : (0 : ℚ) < 2 ^ (k + 1) := by positivity
  have hcast : ((Nat.pow 2 k : ℕ) : ℚ) = 2 ^ k := Nat.cast_pow 2 k
  rw [hexponent, zpow_neg, zpow_natCast, ← one_div, le_div_iff₀ hpow, hone, hcast, pow_succ,
    mul_left_comm, mul_comm 2]

def Double.value (d : Double) : ℚ := (if d.negative then -1 else 1) * (d.units / unitsPerOne)

theorem Double.value_le_zero_iff (d : Double) : d.value ≤ 0 ↔ d.negative = true ∨ d.units = 0 := by
  have hone : (0 : ℚ) < unitsPerOne := by exact_mod_cast unitsPerOne_pos
  unfold Double.value
  generalize (unitsPerOne : ℚ) = one at hone ⊢
  have hunits : (0 : ℚ) ≤ d.units / one := by positivity
  cases d.negative with
  | true =>
    rw [if_pos rfl, neg_one_mul]
    exact iff_of_true (neg_nonpos.mpr hunits) (.inl rfl)
  | false =>
    rw [if_neg Bool.false_ne_true, one_mul, div_le_iff₀ hone, zero_mul, Nat.cast_nonpos]
    simp only [Bool.false_eq_true, false_or]

end Compliance.Decimal
