import Compliance.Decimal.Shortest

/-! Magnitudes with a significand of 53 bits. Rounding gives no others, and what rounds to one of
them rounds to no other, so the rounding intervals tell them apart. -/
namespace Compliance.Decimal

/-- Whether a magnitude is a multiple of the spacing around it. -/
def Representable (units : Nat) : Prop := spacing units ∣ units

theorem spacing_pos (units : Nat) : 0 < spacing units := Nat.pow_pos (by decide)

/-- A significand has 53 bits at most, -/
theorem lt_spacing (units : Nat) : units < 0x20000000000000 * spacing units := by
  have hlog : units < 2 ^ (units.log2 + 1) := Nat.lt_log2_self
  have hpow : 2 ^ (units.log2 + 1) ≤ 2 ^ 53 * 2 ^ (units.log2 - 52) := by
    rw [← Nat.pow_add]
    exact Nat.pow_le_pow_right (by decide) (by omega)
  exact Nat.lt_of_lt_of_le hlog hpow

/-- and exactly 53 above the smallest numbers. -/
theorem le_of_one_lt_spacing {units : Nat} (h : 1 < spacing units) :
    0x10000000000000 * spacing units ≤ units := by
  have hlog : 52 < units.log2 := by
    refine Nat.lt_of_not_le fun hle => ?_
    rw [spacing, Nat.sub_eq_zero_of_le hle] at h
    exact absurd h (by decide)
  have hne : units ≠ 0 := by
    rintro rfl
    exact absurd hlog (by decide)
  have hpow : 2 ^ 52 * 2 ^ (units.log2 - 52) = 2 ^ units.log2 := by
    rw [← Nat.pow_add]
    exact congrArg _ (by omega)
  exact hpow ▸ Nat.log2_self_le hne

theorem spacing_mono {u v : Nat} (h : u ≤ v) : spacing u ≤ spacing v := by
  rcases Nat.eq_zero_or_pos u with rfl | hu
  · exact spacing_pos v
  · have hlog : u.log2 ≤ v.log2 :=
      (Nat.le_log2 (by omega)).mpr (Nat.le_trans (Nat.log2_self_le (by omega)) h)
    exact Nat.pow_le_pow_right (by decide) (by omega)

/-- A larger spacing is twice as large at least. -/
theorem two_mul_spacing_le {u v : Nat} (h : spacing u < spacing v) :
    2 * spacing u ≤ spacing v := by
  have hexp : u.log2 - 52 < v.log2 - 52 := (Nat.pow_lt_pow_iff_right (by decide)).mp h
  have hpow : 2 ^ (u.log2 - 52 + 1) ≤ 2 ^ (v.log2 - 52) := Nat.pow_le_pow_right (by decide) hexp
  rw [Nat.pow_succ, Nat.mul_comm] at hpow
  exact hpow

/-- A number of 53 bits, scaled by a power of two, has that power in its significand, if it is not itself
the next power of two. -/
theorem spacing_dvd_or_eq {m : Nat} (hm : m ≤ 0x20000000000000) (e : Nat) :
    spacing (m * Nat.pow 2 e) ∣ Nat.pow 2 e ∨
      m * Nat.pow 2 e = 0x10000000000000 * spacing (m * Nat.pow 2 e) := by
  have hpos : 0 < Nat.pow 2 e := Nat.pow_pos (by decide)
  rcases Nat.lt_or_ge (Nat.pow 2 e) (spacing (m * Nat.pow 2 e)) with hlt | hge
  · right
    have htwo : 2 * Nat.pow 2 e ≤ spacing (m * Nat.pow 2 e) := by
      have hexp := (Nat.pow_lt_pow_iff_right (by decide : 1 < 2)).mp hlt
      calc 2 * Nat.pow 2 e = 2 ^ (e + 1) := (Nat.pow_succ').symm
        _ ≤ spacing (m * Nat.pow 2 e) := Nat.pow_le_pow_right (by decide) hexp
    have hlow := le_of_one_lt_spacing (Nat.lt_of_le_of_lt hpos hlt)
    have hhigh := Nat.mul_le_mul_right (Nat.pow 2 e) hm
    omega
  · left
    exact Nat.pow_dvd_pow 2 ((Nat.pow_le_pow_iff_right (by decide : 1 < 2)).mp hge)

/-- So it is representable. -/
theorem representable_mul_twoPow {m : Nat} (hm : m ≤ 0x20000000000000) (e : Nat) :
    Representable (m * Nat.pow 2 e) := by
  rcases spacing_dvd_or_eq hm e with hdvd | heq
  · exact Nat.dvd_trans hdvd (Nat.dvd_mul_left _ m)
  · exact ⟨0x10000000000000, heq.trans (Nat.mul_comm ..)⟩

theorem nearest_representable (num den : Nat) : Representable (nearest num den) := by
  have hq : num / (den * spacing (num / den)) < 0x20000000000000 := by
    rw [← Nat.div_div_eq_div_mul]
    exact Nat.div_lt_of_lt_mul (Nat.mul_comm _ _ ▸ lt_spacing _)
  unfold nearest
  simp only
  split
  next => exact representable_mul_twoPow (Nat.le_of_lt hq) _
  next => exact representable_mul_twoPow hq _

/-- Four times the distance to the lower end of the rounding interval, which is shorter at a power
of two. -/
def below (units : Nat) : Nat :=
  if units / spacing units = Nat.pow 2 52 ∧ 1 < spacing units then spacing units
  else 2 * spacing units

/-- What rounds to a magnitude lies in its interval, and at an end only if the significand is even. -/
private theorem roundsTo_bounds {u num den : Nat} (h : roundsTo u num den = true) :
    4 * num ≤ (4 * u + 2 * spacing u) * den ∧ (4 * u - below u) * den ≤ 4 * num ∧
    (u / spacing u % 2 = 0 ∨
      4 * num < (4 * u + 2 * spacing u) * den ∧ (4 * u - below u) * den < 4 * num) := by
  unfold roundsTo at h
  simp only at h
  split at h
  next heven =>
    obtain ⟨hlow, hhigh⟩ := of_decide_eq_true h
    exact ⟨hhigh, hlow, .inl heven⟩
  next =>
    obtain ⟨hlow, hhigh⟩ := of_decide_eq_true h
    exact ⟨Nat.le_of_lt hhigh, Nat.le_of_lt hlow, .inr ⟨hhigh, hlow⟩⟩

theorem div_spacing_mul {u : Nat} (hu : Representable u) : u / spacing u * spacing u = u :=
  Nat.div_mul_cancel hu

theorem div_spacing_lt (u : Nat) : u / spacing u < 0x20000000000000 :=
  Nat.div_lt_of_lt_mul (Nat.mul_comm _ _ ▸ lt_spacing u)

/-- Whether the interval of a magnitude ends where that of another begins, or before. If it ends there,
one of the two significands is odd. -/
def EndsBefore (u v : Nat) : Prop :=
  4 * u + 2 * spacing u + below v ≤ 4 * v ∧
    (u / spacing u % 2 = 0 → v / spacing v % 2 = 0 → 4 * u + 2 * spacing u + below v < 4 * v)

/-- In another binade the larger magnitude has at least twice the spacing. -/
private theorem endsBefore_of_spacing_lt {u v : Nat} (hu : Representable u) (hv : Representable v)
    (h : spacing u < spacing v) : EndsBefore u v := by
  have hmu := div_spacing_mul hu
  have hmv := div_spacing_mul hv
  have hsignificand := div_spacing_lt u
  have htwo := two_mul_spacing_le h
  have hone : 1 < spacing v := Nat.lt_of_le_of_lt (spacing_pos u) h
  have hfloor := le_of_one_lt_spacing hone
  have hbelow : below v = spacing v ∨ below v = 2 * spacing v ∧
      (0x10000000000000 + 1) * spacing v ≤ v := by
    rw [below]
    split
    next => exact .inl rfl
    next hne =>
      refine .inr ⟨rfl, ?_⟩
      have hq : 0x10000000000000 ≤ v / spacing v :=
        (Nat.le_div_iff_mul_le (spacing_pos v)).mpr hfloor
      have hne : v / spacing v ≠ 0x10000000000000 := fun he => hne ⟨he, hone⟩
      refine Nat.le_trans (Nat.mul_le_mul_right _ ?_) (Nat.le_of_eq hmv)
      omega
  have hodd : u ≤ 0x1fffffffffffff * spacing u :=
    Nat.le_trans (Nat.le_of_eq hmu.symm)
      (Nat.mul_le_mul_right _ (Nat.le_of_lt_succ hsignificand))
  have heven : u / spacing u % 2 = 0 → u ≤ 0x1ffffffffffffe * spacing u := fun he => by
    refine Nat.le_trans (Nat.le_of_eq hmu.symm) (Nat.mul_le_mul_right _ ?_)
    omega
  constructor
  · omega
  · intro he _
    have := heven he
    omega

/-- In one binade the significands differ by one at least, by two if both are even. -/
private theorem endsBefore_of_spacing_eq {u v : Nat} (hu : Representable u) (hv : Representable v)
    (hstep : spacing u = spacing v) (h : u < v) : EndsBefore u v := by
  have hmu := div_spacing_mul hu
  have hmv := div_spacing_mul hv
  rw [EndsBefore]
  rw [← hstep] at hmv ⊢
  have hproducts : u / spacing u * spacing u < v / spacing u * spacing u := by omega
  have hlt : u / spacing u < v / spacing u := Nat.lt_of_mul_lt_mul_right hproducts
  have hbelow : below v = 2 * spacing u := by
    rw [below, ← hstep]
    refine if_neg fun ⟨he, hone⟩ => ?_
    have hfloor := le_of_one_lt_spacing hone
    have he : v / spacing u = 0x10000000000000 := he
    have hbound := Nat.mul_le_mul_right (spacing u) (he ▸ hlt : u / spacing u < 0x10000000000000)
    rw [Nat.succ_mul] at hbound
    omega
  have hnext := Nat.mul_le_mul_right (spacing u) hlt
  rw [Nat.succ_mul] at hnext
  constructor
  · omega
  · intro he he'
    have hsecond := Nat.mul_le_mul_right (spacing u)
      (show u / spacing u + 2 ≤ v / spacing u by omega)
    rw [Nat.add_mul] at hsecond
    omega

private theorem endsBefore_of_lt {u v : Nat} (hu : Representable u) (hv : Representable v)
    (h : u < v) :
    EndsBefore u v := by
  rcases Nat.lt_or_eq_of_le (spacing_mono (Nat.le_of_lt h)) with hstep | hstep
  · exact endsBefore_of_spacing_lt hu hv hstep
  · exact endsBefore_of_spacing_eq hu hv hstep h

/-- What rounds to a magnitude does not round to a larger one, for the intervals do not meet. -/
private theorem not_lt_of_roundsTo {u v num den num' den' : Nat} (hu : Representable u)
    (hv : Representable v) (hden : 0 < den) (hden' : 0 < den') (heq : num * den' = num' * den)
    (hnu : roundsTo u num den = true) (hnv : roundsTo v num' den' = true) : ¬ u < v := by
  intro h
  obtain ⟨hgap, hstrict⟩ := endsBefore_of_lt hu hv h
  obtain ⟨hhigh, _, hodd⟩ := roundsTo_bounds hnu
  obtain ⟨_, hlow, hodd'⟩ := roundsTo_bounds hnv
  -- Both bounds, on a common denominator.
  have hends := Nat.mul_le_mul_right (den * den')
    (show 4 * u + 2 * spacing u ≤ 4 * v - below v by omega)
  have hhigh := Nat.mul_le_mul_right den' hhigh
  have hlow := Nat.mul_le_mul_right den hlow
  rw [Nat.mul_assoc, Nat.mul_assoc] at hhigh
  rw [Nat.mul_assoc, Nat.mul_comm den' den, Nat.mul_assoc] at hlow
  rcases hodd with heven | ⟨hlt, _⟩
  · rcases hodd' with heven' | ⟨_, hlt⟩
    · have hstrict := hstrict heven heven'
      have := Nat.mul_lt_mul_of_pos_right
        (show 4 * u + 2 * spacing u < 4 * v - below v by omega) (Nat.mul_pos hden hden')
      omega
    · have := Nat.mul_lt_mul_of_pos_right hlt hden
      rw [Nat.mul_assoc, Nat.mul_comm den' den, Nat.mul_assoc] at this
      omega
  · have := Nat.mul_lt_mul_of_pos_right hlt hden'
    rw [Nat.mul_assoc, Nat.mul_assoc] at this
    omega

/-- A number rounds to one magnitude only, however it is written as a quotient. -/
theorem roundsTo_unique {u v num den num' den' : Nat} (hu : Representable u) (hv : Representable v)
    (hden : 0 < den) (hden' : 0 < den') (heq : num * den' = num' * den)
    (hnu : roundsTo u num den = true) (hnv : roundsTo v num' den' = true) : u = v := by
  rcases Nat.lt_trichotomy u v with h | h | h
  · exact absurd h (not_lt_of_roundsTo hu hv hden hden' heq hnu hnv)
  · exact h
  · exact absurd h (not_lt_of_roundsTo hv hu hden' hden heq.symm hnv hnu)

/-- A magnitude rounds to itself. -/
theorem roundsTo_self (u : Nat) {den : Nat} (hden : 0 < den) : roundsTo u (u * den) den = true := by
  have hpos := spacing_pos u
  have hbelow : 0 < below u := by
    rw [below]
    split <;> omega
  have hlow : (4 * u - below u) * den ≤ 4 * (u * den) := by
    rw [← Nat.mul_assoc]
    exact Nat.mul_le_mul_right den (Nat.sub_le _ _)
  have hhigh : 4 * (u * den) < (4 * u + 2 * spacing u) * den := by
    rw [← Nat.mul_assoc]
    exact Nat.mul_lt_mul_of_pos_right (by omega) hden
  unfold roundsTo
  simp only
  split
  next => exact decide_eq_true ⟨hlow, Nat.le_of_lt hhigh⟩
  next hodd =>
    have hu : 0 < u := by
      refine Nat.pos_of_ne_zero ?_
      rintro rfl
      rw [Nat.zero_div] at hodd
      exact hodd rfl
    refine decide_eq_true ⟨?_, hhigh⟩
    rw [← Nat.mul_assoc]
    exact Nat.mul_lt_mul_of_pos_right (show 4 * u - below u < 4 * u by omega) hden

theorem representable_zero : Representable 0 := Nat.dvd_zero _

private theorem growByTen_representable {units e r : Nat} (h : growByTen units e = some r) :
    Representable r := by
  unfold growByTen at h
  split at h
  next =>
    simp only at h
    split at h
    next =>
      rw [← Option.some.inj h]
      exact nearest_representable _ _
    next => cases h
  next =>
    split at h
    next =>
      rw [← Option.some.inj h]
      exact representable_zero
    next => cases h

private theorem shrinkByTen_representable (steps units rest : Nat) :
    Representable (shrinkByTen steps units rest) := by
  induction steps generalizing units with
  | zero => exact nearest_representable _ _
  | succ steps ih =>
    rw [shrinkByTen]
    split
    next => exact representable_zero
    next => exact ih _

/-- Numbers that are read from text are representable. -/
theorem ofScientific_representable {negative : Bool} {significand : Nat} {exponent : Int}
    {d : Double} (h : ofScientific? negative significand exponent = some d) :
    Representable d.units := by
  unfold ofScientific? at h
  split at h
  next =>
    obtain ⟨r, hr, rfl⟩ := Option.map_eq_some_iff.mp h
    exact growByTen_representable hr
  next =>
    rw [← Option.some.inj h]
    exact shrinkByTen_representable _ _ _

end Compliance.Decimal
