import Compliance.Json.Writer
import Compliance.Proofs.Numerals
import Mathlib.Logic.Basic

/-! The numerals by which numbers are written. Every number has one, doubles in either of their two
forms included, so reading a written number never fails. -/
namespace Compliance
open Json (Numeral)
open Json.Numeral (Digits digitsText)

namespace Decimal

def digitsOf (n : Nat) : List Nat := (Nat.toDigits 10 n).map fun c => c.toNat - '0'.toNat

private theorem digitsOf_of_lt {n : Nat} (h : n < 10) : digitsOf n = [n] := by
  have hd : n.digitChar.toNat - '0'.toNat = n := Nat.toNat_digitChar_sub_48_of_lt_ten h
  rw [digitsOf, Nat.toDigits_of_lt_base h, List.map_singleton, hd]

private theorem digitsOf_of_le {n : Nat} (h : 10 ≤ n) :
    digitsOf n = digitsOf (n / 10) ++ [n % 10] := by
  have hd : (n % 10).digitChar.toNat - '0'.toNat = n % 10 :=
    Nat.toNat_digitChar_sub_48_of_lt_ten (Nat.mod_lt n (by decide))
  rw [digitsOf, Nat.toDigits_of_base_le (by decide) h, List.map_append, List.map_singleton, hd]
  rfl

/-- Induction on a number, its last digit taken off. -/
theorem digits_induction {p : Nat → Prop} (small : ∀ n, n < 10 → p n)
    (large : ∀ n, 10 ≤ n → p (n / 10) → p n) (n : Nat) : p n := by
  induction n using Nat.strongRecOn with
  | ind n ih =>
    by_cases h : n < 10
    · exact small n h
    · exact large n (by omega) (ih (n / 10) (by omega))

theorem digitsOf_ne_nil (n : Nat) : digitsOf n ≠ [] := by
  rw [digitsOf, ne_eq, List.map_eq_nil_iff]
  exact Nat.toDigits_ne_nil

theorem digits_digitsOf (n : Nat) : Digits (digitsOf n) := by
  induction n using digits_induction with
  | small n h =>
    rw [digitsOf_of_lt h]
    exact List.forall_mem_singleton.mpr h
  | large n h ih =>
    rw [digitsOf_of_le h]
    exact List.forall_mem_append.mpr ⟨ih, List.forall_mem_singleton.mpr (Nat.mod_lt n (by decide))⟩

theorem digitsText_digitsOf (n : Nat) : digitsText (digitsOf n) = Nat.toDigits 10 n := by
  induction n using digits_induction with
  | small n h => rw [digitsOf_of_lt h, Nat.toDigits_of_lt_base h]; rfl
  | large n h ih =>
    rw [digitsOf_of_le h, Nat.toDigits_of_base_le (by decide) h, ← ih, digitsText, List.map_append]
    rfl

private theorem head?_digitsOf_append (n : Nat) (es : List Nat) :
    (digitsOf n ++ es).head? = (digitsOf n).head? := by
  cases hd : digitsOf n with
  | nil => exact absurd hd (digitsOf_ne_nil n)
  | cons d ds => rfl

/-- Only zero is written with a zero in front. -/
theorem eq_zero_of_head?_digitsOf {n : Nat} (h : (digitsOf n).head? = some 0) : n = 0 := by
  induction n using digits_induction with
  | small n hn =>
    rw [digitsOf_of_lt hn] at h
    exact Option.some.inj h
  | large n hn ih =>
    rw [digitsOf_of_le hn, head?_digitsOf_append] at h
    have := ih h
    omega

theorem ofDigits_append (ds es : List Nat) :
    Numeral.ofDigits (ds ++ es) = es.foldl (fun n d => n * 10 + d) (Numeral.ofDigits ds) :=
  List.foldl_append

@[simp] theorem ofDigits_digitsOf (n : Nat) : Numeral.ofDigits (digitsOf n) = n := by
  induction n using digits_induction with
  | small n h =>
    rw [digitsOf_of_lt h]
    exact Nat.zero_add n
  | large n h ih =>
    rw [digitsOf_of_le h, ofDigits_append, ih]
    exact Nat.div_add_mod' n 10

end Decimal

namespace Decimal.Scientific

def positionalNumeral (negative : Bool) (s : Scientific) : Numeral :=
  let ds := digitsOf s.digits
  if 0 ≤ s.exponent then ⟨negative, ds ++ List.replicate s.exponent.natAbs 0, [0], none⟩
  else if 0 ≤ s.leading then
    ⟨negative, ds.take (s.leading.natAbs + 1), ds.drop (s.leading.natAbs + 1), none⟩
  else ⟨negative, [0], List.replicate (s.leading.natAbs - 1) 0 ++ ds, none⟩

def exponentNumeral (negative : Bool) (s : Scientific) : Numeral :=
  let ds := digitsOf s.digits
  ⟨negative, ds.take 1, ds.drop 1, some (decide (s.leading < 0), digitsOf s.leading.natAbs)⟩

/-- Whether zero, if that is the number, has no positive exponent. -/
def Normal (s : Scientific) : Prop := s.digits = 0 → s.exponent ≤ 0

private theorem length_digitList (s : Scientific) :
    s.digitList.length = (digitsOf s.digits).length :=
  (List.length_map _).symm

theorem leading_eq (s : Scientific) :
    s.leading = s.exponent + (digitsOf s.digits).length - 1 := by
  rw [leading, length_digitList]

private theorem digits_replicate (n : Nat) : Digits (List.replicate n 0) := by
  intro d hd
  rw [List.eq_of_mem_replicate hd]
  decide

private theorem fractionText_of_ne_nil {ds : List Nat} (h : ds ≠ []) :
    Numeral.fractionText ds = '.' :: digitsText ds := if_neg h

private theorem digitsText_append (ds es : List Nat) :
    digitsText (ds ++ es) = digitsText ds ++ digitsText es := List.map_append

private theorem digitsText_replicate (n : Nat) :
    digitsText (List.replicate n 0) = List.replicate n '0' := List.map_replicate

def signText (negative : Bool) : List Char := if negative then ['-'] else []

private theorem positional_eq_text (negative : Bool) (s : Scientific) :
    (s.positionalNumeral negative).text = signText negative ++ s.positional := by
  have hlist : s.digitList = digitsText (digitsOf s.digits) := (digitsText_digitsOf _).symm
  have hlead := s.leading_eq
  by_cases h0 : 0 ≤ s.exponent
  · simp only [positionalNumeral, positional, if_pos h0]
    rw [Numeral.text, fractionText_of_ne_nil (List.cons_ne_nil _ _), digitsText_append, hlist,
      digitsText_replicate]
    simp [signText, Numeral.exponentText, digitsText]
  · by_cases h1 : 0 ≤ s.leading
    · have hne : (digitsOf s.digits).drop (s.leading.natAbs + 1) ≠ [] := by
        rw [ne_eq, List.drop_eq_nil_iff]
        omega
      simp only [positionalNumeral, positional, if_neg h0, if_pos h1]
      rw [Numeral.text, fractionText_of_ne_nil hne, hlist]
      simp [signText, Numeral.exponentText, digitsText]
    · have hne : List.replicate (s.leading.natAbs - 1) 0 ++ digitsOf s.digits ≠ [] :=
        List.append_ne_nil_of_right_ne_nil _ (digitsOf_ne_nil _)
      simp only [positionalNumeral, positional, if_neg h0, if_neg h1]
      rw [Numeral.text, fractionText_of_ne_nil hne, hlist, digitsText_append, digitsText_replicate]
      simp [signText, Numeral.exponentText, digitsText]

private theorem withExponent_eq_text (negative : Bool) (s : Scientific) :
    (s.exponentNumeral negative).text = signText negative ++ s.withExponent := by
  have hlist : s.digitList = digitsText (digitsOf s.digits) := (digitsText_digitsOf _).symm
  have hsign : (if 0 ≤ s.leading then '+' else '-') = if s.leading < 0 then '-' else '+' := by
    split <;> split <;> first | rfl | omega
  have hexp : Numeral.exponentText (some (decide (s.leading < 0), digitsOf s.leading.natAbs))
      = 'e' :: (if 0 ≤ s.leading then '+' else '-') :: Nat.toDigits 10 s.leading.natAbs := by
    rw [Numeral.exponentText, digitsText_digitsOf, hsign]
    simp only [decide_eq_true_eq]
  rw [exponentNumeral, withExponent, hlist, Numeral.text, hexp]
  cases h : digitsOf s.digits with
  | nil => exact absurd h (digitsOf_ne_nil _)
  | cons d ds => cases ds <;> simp [signText, Numeral.fractionText, digitsText]

private theorem positionalNumeral_proper (negative : Bool) {s : Scientific} (h : s.Normal) :
    (s.positionalNumeral negative).Proper := by
  have hds := digits_digitsOf s.digits
  have hne := digitsOf_ne_nil s.digits
  have hlead := s.leading_eq
  rw [positionalNumeral]
  split
  next h0 =>
    refine ⟨List.forall_mem_append.mpr ⟨hds, digits_replicate _⟩, List.forall_mem_singleton.mpr
      (by decide), nofun, List.append_ne_nil_of_left_ne_nil hne _, fun hz => ?_⟩
    have hzero := eq_zero_of_head?_digitsOf ((head?_digitsOf_append _ _).symm.trans hz)
    have hexp : s.exponent.natAbs = 0 := by have := h hzero; omega
    rw [hexp, hzero]
    rfl
  next h0 =>
    split
    next h1 =>
      refine ⟨fun d hd => hds d (List.mem_of_mem_take hd), fun d hd => hds d (List.mem_of_mem_drop hd),
        nofun, ?_, fun hz => ?_⟩
      · rw [ne_eq, List.take_eq_nil_iff]
        exact not_or.mpr ⟨Nat.succ_ne_zero _, hne⟩
      · rw [List.head?_take, if_neg (Nat.succ_ne_zero _)] at hz
        have hzero : digitsOf s.digits = [0] := by
          rw [eq_zero_of_head?_digitsOf hz]
          rfl
        simp only [hzero, List.take_succ_cons, List.take_nil]
    next h1 =>
      exact ⟨List.forall_mem_singleton.mpr (by decide),
        List.forall_mem_append.mpr ⟨digits_replicate _, hds⟩, nofun, List.cons_ne_nil _ _,
        fun _ => rfl⟩

private theorem exponentNumeral_proper (negative : Bool) (s : Scientific) :
    (s.exponentNumeral negative).Proper := by
  have hds := digits_digitsOf s.digits
  rw [exponentNumeral]
  refine ⟨fun d hd => hds d (List.mem_of_mem_take hd), fun d hd => hds d (List.mem_of_mem_drop hd),
    fun e he => ?_, ?_, fun hz => ?_⟩
  · cases he
    exact ⟨digits_digitsOf _, digitsOf_ne_nil _⟩
  · rw [ne_eq, List.take_eq_nil_iff]
    exact not_or.mpr ⟨Nat.one_ne_zero, digitsOf_ne_nil _⟩
  · cases hd : digitsOf s.digits with
    | nil => exact absurd hd (digitsOf_ne_nil _)
    | cons d ds =>
      rw [hd] at hz
      rw [List.take_succ_cons, Option.some.inj hz]
      rfl

end Decimal.Scientific

namespace Decimal

private theorem le_of_digitCount {n : Nat} (h : n ≠ 0) : Nat.pow 10 (digitCount n - 1) ≤ n := by
  rcases Nat.eq_zero_or_pos (digitCount n - 1) with h0 | hpos
  · rw [h0]
    exact Nat.pos_of_ne_zero h
  · refine Nat.le_of_not_lt fun hlt => ?_
    have hcount := (Nat.length_toDigits_le_iff (by decide) hpos).mpr hlt
    rw [digitCount] at hpos hcount
    omega

private theorem twoPow_pos (n : Nat) : 0 < Nat.pow 2 n := Nat.pow_pos (by decide)

theorem tenPow_pos (n : Nat) : 0 < Nat.pow 10 n := Nat.pow_pos (by decide)

theorem unitsPerOne_pos : 0 < unitsPerOne := by
  unfold unitsPerOne
  generalize 1074 = n
  exact twoPow_pos n

/-- Below the exponent of a magnitude of one or more there is a power of ten. -/
private theorem tenPower_le_of_lt_magnitudeExponent {units k : Nat}
    (h : (k : Int) < magnitudeExponent units) :
    unitsPerOne * Nat.pow 10 k ≤ units := by
  rw [magnitudeExponent] at h
  split at h
  next hone =>
    have hne : units / unitsPerOne ≠ 0 := Nat.ne_of_gt (Nat.div_pos hone unitsPerOne_pos)
    have hk : Nat.pow 10 k ≤ units / unitsPerOne :=
      Nat.le_trans (Nat.pow_le_pow_right (by decide) (by omega)) (le_of_digitCount hne)
    exact Nat.le_trans (Nat.mul_le_mul_left _ hk) (Nat.mul_div_le ..)
  next => omega

/-- The value of a decimal in units, as a quotient. -/
def Scientific.inUnits (s : Scientific) : Nat × Nat :=
  if 0 ≤ s.exponent then (s.digits * Nat.pow 10 s.exponent.natAbs * unitsPerOne, 1)
  else (s.digits * unitsPerOne, Nat.pow 10 s.exponent.natAbs)

/-- How often a power of ten fits into a magnitude. -/
def gridFloor (units : Nat) (exponent : Int) : Nat :=
  (if 0 ≤ exponent then units else units * Nat.pow 10 exponent.natAbs)
    / (if 0 ≤ exponent then unitsPerOne * Nat.pow 10 exponent.natAbs else unitsPerOne)

/-- Of two neighbours one is taken that is a hit. -/
private theorem neighbour_eq_some {hit : Nat → Bool} {c : Nat} {near : Prop} [Decidable near]
    {exponent : Int} {s : Scientific} (h : (match hit c, hit (c + 1) with
      | true, true => some ⟨if near then c else c + 1, exponent⟩
      | true, false => some ⟨c, exponent⟩
      | false, true => some ⟨c + 1, exponent⟩
      | false, false => none) = some s) :
    s.exponent = exponent ∧ c ≤ s.digits ∧ hit s.digits = true := by
  split at h
  next hfloor hnext =>
    obtain rfl := Option.some.inj h
    rcases ite_eq_or_eq near c (c + 1) with hc | hc
    · rw [hc]
      exact ⟨rfl, Nat.le_refl c, hfloor⟩
    · rw [hc]
      exact ⟨rfl, Nat.le_succ c, hnext⟩
  next hfloor _ =>
    obtain rfl := Option.some.inj h
    exact ⟨rfl, Nat.le_refl c, hfloor⟩
  next _ hnext =>
    obtain rfl := Option.some.inj h
    exact ⟨rfl, Nat.le_succ c, hnext⟩
  next => cases h

/-- What is found on a grid is a neighbour of the magnitude, and rounds to it. -/
theorem onGrid_eq_some {units : Nat} {exponent : Int} {s : Scientific}
    (h : onGrid? units exponent = some s) :
    s.exponent = exponent ∧ gridFloor units exponent ≤ s.digits ∧
      roundsTo units s.inUnits.1 s.inUnits.2 = true := by
  unfold gridFloor Scientific.inUnits
  unfold onGrid? at h
  -- As a numeral the unit is too large to be compared.
  generalize unitsPerOne = one at h ⊢
  extract_lets num den scaled hit c twice at h
  obtain ⟨rfl, hfloor, hhit⟩ := neighbour_eq_some h
  exact ⟨rfl, hfloor, hhit⟩

/-- On a grid coarser than whole numbers the neighbours of a magnitude that is not below the grid are
not zero. -/
private theorem onGrid_normal {units : Nat} {exponent : Int} {s : Scientific}
    (he : exponent < magnitudeExponent units) (h : onGrid? units exponent = some s) : s.Normal := by
  obtain ⟨rfl, hle, _⟩ := onGrid_eq_some h
  intro hz
  refine Int.le_of_not_gt fun hpos => ?_
  have hk : (s.exponent.natAbs : Int) = s.exponent := by omega
  have hunits := tenPower_le_of_lt_magnitudeExponent (hk ▸ he)
  have hfloor := Nat.div_pos hunits (Nat.mul_pos unitsPerOne_pos (tenPow_pos _))
  have h0 : 0 ≤ s.exponent := Int.le_of_lt hpos
  rw [gridFloor, if_pos h0, if_pos h0] at hle
  omega

private theorem strip_normal {s : Scientific} (h : s.Normal) (fuel : Nat) :
    (s.strip fuel).Normal := by
  induction fuel generalizing s with
  | zero => exact h
  | succ fuel ih =>
    rw [Scientific.strip]
    split
    next hs =>
      apply ih
      intro hz
      have : s.digits / 10 = 0 := hz
      omega
    next => exact h

/-- The shortest decimal, before factors of ten are taken off it: zero, what was found on one of the
grids, or the magnitude itself on a grid that is fine enough for all of them. -/
theorem shortest_cases (units : Nat) :
    (units = 0 ∧ shortest units = ⟨0, 0⟩) ∨
      (∃ e s, e < magnitudeExponent units ∧ onGrid? units e = some s ∧
        shortest units = s.strip 18) ∨
      shortest units = ⟨units * Nat.pow 10 1074 / unitsPerOne, -1074⟩ := by
  unfold shortest
  split
  next hz => exact .inl ⟨hz, rfl⟩
  next hz =>
    simp only
    split
    next s hs =>
      obtain ⟨e, he, hgrid⟩ := List.exists_of_findSome?_eq_some hs
      obtain ⟨n, _, rfl⟩ := List.mem_map.mp he
      exact .inr (.inl ⟨_, s, by omega, hgrid, rfl⟩)
    next => exact .inr (.inr rfl)

private theorem shortest_normal (units : Nat) : (shortest units).Normal := by
  rcases shortest_cases units with ⟨_, h⟩ | ⟨e, s, he, hs, h⟩ | h
  · rw [h]
    exact fun _ => Int.le_refl 0
  · rw [h]
    exact strip_normal (onGrid_normal he hs) 18
  · rw [h]
    exact fun _ => Int.negSucc_le_zero 1073

end Decimal

def Number.numeral : Number → Numeral
  | .integer (.ofNat n) => ⟨false, Decimal.digitsOf n, [], none⟩
  | .integer (.negSucc n) => ⟨true, Decimal.digitsOf (n + 1), [], none⟩
  | .double d =>
    let s := Decimal.shortest d.units
    if d.units = 0 ∨ (-5 ≤ s.leading ∧ s.leading ≤ 15) then s.positionalNumeral d.negative
    else s.exponentNumeral d.negative

namespace Number

theorem render_eq_text (n : Number) : n.render = n.numeral.text := by
  match n with
  | .integer (.ofNat n) =>
    rw [render, numeral, Numeral.text, Decimal.digitsText_digitsOf]
    exact (List.append_nil _).symm.trans (List.append_nil _).symm
  | .integer (.negSucc n) =>
    rw [render, numeral, Numeral.text, Decimal.digitsText_digitsOf]
    exact (List.append_nil _).symm.trans (List.append_nil _).symm
  | .double d =>
    have hsign : ∀ cs, (if d.negative then '-' :: cs else cs)
        = Decimal.Scientific.signText d.negative ++ cs := by
      intro cs
      cases d.negative <;> rfl
    simp only [render, numeral, hsign]
    split
    next => rw [Decimal.Scientific.positional_eq_text]
    next => rw [Decimal.Scientific.withExponent_eq_text]

private theorem integer_proper (negative : Bool) (n : Nat) :
    (⟨negative, Decimal.digitsOf n, [], none⟩ : Numeral).Proper := by
  refine ⟨Decimal.digits_digitsOf n, nofun, nofun, Decimal.digitsOf_ne_nil n, fun hz => ?_⟩
  simp only [Decimal.eq_zero_of_head?_digitsOf hz]
  rfl

theorem numeral_proper (n : Number) : n.numeral.Proper := by
  match n with
  | .integer (.ofNat n) => exact integer_proper false n
  | .integer (.negSucc n) => exact integer_proper true (n + 1)
  | .double d =>
    unfold numeral
    simp only
    split
    next => exact Decimal.Scientific.positionalNumeral_proper _ (Decimal.shortest_normal _)
    next => exact Decimal.Scientific.exponentNumeral_proper _ _

/-- A number that is written is read as its numeral. -/
theorem scan_render (n : Number) {rest : List Char} (hr : Numeral.Ends rest) :
    Numeral.scan (n.render ++ rest) = .ok (n.numeral, rest) := by
  rw [render_eq_text]
  exact Numeral.scan_text n.numeral_proper hr

end Number
end Compliance
