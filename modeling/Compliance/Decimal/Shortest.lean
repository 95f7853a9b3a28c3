import Compliance.Decimal.Double

/-!
The shortest decimal that reads back to a double: of the decimals with the fewest digits that
round to it, the nearest one.
-/
namespace Compliance.Decimal

structure Scientific where
  digits : Nat
  exponent : Int
  deriving DecidableEq

/-- How many decimal digits a number has; zero has one. -/
def digitCount (n : Nat) : Nat := (Nat.toDigits 10 n).length

/-- How often a magnitude below one can be multiplied by ten and stay below one. -/
def leadingZeros : Nat → Nat → Nat
  | 0, _ => 0
  | fuel + 1, units => if unitsPerOne ≤ units * 10 then 0 else leadingZeros fuel (units * 10) + 1

/-- The exponent `e` for which a positive magnitude lies between `10 ^ (e - 1)` and `10 ^ e`. -/
def magnitudeExponent (units : Nat) : Int :=
  if unitsPerOne ≤ units then digitCount (units / unitsPerOne) else -leadingZeros 324 units

/-- Whether `num / den` units round to `units`: the ends of the rounding interval belong to it
when the significand is even. -/
def roundsTo (units num den : Nat) : Bool :=
  let step := spacing units
  let below := if units / step = Nat.pow 2 52 ∧ 1 < step then step else 2 * step
  let even := units / step % 2 = 0
  let low := (4 * units - below) * den
  let high := (4 * units + 2 * step) * den
  if even then low ≤ 4 * num ∧ 4 * num ≤ high else low < 4 * num ∧ 4 * num < high

/-- The multiple of `10 ^ exponent` that rounds to `units`, if there is one: the nearest of
the two neighbours, and of two equally near ones the even one. -/
def onGrid? (units : Nat) (exponent : Int) : Option Scientific :=
  let num := if 0 ≤ exponent then units else units * Nat.pow 10 exponent.natAbs
  let den := if 0 ≤ exponent then unitsPerOne * Nat.pow 10 exponent.natAbs else unitsPerOne
  let scaled (c : Nat) : Nat × Nat :=
    if 0 ≤ exponent then (c * Nat.pow 10 exponent.natAbs * unitsPerOne, 1)
    else (c * unitsPerOne, Nat.pow 10 exponent.natAbs)
  let hit (c : Nat) : Bool := roundsTo units (scaled c).1 (scaled c).2
  let c := num / den
  let twice := 2 * (num % den)
  match hit c, hit (c + 1) with
  | true, true => some ⟨if twice < den ∨ (twice = den ∧ c % 2 = 0) then c else c + 1, exponent⟩
  | true, false => some ⟨c, exponent⟩
  | false, true => some ⟨c + 1, exponent⟩
  | false, false => none

def Scientific.strip : Nat → Scientific → Scientific
  | 0, s => s
  | fuel + 1, s =>
    if s.digits % 10 = 0 ∧ s.digits ≠ 0 then strip fuel ⟨s.digits / 10, s.exponent + 1⟩ else s

/-- The shortest decimal of a magnitude. Seventeen digits always suffice. -/
def shortest (units : Nat) : Scientific :=
  if units = 0 then ⟨0, 0⟩
  else
    let e := magnitudeExponent units
    let grids := (List.range 17).map fun n => e - (n + 1 : Nat)
    match grids.findSome? (onGrid? units) with
    | some s => s.strip 18
    | none => ⟨units * Nat.pow 10 1074 / unitsPerOne, -1074⟩

namespace Scientific

def digitList (s : Scientific) : List Char := Nat.toDigits 10 s.digits

def leading (s : Scientific) : Int := s.exponent + s.digitList.length - 1

/-- Written without an exponent, with a digit on each side of the point. -/
def positional (s : Scientific) : List Char :=
  let ds := s.digitList
  if 0 ≤ s.exponent then ds ++ List.replicate s.exponent.natAbs '0' ++ ['.', '0']
  else if 0 ≤ s.leading then
    ds.take (s.leading.natAbs + 1) ++ '.' :: ds.drop (s.leading.natAbs + 1)
  else '0' :: '.' :: (List.replicate (s.leading.natAbs - 1) '0' ++ ds)

/-- Written with one digit before the point, which is left out when nothing follows it, and a
signed exponent. -/
def withExponent (s : Scientific) : List Char :=
  let mantissa := match s.digitList with
    | [] => []
    | [d] => [d]
    | d :: ds => d :: '.' :: ds
  mantissa ++ 'e' :: (if 0 ≤ s.leading then '+' else '-') :: Nat.toDigits 10 s.leading.natAbs

end Scientific
end Compliance.Decimal
