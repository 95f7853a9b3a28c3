/-!
Finite binary floating-point numbers of double precision, in exact arithmetic. A magnitude
is written as its number of units of `2 ^ -1074`, the smallest positive one, so that equal
numbers have equal representations.
-/
namespace Compliance.Decimal

def unitsPerOne : Nat := Nat.pow 2 1074

def maxUnits : Nat := (Nat.pow 2 53 - 1) * Nat.pow 2 2045

/-- Distance between the representable magnitudes around `units`: the significand has 53 bits. -/
def spacing (units : Nat) : Nat := Nat.pow 2 (units.log2 - 52)

/-- The representable magnitude nearest to `num / den` units; of two, the one with the even
significand. The result may exceed `maxUnits`. -/
def nearest (num den : Nat) : Nat :=
  let step := spacing (num / den)
  let q := num / (den * step)
  let twice := 2 * (num % (den * step))
  if twice < den * step ∨ (twice = den * step ∧ q % 2 = 0) then q * step else (q + 1) * step

structure Double where
  negative : Bool
  units : Nat
  deriving DecidableEq

namespace Double

def zero : Double := ⟨false, 0⟩

def isPositive (d : Double) : Bool := !d.negative && d.units != 0

end Double

def unitsOfNat (n : Nat) : Nat := nearest (n * unitsPerOne) 1

def mulUnits (a b : Nat) : Nat := nearest (a * b) unitsPerOne

def divUnits (a b : Nat) : Nat := nearest (a * unitsPerOne) b

def tenPower (n : Nat) : Nat := unitsOfNat (Nat.pow 10 n)

/-- The whole number nearest to a magnitude; a half goes up. -/
def roundUnits (units : Nat) : Nat := (2 * units + unitsPerOne) / (2 * unitsPerOne)

/-- Grows a magnitude by `10 ^ e` in one rounding step, unless the result is too large. -/
def growByTen (units e : Nat) : Option Nat :=
  if e ≤ 308 then
    let r := mulUnits units (tenPower e)
    if r ≤ maxUnits then some r else none
  else if units = 0 then some 0 else none

/-- Shrinks a magnitude by `10 ^ 308` for each of the steps and then by `10 ^ rest`, rounding
every time. -/
def shrinkByTen : Nat → Nat → Nat → Nat
  | 0, units, rest => divUnits units (tenPower rest)
  | steps + 1, units, rest =>
    if units = 0 then 0 else shrinkByTen steps (divUnits units (tenPower 308)) rest

/-- The double that a significand and a decimal exponent stand for, if it is finite. Both the
significand and every scaling step are rounded, so the result need not be the nearest one. -/
def ofScientific? (negative : Bool) (significand : Nat) (exponent : Int) : Option Double :=
  match exponent with
  | .ofNat e => (growByTen (unitsOfNat significand) e).map (⟨negative, ·⟩)
  | .negSucc e =>
    let steps := e / 308
    some ⟨negative, shrinkByTen steps (unitsOfNat significand) (e + 1 - 308 * steps)⟩

end Compliance.Decimal
