import Compliance.Decimal.Shortest

/-!
Decimal literals as people write them, and the doubles nearest to them.
-/
namespace Compliance.Decimal

/-- A literal: a number with a decimal exponent, or one of the words for the other doubles. -/
inductive Literal where
  | finite (negative : Bool) (significand : Nat) (exponent : Int)
  | infinite (negative : Bool)
  | notANumber
  deriving DecidableEq

/-- Units of the double nearest to a decimal number; the result may exceed `maxUnits`. Exponents
that leave no doubt are not computed with. -/
def nearestToDecimal (significand : Nat) (exponent : Int) : Nat :=
  match exponent with
  | .ofNat e =>
    if significand = 0 then 0
    else if 400 < e then maxUnits + 1
    else unitsOfNat (significand * Nat.pow 10 e)
  | .negSucc e =>
    if digitCount significand + 400 < e then 0
    else nearest (significand * unitsPerOne) (Nat.pow 10 (e + 1))

namespace Literal

def isDigit (c : Char) : Bool := '0' ≤ c && c ≤ '9'

def ofDigits (ds : List Char) : Nat := ds.foldl (fun n d => n * 10 + (d.toNat - '0'.toNat)) 0

def sign : List Char → Bool × List Char
  | '-' :: rest => (true, rest)
  | '+' :: rest => (false, rest)
  | rest => (false, rest)

def exponent? : List Char → Option Int
  | [] => some 0
  | c :: rest =>
    let (negative, ds) := sign rest
    if (c = 'e' ∨ c = 'E') ∧ ds ≠ [] ∧ ds.all isDigit then
      some (if negative then -(ofDigits ds : Int) else ofDigits ds)
    else none

/-- A number without its sign: digits with at most one point among them, one digit at least,
and an optional exponent. -/
def number? (negative : Bool) (cs : List Char) : Option Literal :=
  let whole := cs.takeWhile isDigit
  let rest := cs.dropWhile isDigit
  let (fraction, rest) := match rest with
    | '.' :: r => (r.takeWhile isDigit, r.dropWhile isDigit)
    | r => ([], r)
  if whole = [] ∧ fraction = [] then none
  else (exponent? rest).map fun e =>
    .finite negative (ofDigits (whole ++ fraction)) (e - fraction.length)

/-- The whole text as a literal. The words are read in any letter case. -/
def parse? (cs : List Char) : Option Literal :=
  let (negative, rest) := sign cs
  let word := String.ofList (rest.map Char.toLower)
  if word = "inf" ∨ word = "infinity" then some (.infinite negative)
  else if word = "nan" then some .notANumber
  else number? negative rest

/-- Whether the double nearest to the literal is zero or less. -/
def roundsToNoMoreThanZero : Literal → Bool
  | .finite negative significand exponent =>
    negative || nearestToDecimal significand exponent == 0
  | .infinite negative => negative
  | .notANumber => false

end Literal
end Compliance.Decimal
