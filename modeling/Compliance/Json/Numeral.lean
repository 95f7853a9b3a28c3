import Compliance.Json.Error
import Compliance.Json.Value

/-!
Number tokens, and the numbers that they stand for. Whole numbers of 64 bits are exact; of
any other numeral as many digits count as fit 64 bits, and the rest only scale it.
-/
namespace Compliance.Json

structure Numeral where
  negative : Bool
  whole : List Nat
  fraction : List Nat
  exponent : Option (Bool × List Nat)
  deriving DecidableEq

inductive NumeralFault where
  | cutOff
  | malformed
  deriving DecidableEq

namespace Numeral

def isDigit (c : Char) : Bool := '0' ≤ c && c ≤ '9'

def digits (cs : List Char) : List Nat × List Char :=
  ((cs.takeWhile isDigit).map fun c => c.toNat - '0'.toNat, cs.dropWhile isDigit)

def someDigits (cs : List Char) : Except NumeralFault (List Nat × List Char) :=
  match cs with
  | [] => .error .cutOff
  | c :: _ => if isDigit c then .ok (digits cs) else .error .malformed

/-- The digits before the point: a zero stands alone. -/
def scanWhole (cs : List Char) : Except NumeralFault (List Nat × List Char) := do
  let (ds, rest) ← someDigits cs
  if ds.head? = some 0 ∧ ds ≠ [0] then .error .malformed else .ok (ds, rest)

def scanFraction : List Char → Except NumeralFault (List Nat × List Char)
  | '.' :: rest => someDigits rest
  | rest => .ok ([], rest)

def scanExponent : List Char → Except NumeralFault (Option (Bool × List Nat) × List Char)
  | [] => .ok (none, [])
  | c :: rest =>
    if c = 'e' ∨ c = 'E' then
      let (negative, rest) := match rest with
        | '+' :: r => (false, r)
        | '-' :: r => (true, r)
        | r => (false, r)
      (someDigits rest).map fun (ds, rest) => (some (negative, ds), rest)
    else .ok (none, c :: rest)

/-- The number token at the start of a text, and the text after it. -/
def scan (cs : List Char) : Except NumeralFault (Numeral × List Char) := do
  let (negative, cs) := match cs with
    | '-' :: rest => (true, rest)
    | rest => (false, rest)
  let (whole, cs) ← scanWhole cs
  let (fraction, cs) ← scanFraction cs
  let (exponent, cs) ← scanExponent cs
  return (⟨negative, whole, fraction, exponent⟩, cs)

/-- Takes digits into a significand as long as it fits 64 bits; the digits from the first
that does not fit are left over. -/
def accumulate : Nat → List Nat → Nat × List Nat
  | s, [] => (s, [])
  | s, d :: ds =>
    if s * 10 + d < 0x10000000000000000 then accumulate (s * 10 + d) ds else (s, d :: ds)

def ofDigits (ds : List Nat) : Nat := ds.foldl (fun n d => n * 10 + d) 0

def toNumber (n : Numeral) : Except Error Number :=
  let (significand, leftOver) := accumulate 0 n.whole
  if n.fraction = [] ∧ n.exponent = none ∧ leftOver = [] then
    if !n.negative then .ok (.integer significand)
    else if significand = 0 ∨ 0x8000000000000000 < significand then
      .ok (.double ⟨true, Decimal.unitsOfNat significand⟩)
    else .ok (.integer (-significand))
  else
    let (significand, rest) := accumulate significand n.fraction
    let shift : Int := (leftOver.length : Int) - (n.fraction.length - rest.length : Nat)
    let exponent : Int := match n.exponent with
      | none => shift
      | some (false, ds) => shift + ofDigits ds
      | some (true, ds) => shift - ofDigits ds
    let beyond := n.exponent.any fun e => 0x80000000 ≤ ofDigits e.2
    if beyond then
      if significand ≠ 0 ∧ 0 < exponent then .error .numberOutOfRange
      else .ok (.double ⟨n.negative, 0⟩)
    else match Decimal.ofScientific? n.negative significand exponent with
      | some d => .ok (.double d)
      | none => .error .numberOutOfRange

end Numeral
end Compliance.Json
