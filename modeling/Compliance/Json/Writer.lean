import Compliance.Json.Value

/-!
Written forms of a JSON value: the compact one without any white space, and the pretty one
with a line for every item and an indentation of two blanks. Both write the same tokens.
-/
namespace Compliance

/-- Numbers are written so that they read back to the same number: a double always has a point
or an exponent, and an exponent only below `1e-5` and from `1e16` on. -/
def Number.render : Number → List Char
  | .integer (.ofNat n) => Nat.toDigits 10 n
  | .integer (.negSucc n) => '-' :: Nat.toDigits 10 (n + 1)
  | .double d =>
    let s := Decimal.shortest d.units
    let digits :=
      if d.units = 0 ∨ (-5 ≤ s.leading ∧ s.leading ≤ 15) then s.positional else s.withExponent
    if d.negative then '-' :: digits else digits

namespace Json

/-- Quotes, backslashes and controls are escaped, everything else stands for itself. -/
def escapeChar (c : Char) : List Char :=
  if c = '"' then ['\\', '"']
  else if c = '\\' then ['\\', '\\']
  else if c = '\x08' then ['\\', 'b']
  else if c = '\t' then ['\\', 't']
  else if c = '\n' then ['\\', 'n']
  else if c = '\x0c' then ['\\', 'f']
  else if c = '\r' then ['\\', 'r']
  else if c.toNat < 0x20 then
    ['\\', 'u', '0', '0', Nat.digitChar (c.toNat / 16), Nat.digitChar (c.toNat % 16)]
  else [c]

def renderString (s : String) : List Char := '"' :: s.toList.flatMap escapeChar ++ ['"']

mutual
def compact : Json → List Char
  | .null => "null".toList
  | .bool true => "true".toList
  | .bool false => "false".toList
  | .number n => n.render
  | .string s => renderString s
  | .array [] => ['[', ']']
  | .array (v :: vs) => '[' :: compact v ++ compactItems vs
  | .object [] => ['\x7b', '\x7d']
  | .object ((k, v) :: ms) => '\x7b' :: renderString k ++ ':' :: compact v ++ compactMembers ms
def compactItems : List Json → List Char
  | [] => [']']
  | v :: vs => ',' :: compact v ++ compactItems vs
def compactMembers : List (String × Json) → List Char
  | [] => ['\x7d']
  | (k, v) :: ms => ',' :: renderString k ++ ':' :: compact v ++ compactMembers ms
end

def newline (level : Nat) : List Char := '\n' :: List.replicate (2 * level) ' '

mutual
def prettyAt (level : Nat) : Json → List Char
  | .null => "null".toList
  | .bool true => "true".toList
  | .bool false => "false".toList
  | .number n => n.render
  | .string s => renderString s
  | .array [] => ['[', ']']
  | .array (v :: vs) =>
    '[' :: newline (level + 1) ++ prettyAt (level + 1) v ++ prettyItems level vs
  | .object [] => ['\x7b', '\x7d']
  | .object ((k, v) :: ms) =>
    '\x7b' :: newline (level + 1) ++ renderString k ++ ':' :: ' ' :: prettyAt (level + 1) v
      ++ prettyMembers level ms
def prettyItems (level : Nat) : List Json → List Char
  | [] => newline level ++ [']']
  | v :: vs => ',' :: newline (level + 1) ++ prettyAt (level + 1) v ++ prettyItems level vs
def prettyMembers (level : Nat) : List (String × Json) → List Char
  | [] => newline level ++ ['\x7d']
  | (k, v) :: ms =>
    ',' :: newline (level + 1) ++ renderString k ++ ':' :: ' ' :: prettyAt (level + 1) v
      ++ prettyMembers level ms
end

def pretty (j : Json) : List Char := prettyAt 0 j

end Json
end Compliance
