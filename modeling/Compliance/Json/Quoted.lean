import Compliance.Json.Error

/-!
String tokens. A token is first split into pieces, whatever they stand for; reading the pieces
as text is a second step, because a token that is skipped need not stand for any text.
-/
namespace Compliance.Json

/-- A character that stands for itself, one behind a backslash, or a 16-bit unit in hex. -/
inductive Piece where
  | plain (c : Char)
  | escaped (c : Char)
  | unit (n : Nat)
  deriving DecidableEq

/-- What ended a token: its closing quote, or what is wrong with it. -/
inductive QuotedEnd where
  | closed
  | cutOff
  | control
  | unknownEscape
  | badHex
  deriving DecidableEq

structure Quoted where
  pieces : List Piece
  ending : QuotedEnd
  deriving DecidableEq

def hexValue? (c : Char) : Option Nat :=
  if '0' ≤ c ∧ c ≤ '9' then some (c.toNat - '0'.toNat)
  else if 'a' ≤ c ∧ c ≤ 'f' then some (c.toNat - 'a'.toNat + 10)
  else if 'A' ≤ c ∧ c ≤ 'F' then some (c.toNat - 'A'.toNat + 10)
  else none

def hexUnit? (a b c d : Char) : Option Nat := do
  let a ← hexValue? a
  let b ← hexValue? b
  let c ← hexValue? c
  let d ← hexValue? d
  return ((a * 16 + b) * 16 + c) * 16 + d

/-- The character that a letter stands for behind a backslash. -/
def unescape? (c : Char) : Option Char :=
  if c = '"' ∨ c = '\\' ∨ c = '/' then some c
  else if c = 'b' then some '\x08'
  else if c = 'f' then some '\x0c'
  else if c = 'n' then some '\n'
  else if c = 'r' then some '\r'
  else if c = 't' then some '\t'
  else none

namespace Quoted

def cons (p : Piece) (r : Quoted × List Char) : Quoted × List Char :=
  (⟨p :: r.1.pieces, r.1.ending⟩, r.2)

def stop (e : QuotedEnd) (rest : List Char) : Quoted × List Char := (⟨[], e⟩, rest)

/-- The token after an opening quote, and the text after it. A hex escape that is cut off
within its four bytes counts as cut off, not as wrong. -/
def scan : List Char → Quoted × List Char
  | [] => stop .cutOff []
  | '\\' :: 'u' :: a :: b :: c :: d :: rest =>
    match hexUnit? a b c d with
    | some n => cons (.unit n) (scan rest)
    | none => stop .badHex []
  | '\\' :: 'u' :: short =>
    if 4 ≤ (String.ofList short).utf8ByteSize then stop .badHex [] else stop .cutOff []
  | '\\' :: c :: rest =>
    match unescape? c with
    | some e => cons (.escaped e) (scan rest)
    | none => stop .unknownEscape []
  | ['\\'] => stop .cutOff []
  | c :: rest =>
    if c = '"' then stop .closed rest
    else if c.toNat < 0x20 then stop .control []
    else cons (.plain c) (scan rest)

def isLeading (n : Nat) : Bool := 0xD800 ≤ n && n ≤ 0xDBFF

def isTrailing (n : Nat) : Bool := 0xDC00 ≤ n && n ≤ 0xDFFF

/-- The text that pieces stand for. Surrogates have to come in pairs, and the first fault in
the order of the text counts. -/
def textOf : List Piece → QuotedEnd → Except Error (List Char)
  | [], .closed => .ok []
  | [], .cutOff => .error .endInString
  | [], .control => .error .controlCharacter
  | [], .unknownEscape => .error .invalidEscape
  | [], .badHex => .error .invalidEscape
  | .plain c :: rest, e => (textOf rest e).map (c :: ·)
  | .escaped c :: rest, e => (textOf rest e).map (c :: ·)
  | [.unit n], e =>
    if isTrailing n then .error .loneSurrogate
    else if isLeading n then
      match e with
      | .cutOff => .error .endInString
      | .badHex => .error .invalidEscape
      | _ => .error .endOfHexEscape
    else (textOf [] e).map (Char.ofNat n :: ·)
  | .unit n :: .unit m :: rest, e =>
    if isTrailing n then .error .loneSurrogate
    else if isLeading n then
      if isTrailing m then
        (textOf rest e).map (Char.ofNat ((n - 0xD800) * 0x400 + (m - 0xDC00) + 0x10000) :: ·)
      else .error .loneSurrogate
    else (textOf (.unit m :: rest) e).map (Char.ofNat n :: ·)
  | .unit n :: .plain c :: rest, e =>
    if isTrailing n then .error .loneSurrogate
    else if isLeading n then .error .endOfHexEscape
    else (textOf (.plain c :: rest) e).map (Char.ofNat n :: ·)
  | .unit n :: .escaped c :: rest, e =>
    if isTrailing n then .error .loneSurrogate
    else if isLeading n then .error .endOfHexEscape
    else (textOf (.escaped c :: rest) e).map (Char.ofNat n :: ·)

def text (q : Quoted) : Except Error String := (textOf q.pieces q.ending).map String.ofList

/-- What is wrong with a token that is skipped: its end only. -/
def skip (q : Quoted) : Except Error Unit :=
  match q.ending with
  | .closed => .ok ()
  | .cutOff => .error .endInString
  | .control => .error .controlCharacter
  | .unknownEscape | .badHex => .error .invalidEscape

end Quoted
end Compliance.Json
