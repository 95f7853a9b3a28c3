import Compliance.Json.Numeral
import Compliance.Json.Quoted

/-!
Syntax trees of JSON text. A tree ends where its text stops being JSON, and the place holds
what is wrong there: a reader of trees meets faults of the text and of the shape in the order
in which they are written.
-/
namespace Compliance.Json

inductive Gap where
  | nothing
  | wordCutOff
  | wordUnknown
  | notValue
  | noColon
  | cutOffBeforeColon
  | numeral (f : NumeralFault)
  deriving DecidableEq

inductive ArrayEnd where
  | closed
  | cutOff
  | trailingComma
  | noComma
  deriving DecidableEq

inductive ObjectEnd where
  | closed
  | cutOff
  | cutOffAfterComma
  | trailingComma
  | noComma
  | noKey
  deriving DecidableEq

inductive Tree where
  | null
  | bool (b : Bool)
  | number (n : Numeral)
  | string (q : Quoted)
  | array (items : List Tree) (ending : ArrayEnd)
  | object (members : List (Quoted × Tree)) (ending : ObjectEnd)
  | gap (g : Gap)

def isSpace (c : Char) : Bool := c == ' ' || c == '\n' || c == '\t' || c == '\r'

def skipSpace (cs : List Char) : List Char := cs.dropWhile isSpace

namespace Tree

def scanWord (value : Tree) : List Char → List Char → Tree × Option (List Char)
  | [], rest => (value, some rest)
  | _ :: _, [] => (.gap .wordCutOff, none)
  | e :: es, c :: rest => if e = c then scanWord value es rest else (.gap .wordUnknown, none)

mutual
/-- The value at the start of a text, and the text after it unless the value is faulty. Each
call reads a character or hands the text on once, so fuel of twice the length is enough. -/
def scanValue : Nat → List Char → Tree × Option (List Char)
  | 0, _ => (.gap .nothing, none)
  | fuel + 1, cs =>
    match skipSpace cs with
    | [] => (.gap .nothing, none)
    | 'n' :: rest => scanWord .null ['u', 'l', 'l'] rest
    | 't' :: rest => scanWord (.bool true) ['r', 'u', 'e'] rest
    | 'f' :: rest => scanWord (.bool false) ['a', 'l', 's', 'e'] rest
    | '"' :: rest =>
      let (q, rest) := Quoted.scan rest
      (.string q, if q.ending = .closed then some rest else none)
    | '[' :: rest =>
      let (items, ending, rest) := scanItems fuel true rest
      (.array items ending, rest)
    | '\x7b' :: rest =>
      let (members, ending, rest) := scanMembers fuel true rest
      (.object members ending, rest)
    | c :: rest =>
      if c = '-' ∨ Numeral.isDigit c then
        match Numeral.scan (c :: rest) with
        | .ok (n, rest) => (.number n, some rest)
        | .error f => (.gap (.numeral f), none)
      else (.gap .notValue, none)
/-- The items of an array from the first or a later one on, up to its end. -/
def scanItems : Nat → Bool → List Char → List Tree × ArrayEnd × Option (List Char)
  | 0, _, _ => ([], .cutOff, none)
  | fuel + 1, first, cs =>
    match skipSpace cs with
    | [] => ([], .cutOff, none)
    | ']' :: rest => ([], .closed, some rest)
    | c :: rest =>
      if first then scanItem fuel (c :: rest)
      else if c = ',' then
        match skipSpace rest with
        | ']' :: _ => ([], .trailingComma, none)
        | rest => scanItem fuel rest
      else ([], .noComma, none)
def scanItem : Nat → List Char → List Tree × ArrayEnd × Option (List Char)
  | 0, _ => ([], .cutOff, none)
  | fuel + 1, cs =>
    match scanValue fuel cs with
    | (item, none) => ([item], .cutOff, none)
    | (item, some rest) =>
      let (items, ending, rest) := scanItems fuel false rest
      (item :: items, ending, rest)
/-- The members of an object from the first or a later one on, up to its end. -/
def scanMembers :
    Nat → Bool → List Char → List (Quoted × Tree) × ObjectEnd × Option (List Char)
  | 0, _, _ => ([], .cutOff, none)
  | fuel + 1, first, cs =>
    match skipSpace cs with
    | [] => ([], .cutOff, none)
    | '\x7d' :: rest => ([], .closed, some rest)
    | c :: rest =>
      if first then
        if c = '"' then scanMember fuel rest else ([], .noKey, none)
      else if c = ',' then
        match skipSpace rest with
        | [] => ([], .cutOffAfterComma, none)
        | '"' :: rest => scanMember fuel rest
        | '\x7d' :: _ => ([], .trailingComma, none)
        | _ => ([], .noKey, none)
      else ([], .noComma, none)
/-- A member whose key's opening quote has been read, and the ones after it. -/
def scanMember : Nat → List Char → List (Quoted × Tree) × ObjectEnd × Option (List Char)
  | 0, _ => ([], .cutOff, none)
  | fuel + 1, cs =>
    let (key, rest) := Quoted.scan cs
    if key.ending ≠ .closed then ([(key, .gap .nothing)], .cutOff, none)
    else match skipSpace rest with
      | [] => ([(key, .gap .cutOffBeforeColon)], .cutOff, none)
      | ':' :: rest =>
        match scanValue fuel rest with
        | (value, none) => ([(key, value)], .cutOff, none)
        | (value, some rest) =>
          let (members, ending, rest) := scanMembers fuel false rest
          ((key, value) :: members, ending, rest)
      | _ => ([(key, .gap .noColon)], .cutOff, none)
end

/-- The tree of a text, and the text after it unless the tree is faulty. -/
def scan (cs : List Char) : Tree × Option (List Char) := scanValue (3 * cs.length + 3) cs

end Tree
end Compliance.Json
