import Compliance.Json.Tree
import Compliance.Json.Writer

/-!
Readers of syntax trees as typed values. A reader reports the first fault in the order of the
text. It is given the number of brackets that may still be opened; values that are skipped
have no such limit and no meaning, so less can be wrong with them.
-/
namespace Compliance.Json

/-- Reads a tree inside which the given number of brackets may be opened. -/
abbrev Decoder (α : Type) := Nat → Tree → Except Error α

def depthLimit : Nat := 127

def Gap.error : Gap → Error
  | .nothing => .endInValue
  | .wordCutOff => .endInValue
  | .wordUnknown => .expectedWord
  | .notValue => .expectedValue
  | .noColon => .expectedColon
  | .cutOffBeforeColon => .endInObject
  | .numeral .cutOff => .endInValue
  | .numeral .malformed => .invalidNumber

/-- What is wrong with a place that is skipped: a numeral is malformed wherever it stops. -/
def Gap.skip : Gap → Error
  | .numeral _ => .invalidNumber
  | g => g.error

def ArrayEnd.check : ArrayEnd → Except Error Unit
  | .closed => .ok ()
  | .cutOff => .error .endInArray
  | .trailingComma => .error .trailingComma
  | .noComma => .error .expectedItemEnd

def ArrayEnd.checkNoMore : List Tree → ArrayEnd → Except Error Unit
  | _ :: _, _ => .error .trailingCharacters
  | [], .closed => .ok ()
  | [], .cutOff => .error .endInArray
  | [], .trailingComma => .error .trailingComma
  | [], .noComma => .error .trailingCharacters

def ArrayEnd.skip : ArrayEnd → Except Error Unit
  | .closed => .ok ()
  | .cutOff => .error .endInArray
  | .trailingComma => .error .expectedValue
  | .noComma => .error .expectedItemEnd

def ObjectEnd.check : ObjectEnd → Except Error Unit
  | .closed => .ok ()
  | .cutOff => .error .endInObject
  | .cutOffAfterComma => .error .endInValue
  | .trailingComma => .error .trailingComma
  | .noComma => .error .expectedMemberEnd
  | .noKey => .error .keyNotString

def ObjectEnd.skip : ObjectEnd → Except Error Unit
  | .closed => .ok ()
  | .cutOff => .error .endInObject
  | .cutOffAfterComma => .error .endInObject
  | .trailingComma => .error .keyNotString
  | .noComma => .error .expectedMemberEnd
  | .noKey => .error .keyNotString

namespace Tree

mutual
/-- Skips a value: only its brackets, quotes and words have to be right. -/
def skip : Tree → Except Error Unit
  | .null | .bool _ | .number _ => .ok ()
  | .string q => q.skip
  | .array items ending => do
    skipItems items
    ending.skip
  | .object members ending => do
    skipMembers members
    ending.skip
  | .gap g => .error g.skip
def skipItems : List Tree → Except Error Unit
  | [] => .ok ()
  | t :: ts => do
    t.skip
    skipItems ts
def skipMembers : List (Quoted × Tree) → Except Error Unit
  | [] => .ok ()
  | (key, t) :: ms => do
    key.skip
    t.skip
    skipMembers ms
end

mutual
/-- The value of a tree. The members of an object are sorted by key, and the last value of a
repeated key counts. -/
def value : Nat → Tree → Except Error Json
  | _, .null => .ok .null
  | _, .bool b => .ok (.bool b)
  | _, .number n => n.toNumber.map .number
  | _, .string q => q.text.map .string
  | 0, .array _ _ => .error .nestedTooDeep
  | depth + 1, .array items ending => do
    let vs ← valueItems depth items
    ending.check
    return .array vs
  | 0, .object _ _ => .error .nestedTooDeep
  | depth + 1, .object members ending => do
    let ms ← valueMembers depth members []
    ending.check
    return .object ms
  | _, .gap g => .error g.error
def valueItems : Nat → List Tree → Except Error (List Json)
  | _, [] => .ok []
  | depth, t :: ts => do
    let v ← t.value depth
    let vs ← valueItems depth ts
    return v :: vs
def valueMembers :
    Nat → List (Quoted × Tree) → List (String × Json) → Except Error (List (String × Json))
  | _, [], done => .ok done
  | depth, (key, t) :: ms, done => do
    let k ← key.text
    let v ← t.value depth
    valueMembers depth ms (Json.insertMember k v done)
end

/-- Why a tree is not what was expected. Words, numbers and strings are read before they are
refused, brackets are not. -/
def mismatch (expected : String) (t : Tree) : Error :=
  let wrong (found : Found) : Error := .shape (.invalidType found expected)
  match t with
  | .null => wrong .null
  | .bool b => wrong (.boolean b)
  | .number n =>
    match n.toNumber with
    | .ok (.integer n) => wrong (.integer n)
    | .ok (.double d) => wrong (.floating (String.ofList (Number.double d).render))
    | .error e => e
  | .string q =>
    match q.text with
    | .ok s => wrong (.text s)
    | .error e => e
  | .array _ _ => wrong .sequence
  | .object _ _ => wrong .map
  | .gap g => g.error

end Tree

namespace Decoder
variable {α : Type}

def string : Decoder String := fun _ t =>
  match t with
  | .string q => q.text
  | t => .error (t.mismatch "a string")

def natural (expected : String) : Decoder Nat := fun _ t =>
  match t with
  | .number n => do
    match ← n.toNumber with
    | .integer (.ofNat k) => .ok k
    | .integer k => .error (.shape (.invalidValue (.integer k) expected))
    | .double _ => .error (t.mismatch expected)
  | t => .error (t.mismatch expected)

def optional (d : Decoder α) : Decoder (Option α) := fun depth t =>
  match t with
  | .null => .ok none
  | t => (d depth t).map some

def items (d : Decoder α) (depth : Nat) : List Tree → Except Error (List α)
  | [] => .ok []
  | t :: ts => do
    let a ← d depth t
    let as ← items d depth ts
    return a :: as

def list (d : Decoder α) : Decoder (List α) := fun depth t =>
  match t, depth with
  | .array _ _, 0 => .error .nestedTooDeep
  | .array ts ending, depth + 1 => do
    let as ← items d depth ts
    ending.check
    return as
  | t, _ => .error (t.mismatch "a sequence")

def vector (d : Decoder α) (length : Nat) : Decoder (List α) := fun depth t =>
  let expected := "an array of length " ++ toString length
  match t, depth with
  | .array _ _, 0 => .error .nestedTooDeep
  | .array ts ending, depth + 1 => do
    let as ← items d depth (ts.take length)
    if ts.length < length then
      ending.check
      .error (.shape (.invalidLength ts.length expected))
    ending.checkNoMore (ts.drop length)
    return as
  | t, _ => .error (t.mismatch expected)

/-- One of some names, written as a string or as the key of a `null`. -/
def variant (known : List (String × α)) : Decoder α := fun depth t =>
  let choose (q : Quoted) : Except Error α := do
    let name ← q.text
    match known.lookup name with
    | some a => .ok a
    | none => .error (.shape (.unknownVariant name (known.map (·.1))))
  match t, depth with
  | .string q, _ => choose q
  | .object _ _, 0 => .error .nestedTooDeep
  | .object [] ending, _ => do
    ending.check
    .error .expectedValue
  | .object ((key, value) :: more) ending, _ => do
    let a ← choose key
    match value with
    | .null => .ok ()
    | value => .error (value.mismatch "unit")
    match more, ending with
    | [], .closed => .ok a
    | [], .cutOff => .error .endInObject
    | _, _ => .error .expectedValue
  | .gap .nothing, _ => .error .endInValue
  | .gap .noColon, _ => .error .expectedColon
  | .gap .cutOffBeforeColon, _ => .error .endInObject
  | _, _ => .error .expectedValue

/-- Reads a whole text: nothing but white space may follow the value. -/
def run (d : Decoder α) (text : String) : Except Error α := do
  let (tree, rest) := Tree.scan text.toList
  let a ← d depthLimit tree
  match rest.map skipSpace with
  | some (_ :: _) => .error .trailingCharacters
  | _ => .ok a

end Decoder

def parse (text : String) : Except Error Json := Decoder.run Tree.value text

end Compliance.Json
