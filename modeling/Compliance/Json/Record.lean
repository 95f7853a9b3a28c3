import Compliance.Json.Decoder

/-!
Records with named fields, read from an object or, in the order of the fields, from an array.
A record is filled in field by field, starting from its default.
-/
namespace Compliance.Json

inductive Presence where
  | optional
  /-- Left out of an object only. -/
  | optionalMember
  | mandatory
  deriving DecidableEq

/-- A field of a record `σ`: its names, whether it may be left out, and how it is stored. -/
structure RecordField (σ : Type) where
  name : String
  aliases : List String
  presence : Presence
  store : Nat → Tree → σ → Except Error σ

inductive Unknown (σ : Type) where
  | skip
  | refuse
  | keep (store : String → Json → σ → σ)

structure RecordShape (σ : Type) where
  name : String
  fields : List (RecordField σ)
  unknown : Unknown σ
  /-- Whether an array of the fields is accepted too. -/
  positional : Bool
  default : σ

namespace RecordField
variable {σ α : Type}

def of (presence : Presence) (name : String) (d : Decoder α) (set : α → σ → σ) : RecordField σ where
  name := name
  aliases := []
  presence := presence
  store depth t s := (d depth t).map fun a => set a s

def orNamed (f : RecordField σ) (other : String) : RecordField σ :=
  { f with aliases := other :: f.aliases }

end RecordField

namespace RecordShape
variable {σ : Type}

def expected (r : RecordShape σ) : String := "struct " ++ r.name

def field? (r : RecordShape σ) (key : String) : Option (RecordField σ) :=
  r.fields.find? fun f => f.name = key ∨ key ∈ f.aliases

/-- Reads members into the record, given the fields that have been read. -/
def members (r : RecordShape σ) (depth : Nat) :
    List (Quoted × Tree) → List String → σ → Except Error (List String × σ)
  | [], seen, s => .ok (seen, s)
  | (key, t) :: rest, seen, s => do
    let name ← key.text
    match r.field? name with
    | some f =>
      if f.name ∈ seen then .error (.shape (.duplicateField f.name))
      let s ← f.store depth t s
      members r depth rest (f.name :: seen) s
    | none =>
      match r.unknown with
      | .skip => do
        t.skip
        members r depth rest seen s
      | .refuse => .error (.shape (.unknownField name (r.fields.map (·.name))))
      | .keep store => do
        let v ← t.value depth
        members r depth rest seen (store name v s)

/-- Reads items into the fields. A field that may be left out may be left out at the end. -/
def items (r : RecordShape σ) (depth : Nat) :
    Nat → List (RecordField σ) → List Tree → ArrayEnd → σ → Except Error σ
  | _, [], ts, ending, s => do
    ending.checkNoMore ts
    return s
  | position, f :: fs, [], ending, s => do
    ending.check
    if f.presence ≠ .optional then
      .error (.shape (.invalidLength position
        (r.expected ++ " with " ++ toString r.fields.length ++ " elements")))
    items r depth (position + 1) fs [] ending s
  | position, f :: fs, t :: ts, ending, s => do
    let s ← f.store depth t s
    items r depth (position + 1) fs ts ending s

/-- The fields that have to be there are looked for in their order of declaration. -/
def checkMissing (r : RecordShape σ) (seen : List String) : Except Error Unit :=
  match r.fields.find? fun f => f.presence = .mandatory ∧ f.name ∉ seen with
  | some f => .error (.shape (.missingField f.name))
  | none => .ok ()

def decoder (r : RecordShape σ) : Decoder σ := fun depth t =>
  match t, depth with
  | .object _ _, 0 => .error .nestedTooDeep
  | .object ms ending, depth + 1 => do
    let (seen, s) ← r.members depth ms [] r.default
    ending.check
    r.checkMissing seen
    return s
  | .array ts ending, depth =>
    if r.positional then
      match depth with
      | 0 => .error .nestedTooDeep
      | depth + 1 => r.items depth 0 r.fields ts ending r.default
    else .error (t.mismatch r.expected)
  | t, _ => .error (t.mismatch r.expected)

end RecordShape
end Compliance.Json
