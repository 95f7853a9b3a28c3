import Compliance.Toml.Value
import Compliance.Toml.Scalar
import Compliance.Toml.Text

/-!
Values and statements of TOML text. A text is a list of statements: pairs of a key and a
value, and headers of tables. What the statements together mean is another matter, but the
keys of a table in braces are put together here.
-/
namespace Compliance.Toml

/-- A table in braces that is being put together. Tables that only dotted keys made may be
extended by further ones. -/
inductive Inline where
  | value (v : Value)
  | dotted (members : List (String × Inline))

namespace Inline

/-- Replaces the value of a key, or adds the key at the end. -/
def put (key : String) (x : Inline) : List (String × Inline) → List (String × Inline)
  | [] => [(key, x)]
  | (k, y) :: rest => if k = key then (k, x) :: rest else (k, y) :: put key x rest

def insert (last : String) (v : Value) :
    List String → List (String × Inline) → Except Error (List (String × Inline))
  | [], members =>
    match members.lookup last with
    | some _ => .error (.duplicateKey last none)
    | none => .ok (put last (.value v) members)
  | k :: path, members =>
    match members.lookup k with
    | none => (insert last v path []).map fun sub => put k (.dotted sub) members
    | some (.dotted sub) => (insert last v path sub).map fun sub => put k (.dotted sub) members
    | some (.value (.table _)) => .error (.duplicateKey k none)
    | some (.value _) => .error .malformed

mutual
def toValue : Inline → Value
  | .value v => v
  | .dotted members => .table (toMembers members)
def toMembers : List (String × Inline) → List (String × Value)
  | [] => []
  | (k, x) :: rest => (k, x.toValue) :: toMembers rest
end

def tableOf : List (List String × Value) → List (String × Inline) → Except Error Value
  | [], members => .ok (.table (toMembers members))
  | (path, v) :: rest, members => do
    match path.getLast? with
    | none => .error .malformed
    | some last => do
      let members ← insert last v path.dropLast members
      tableOf rest members

end Inline

/-- Skips blanks, line breaks and comments between the items of an array. -/
def skipBetween : Nat → List Char → List Char
  | 0, cs => cs
  | fuel + 1, cs =>
    match skipLines cs with
    | '#' :: rest =>
      let rest := skipComment ('#' :: rest)
      match lineBreak? rest with
      | some rest => skipBetween fuel rest
      | none => rest
    | rest => rest

/-- The result of a reader that only knows that the text is malformed. -/
def orMalformed {α : Type} : Option (α × List Char) → Except Error (α × List Char)
  | some r => .ok r
  | none => .error .malformed

mutual
def value : Nat → Nat → List Char → Except Error (Value × List Char)
  | 0, _, _ => .error .malformed
  | fuel + 1, depth, cs =>
    match cs with
    | '[' :: rest => do
      if depthLimit ≤ depth then .error .malformed
      let (items, rest) ← items fuel (depth + 1) rest
      return (.array items, rest)
    | '\x7b' :: rest => do
      if depthLimit ≤ depth then .error .malformed
      let (pairs, rest) ← inlinePairs fuel (depth + 1) rest
      let v ← Inline.tableOf pairs []
      match skipBlank rest with
      | '\x7d' :: rest => return (v, rest)
      | _ => .error .malformed
    | c :: rest =>
      if c = '"' ∨ c = '\'' then
        orMalformed ((string? (c :: rest)).map fun r => (.string r.1, r.2))
      else if isDigit c || c == '+' || c == '-' then orMalformed (numeric? (c :: rest))
      else if c = 't' ∨ c = 'f' then orMalformed (boolean? (c :: rest))
      else orMalformed (floatWord? false (c :: rest))
    | [] => .error .malformed
/-- The items of an array up to its end. A comma may follow the last one. -/
def items : Nat → Nat → List Char → Except Error (List Value × List Char)
  | 0, _, _ => .error .malformed
  | fuel + 1, depth, cs =>
    match skipBetween (cs.length + 1) cs with
    | ']' :: rest => .ok ([], rest)
    | rest => do
      let (v, rest) ← value fuel depth rest
      match skipBetween (rest.length + 1) rest with
      | ',' :: rest => do
        let (vs, rest) ← items fuel depth rest
        return (v :: vs, rest)
      | ']' :: rest => return ([v], rest)
      | _ => .error .malformed
/-- The pairs of a table in braces, and the text after the last one. They end where no key starts,
or where a key has too many parts. -/
def inlinePairs :
    Nat → Nat → List Char → Except Error (List (List String × Value) × List Char)
  | 0, _, _ => .error .malformed
  | fuel + 1, depth, cs =>
    if !startsKeyPart cs then .ok ([], cs)
    else match keyParts? (cs.length + 1) cs with
      | none => .error .malformed
      | some (path, rest) =>
        if depthLimit < path.length then .ok ([], cs)
        else match rest with
          | '=' :: rest => do
            let (v, rest) ← value fuel depth (skipBlank rest)
            match skipBlank rest with
            | ',' :: more => do
              let (pairs, rest) ← inlinePairs fuel depth more
              return ((path, v) :: pairs, if pairs.isEmpty then ',' :: more else rest)
            | rest => return ([(path, v)], rest)
          | _ => .error .malformed
end

inductive Statement where
  | pair (path : List String) (v : Value)
  | header (path : List String)
  /-- A header of another table of an array. -/
  | arrayHeader (path : List String)

/-- The text after the rest of a line, where only a comment may stand. -/
def lineEnd? (cs : List Char) : Option (List Char) :=
  match skipComment (skipBlank cs) with
  | [] => some []
  | rest => lineBreak? rest

def header? (cs : List Char) : Option (Statement × List Char) :=
  match cs with
  | '[' :: rest => do
    let (path, rest) ← key? rest
    match rest with
    | ']' :: ']' :: rest => return (.arrayHeader path, rest)
    | _ => none
  | cs => do
    let (path, rest) ← key? cs
    match rest with
    | ']' :: rest => return (.header path, rest)
    | _ => none

def statement (cs : List Char) : Except Error (Statement × List Char) :=
  match cs with
  | '[' :: rest => orMalformed (header? rest)
  | cs => do
    let (path, rest) ← orMalformed (key? cs)
    match rest with
    | '=' :: rest => do
      let (v, rest) ← value (2 * rest.length + 2) 0 (skipBlank rest)
      return (.pair path v, rest)
    | _ => .error .malformed

end Compliance.Toml
