import Compliance.Toml.Syntax

/-!
The table that a whole TOML text stands for. Statements are taken one by one: pairs go into
the current table, and a header puts that table in its place and opens the next one. Nothing
may be said twice.
-/
namespace Compliance.Toml

inductive Origin where
  /-- By a header of its own, or as the table of the whole text. -/
  | header
  /-- By the header of a table inside it. -/
  | implied
  /-- By a dotted key of a pair. -/
  | dotted
  deriving DecidableEq

inductive Item where
  | value (v : Value)
  | table (origin : Origin) (members : List (String × Item))
  | tables (list : List (List (String × Item)))

abbrev Members := List (String × Item)

namespace Item

mutual
def toValue : Item → Value
  | .value v => v
  | .table _ members => .table (toMembers members)
  | .tables list => .array (toArray list)
def toMembers : List (String × Item) → List (String × Value)
  | [] => []
  | (k, x) :: rest => (k, x.toValue) :: toMembers rest
def toArray : List (List (String × Item)) → List Value
  | [] => []
  | t :: rest => .table (toMembers t) :: toArray rest
end

/-- Replaces the entry of a key, or adds the key at the end. -/
def put (key : String) (x : Item) : Members → Members
  | [] => [(key, x)]
  | (k, y) :: rest => if k = key then (k, x) :: rest else (k, y) :: put key x rest

/-- Changes the table that a path leads to. Tables that are missing on the way are made, the
last table of an array stands for the array, and a dotted key may not lead through a table
that has a header. -/
def modifyAt (made : Origin) (change : Origin → Members → Except Error Members) :
    List String → Origin → Members → Except Error Members
  | [], origin, members => change origin members
  | k :: path, _, members =>
    match members.lookup k with
    | none => (modifyAt made change path made []).map fun sub => put k (.table made sub) members
    | some (.table origin sub) =>
      if made = .dotted ∧ origin = .header then .error (.duplicateKey k none)
      else (modifyAt made change path origin sub).map fun sub =>
        put k (.table origin sub) members
    | some (.tables list) =>
      (modifyAt made change path .header (list.getLastD [])).map fun sub =>
        put k (.tables (list.dropLast ++ [sub])) members
    | some (.value _) => .error .malformed

/-- What is in the table that a path leads to, if it is there. -/
def contentsAt : List String → Members → Members
  | [], members => members
  | k :: path, members =>
    match members.lookup k with
    | some (.table _ sub) => contentsAt path sub
    | some (.tables list) => contentsAt path (list.getLastD [])
    | _ => []

end Item

/-- The table of the text so far without the current table, and the current table with the
path to it. -/
structure Builder where
  root : Members
  path : List String
  inArray : Bool
  current : Members

namespace Builder
open Item

def start : Builder := ⟨[], [], false, []⟩

def addPair (b : Builder) (path : List String) (v : Value) : Except Error Builder := do
  match path.getLast? with
  | none => .error .malformed
  | some last =>
    let add (origin : Origin) (members : Members) : Except Error Members :=
      if path.length ≠ 1 ∧ origin ≠ .dotted then .error (.duplicateKey last none)
      else match members.lookup last with
        | some _ => .error (.duplicateKey last (some b.path))
        | none => .ok (put last (.value v) members)
    let members ← modifyAt .dotted add path.dropLast .header b.current
    return { b with current := members }

def close (b : Builder) : Except Error Members :=
  match b.path.getLast? with
  | none => .ok b.current
  | some last =>
    modifyAt .implied (fun _ members =>
      match b.inArray, members.lookup last with
      | true, some (.tables list) => .ok (put last (.tables (list ++ [b.current])) members)
      | true, none => .ok (put last (.tables [b.current]) members)
      | false, none => .ok (put last (.table .header b.current) members)
      | _, some _ => .error .malformed) b.path.dropLast .header b.root

/-- Opens the table of a header. A table that only the headers of tables inside it have made
is opened again; any other may not be there already. -/
def openTable (b : Builder) (path : List String) : Except Error Builder := do
  let root ← b.close
  match path.getLast? with
  | none => .error .malformed
  | some last =>
    let parent ← modifyAt .implied (fun _ members =>
      match members.lookup last with
      | none | some (.table .implied _) => .ok (members.filter (·.1 ≠ last))
      | some _ => .error .malformed) path.dropLast .header root
    return ⟨parent, path, false, contentsAt path root⟩

def openArrayTable (b : Builder) (path : List String) : Except Error Builder := do
  let root ← b.close
  match path.getLast? with
  | none => .error .malformed
  | some last =>
    let parent ← modifyAt .implied (fun _ members =>
      match members.lookup last with
      | none | some (.tables _) => .ok members
      | some _ => .error .malformed) path.dropLast .header root
    return ⟨parent, path, true, []⟩

def add (b : Builder) : Statement → Except Error Builder
  | .pair path v => b.addPair path v
  | .header path => b.openTable path
  | .arrayHeader path => b.openArrayTable path

/-- Takes the statements of a text, one at most on each line. A line is read to its end before
its statement counts. -/
def addLines : Nat → Builder → List Char → Except Error Builder
  | 0, _, _ => .error .malformed
  | fuel + 1, b, cs =>
    match skipLines cs with
    | [] => .ok b
    | '#' :: rest =>
      match lineEnd? ('#' :: rest) with
      | some rest => addLines fuel b rest
      | none => .error .malformed
    | cs => do
      let (s, rest) ← statement cs
      match lineEnd? rest with
      | none => .error .malformed
      | some rest => do
        let b ← b.add s
        addLines fuel b rest

end Builder

/-- Reads a whole text as a table. A byte order mark may stand in front. -/
def parse (text : String) : Except Error (List (String × Value)) := do
  let cs := match text.toList with
    | c :: rest => if c = Char.ofNat 0xFEFF then rest else c :: rest
    | [] => []
  let b ← Builder.addLines (cs.length + 1) .start cs
  let root ← b.close
  return Item.toMembers root

end Compliance.Toml
