import Compliance.Link.Resolve
import Compliance.NameIndex
import Compliance.Toml.Document

/-!
What can be configured about building a report, and reading it from TOML. The keys are taken in
the order in which they are written, and no other keys are allowed.
-/
namespace Compliance
open Toml (Value Error)

structure Settings where
  duplicateNames : DuplicateNames
  /-- Reference systems after the built-in ones. -/
  systems : List LinkSystem
  deriving DecidableEq

namespace Settings

def default : Settings := ⟨.reject, []⟩

def withDuplicateNames (s : Settings) (policy : DuplicateNames) : Settings :=
  { s with duplicateNames := policy }

def url (s : Settings) (r : Reference) : Option String := Link.url s.systems r

end Settings

namespace Toml

def floatText : Decimal.Literal → String
  | .notANumber => "NaN"
  | .infinite true => "-inf"
  | .infinite false => "inf"
  | .finite negative significand exponent =>
    let s := Decimal.shortest (Decimal.nearestToDecimal significand exponent)
    String.ofList (if negative then '-' :: s.positional else s.positional)

/-- What stands in place of an expected value. Dates and times count as maps. -/
def Value.found : Value → Found
  | .string s => .text s
  | .integer n => .integer n
  | .floating x => .floating (floatText x)
  | .boolean b => .boolean b
  | .datetime => .map
  | .array _ => .sequence
  | .table _ => .map

def Value.mismatch (v : Value) (expected : String) : Error :=
  .shape (.invalidType v.found expected)

def Value.asString : Value → Except Error String
  | .string s => .ok s
  | v => .error (v.mismatch "a string")

end Toml

namespace DuplicateNames

def known : List (String × DuplicateNames) :=
  [("reject", .reject), ("last_write_wins", .lastWins)]

def ofName (name : String) : Except ShapeError DuplicateNames :=
  match known.lookup name with
  | some p => .ok p
  | none => .error (.unknownVariant name (known.map (·.1)))

/-- A name, or a table whose one key is the name and holds nothing. -/
def ofToml : Value → Except Error DuplicateNames
  | .string name => (ofName name).mapError .shape
  | .table [(name, v)] => do
    let p ← (ofName name).mapError Error.shape
    match v with
    | .table [] | .array [] => return p
    | _ => .error .malformed
  | .table _ => .error .malformed
  | _ => .error .notVariant

end DuplicateNames

namespace LinkSystem

def fieldNames : List String := ["system", "url_prefix", "url_suffix"]

def expectedShape : String := "struct CustomReferenceSystem"

/-- Reads the keys of a table; what is not there yet is `none`. -/
def ofMembers : List (String × Value) → Option String → Option String → Option String →
    Except Error LinkSystem
  | [], none, _, _ => .error (.shape (.missingField "system"))
  | [], some _, none, _ => .error (.shape (.missingField "url_prefix"))
  | [], some system, some urlPrefix, urlSuffix => .ok ⟨system, urlPrefix, urlSuffix.getD ""⟩
  | (key, v) :: rest, system, urlPrefix, urlSuffix =>
    if key = "system" then do ofMembers rest (some (← v.asString)) urlPrefix urlSuffix
    else if key = "url_prefix" then do ofMembers rest system (some (← v.asString)) urlSuffix
    else if key = "url_suffix" then do ofMembers rest system urlPrefix (some (← v.asString))
    else .error (.shape (.unknownField key fieldNames))

/-- Reads the items of an array as the fields in their order; what follows them is ignored. -/
def ofItems : List Value → Except Error LinkSystem
  | [] => .error (.shape (.invalidLength 0 (expectedShape ++ " with 3 elements")))
  | [v] => do
    let _ ← v.asString
    .error (.shape (.invalidLength 1 (expectedShape ++ " with 3 elements")))
  | [v, w] => do return ⟨← v.asString, ← w.asString, ""⟩
  | v :: w :: x :: _ => do return ⟨← v.asString, ← w.asString, ← x.asString⟩

def datetimeKey : String := "$__toml_private_datetime"

def ofToml : Value → Except Error LinkSystem
  | .datetime => .error (.shape (.unknownField datetimeKey fieldNames))
  | .table members => ofMembers members none none none
  | .array items => ofItems items
  | v => .error (v.mismatch expectedShape)

def listOfToml : Value → Except Error (List LinkSystem)
  | .array items => items.mapM ofToml
  | v => .error (v.mismatch "a sequence")

end LinkSystem

namespace Settings

def fieldNames : List String := ["duplicate_target_names", "reference_systems"]

def ofMembers : List (String × Value) → Settings → Except Error Settings
  | [], s => .ok s
  | (key, v) :: rest, s =>
    if key = "duplicate_target_names" then do
      let policy ← DuplicateNames.ofToml v
      ofMembers rest { s with duplicateNames := policy }
    else if key = "reference_systems" then do
      let systems ← LinkSystem.listOfToml v
      ofMembers rest { s with systems := systems }
    else .error (.shape (.unknownField key fieldNames))

/-- Reads settings from TOML text. What is not said has its default. -/
def parse (text : String) : Except Error Settings := do
  let members ← Toml.parse text
  ofMembers members .default

def ofFile (path : String) (content : Except FileError String) : Except Fault Settings := do
  let text ← content.mapError (Fault.settingsUnreadable path)
  (parse text).mapError .badSettings

end Settings
end Compliance
