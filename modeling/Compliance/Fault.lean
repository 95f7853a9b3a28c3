import Compliance.Json.Error
import Compliance.Json.Writer
import Compliance.Toml.Value

/-!
Why no report can be built. Missing results and missing references are no faults: they are
repaired or left out.
-/
namespace Compliance

inductive FileError where
  | notFound
  | notDirectory
  | isDirectory
  | invalidText
  | nameTooLong
  | nulInName
  deriving DecidableEq

def FileError.message : FileError → String
  | .notFound => "No such file or directory (os error 2)"
  | .notDirectory => "Not a directory (os error 20)"
  | .isDirectory => "Is a directory (os error 21)"
  | .invalidText => "stream did not contain valid UTF-8"
  | .nameTooLong => "File name too long (os error 36)"
  | .nulInName => "file name contained an unexpected NUL byte"

/-- A part of a document that every report needs, in the order in which they are looked for. -/
inductive Part where
  | benchmark
  | rules
  | targets
  deriving DecidableEq

def Part.name : Part → String
  | .benchmark => "benchmark"
  | .rules => "rules"
  | .targets => "targets"

inductive Fault where
  | unreadable (path : String) (e : FileError)
  | notDocument (e : Json.Error)
  | settingsUnreadable (path : String) (e : FileError)
  | badSettings (e : Toml.Error)
  | missingPart (part : Part)
  /-- A result that is no ordinal of an outcome. -/
  | malformedResult (rule : Nat) (ruleId : String) (target : String) (value : Json)
  /-- A target whose results do not cover every rule exactly once. -/
  | wrongLength (target : String) (expected actual : Nat)
  | duplicateName (name : String) (first second : Nat)
  deriving DecidableEq

def Fault.message : Fault → String
  | .unreadable path e => "I/O error reading " ++ path ++ ": " ++ e.message
  | .notDocument e => "JSON parse error: " ++ e.message
  | .settingsUnreadable path e => "Failed to read config " ++ path ++ ": " ++ e.message
  | .badSettings e => "Invalid configuration: " ++ e.message
  | .missingPart part => "Missing required section '" ++ part.name ++ "'"
  | .malformedResult rule ruleId target value =>
    "Malformed result " ++ String.ofList value.compact ++ " for rule #" ++ toString rule
      ++ " ('" ++ ruleId ++ "') on target '" ++ target
      ++ "': expected an outcome between 1 and 8"
  | .wrongLength target expected actual =>
    "Target '" ++ target ++ "' has " ++ toString actual
      ++ " rule results but the benchmark has " ++ toString expected ++ " rules"
  | .duplicateName name first second =>
    "Duplicate target name '" ++ name ++ "' at positions " ++ toString first ++ " and "
      ++ toString second

end Compliance
