import Compliance.Decimal.Literal
import Compliance.Json.Writer
import Compliance.Text.Basic

/-!
Scan summary documents: the benchmark, one record for each rule and one for each target. The
sections may be absent, and results are kept as they were written. Producers that know no version
write zero or something less, so such versions are not shown.
-/
namespace Compliance

/-- What was scanned for. Members that are no field of their own are kept, sorted by key. -/
structure Benchmark where
  title : String
  version : Option Json
  id : String
  profile : String
  extra : List (String × Json)
  deriving DecidableEq

structure Reference where
  system : String
  value : String
  deriving DecidableEq

/-- A rule, with the result totals that the producer declared for it. -/
structure RuleRecord where
  id : String
  title : String
  description : String
  references : List Reference
  declared : List Nat
  deriving DecidableEq

/-- A target. It has no results when it could not be evaluated. -/
structure TargetRecord where
  name : String
  statusDetail : Option String
  errorTrace : Option String
  results : Option (List Json)
  deriving DecidableEq

structure Document where
  benchmark : Option Benchmark
  rules : Option (List RuleRecord)
  targets : Option (List TargetRecord)
  deriving DecidableEq

namespace Benchmark

def empty : Benchmark := ⟨"", none, "", "", []⟩

end Benchmark

def Number.isPositive : Number → Bool
  | .integer n => 0 < n
  | .double d => d.isPositive

/-- The text of a version: a positive number, or a text that is neither blank nor a numeral
whose value is zero or less. -/
def shownVersion : Json → Option String
  | .number n => if n.isPositive then some (String.ofList n.render) else none
  | .string s =>
    let text := Text.trim s.toList
    if text = [] ∨ (Decimal.Literal.parse? text).any (·.roundsToNoMoreThanZero) then none
    else some (String.ofList text)
  | _ => none

def Benchmark.displayVersion (b : Benchmark) : Option String := b.version.bind shownVersion

end Compliance
