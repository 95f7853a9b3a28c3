import Compliance.Document.Basic
import Compliance.NameIndex
import Compliance.Partition

/-!
Reports: the rules and targets of a document, each with its counterparts sorted by outcome and
with its category, and the totals of the categories.
-/
namespace Compliance

structure Rule where
  id : String
  title : String
  description : String
  references : List Reference
  totals : Tally
  targets : Partition String
  category : Option Category
  deriving DecidableEq

structure Target where
  name : String
  statusDetail : Option String
  errorTrace : Option String
  results : List Outcome
  rules : Partition Nat
  /-- The results were made up because there were none. -/
  unevaluated : Bool
  category : Option Category
  deriving DecidableEq

structure Report where
  benchmark : Benchmark
  rules : List Rule
  targets : List Target
  ruleTotals : CategoryTally
  targetTotals : CategoryTally
  names : NameIndex
  deriving DecidableEq

namespace Rule

def displayCounts (r : Rule) : CategoryTally := r.totals.byCategory

def anchor (position : Nat) : String := "rule-" ++ toString position

end Rule

namespace Target

def displayCounts (t : Target) : CategoryTally := t.rules.counts.byCategory

def hasDiagnostics (t : Target) : Bool := t.statusDetail.isSome || t.errorTrace.isSome

def anchor (position : Nat) : String := "target-" ++ toString position

end Target

def CategoryTally.ofList (cs : List Category) : CategoryTally := cs.foldl .increment .empty

end Compliance
