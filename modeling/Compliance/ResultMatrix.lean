import Compliance.Document.Basic
import Compliance.Traced

/-!
The outcomes of all rules on all targets, one row for each target. A target without results
gets an error for every rule; how that changes the counters of the rules is kept beside the
rows.
-/
namespace Compliance

structure ResultMatrix where
  rows : List (List Outcome)
  /-- For each rule, what the invented errors add to its counters. -/
  deltas : List Tally
  /-- Positions of the targets without results. -/
  unevaluated : List Nat
  deriving DecidableEq

def Json.outcome? : Json → Option Outcome
  | .number (.integer (.ofNat n)) => Outcome.ofOrdinal? n
  | _ => none

namespace ResultMatrix

/-- Reads results rule by rule, from a rule with the given position on. -/
def cells (target : String) : Nat → List RuleRecord → List Json → Except Fault (List Outcome)
  | i, rule :: rules, v :: vs =>
    match v.outcome? with
    | some o => (cells target (i + 1) rules vs).map (o :: ·)
    | none => .error (.malformedResult i rule.id target v)
  | _, _, _ => .ok []

def row (rules : List RuleRecord) (target : String) (results : List Json) :
    Except Fault (List Outcome) :=
  if results.length = rules.length then cells target 0 rules results
  else .error (.wrongLength target rules.length results.length)

/-- The row of a target: its own results, or errors throughout. -/
def completeRow (rules : List RuleRecord) (t : TargetRecord) : Traced (List Outcome) :=
  match t.results with
  | some results => .ofExcept (row rules t.name results)
  | none => do
    .emit (.missingResults t.name rules.length t.statusDetail)
    return List.replicate rules.length .error

def rowsOf (rules : List RuleRecord) : List TargetRecord → Traced (List (List Outcome))
  | [] => .ok []
  | t :: ts => do
    let r ← completeRow rules t
    let rs ← rowsOf rules ts
    return r :: rs

def unevaluatedIn (targets : List TargetRecord) : List Nat :=
  (targets.zipIdx.filter fun t => t.1.results.isNone).map (·.2)

def ofRecords (rules : List RuleRecord) (targets : List TargetRecord) : Traced ResultMatrix := do
  let rows ← rowsOf rules targets
  let unevaluated := unevaluatedIn targets
  return ⟨rows, List.replicate rules.length (.single .error unevaluated.length), unevaluated⟩

def isUnevaluated (m : ResultMatrix) (target : Nat) : Bool := m.unevaluated.contains target

/-- Adds tallies one by one; tallies without a partner stay as they are. -/
def addEach : List Tally → List Tally → List Tally
  | t :: ts, d :: ds => t.add d :: addEach ts ds
  | ts, [] => ts
  | [], _ :: _ => []

def applyDeltas (m : ResultMatrix) (totals : List Tally) : List Tally := addEach totals m.deltas

end ResultMatrix
end Compliance
