import Compliance.Report.Basic
import Compliance.ResultMatrix
import Compliance.Settings

/-!
The report of a document before anything is sorted or counted: the document is checked and
completed, and declared totals are taken over with care.
-/
namespace Compliance

/-- Declared totals, padded to all outcomes and without what is past them. No counter is larger
than the number of targets. -/
def RuleRecord.declaredTally (r : RuleRecord) (targets : Nat) : Tally :=
  .ofFn fun o => min (r.declared[o.index]?.getD 0) targets

def RuleRecord.declaredEvents (r : RuleRecord) (targets : Nat) : List Event :=
  (if 8 < r.declared.length then [Event.extraTotals r.id r.declared.length] else [])
    ++ ((Outcome.all.zip r.declared).filter fun d => targets < d.2).map fun d =>
      Event.clampedTotal r.id d.2 d.1 targets

def Rule.ofRecord (r : RuleRecord) (delta : Tally) (targets : Nat) : Rule where
  id := r.id
  title := r.title
  description := r.description
  references := r.references
  totals := (r.declaredTally targets).add delta
  targets := .empty
  category := none

def Target.ofRecord (t : TargetRecord) (results : List Outcome) (unevaluated : Bool) : Target where
  name := t.name
  statusDetail := t.statusDetail
  errorTrace := t.errorTrace
  results := results
  rules := .empty
  unevaluated := unevaluated
  category := none

/-- The three parts of a document, which all have to be there. -/
def Document.parts (d : Document) :
    Except Fault (Benchmark × List RuleRecord × List TargetRecord) :=
  match d.benchmark, d.rules, d.targets with
  | none, _, _ => .error (.missingPart .benchmark)
  | some _, none, _ => .error (.missingPart .rules)
  | some _, some _, none => .error (.missingPart .targets)
  | some b, some rs, some ts => .ok (b, rs, ts)

/-- The report of a document, without what the passes derive. -/
def Report.ofDocument (d : Document) (s : Settings) : Traced Report := do
  let (benchmark, rules, targets) ← Traced.ofExcept d.parts
  let matrix ← ResultMatrix.ofRecords rules targets
  let names ← NameIndex.build s.duplicateNames (targets.map (·.name))
  .emitAll (rules.flatMap fun r => r.declaredEvents targets.length)
  return {
    benchmark := benchmark
    rules := (rules.zip matrix.deltas).map fun r => .ofRecord r.1 r.2 targets.length
    targets := (targets.zip matrix.rows).zipIdx.map fun t =>
      .ofRecord t.1.1 t.1.2 (matrix.isUnevaluated t.2)
    ruleTotals := .empty
    targetTotals := .empty
    names := names }

end Compliance
