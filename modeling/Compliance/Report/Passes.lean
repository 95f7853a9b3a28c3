import Compliance.Report.Basic

/-!
The two passes over a report. One sorts the targets under each rule, the other the rules under
each target; both classify what they sorted. Each derives all its data anew, so it does not
matter what an earlier pass left.
-/
namespace Compliance

namespace Rule

def clear (r : Rule) : Rule := { r with targets := .empty }

def record (r : Rule) (o : Outcome) (target : String) : Rule :=
  { r with targets := r.targets.push o target }

/-- Takes counters and category from the targets under the rule. -/
def settle (r : Rule) : Rule :=
  { r with totals := r.targets.counts, category := some r.targets.counts.classify }

end Rule

namespace Target

def sortRules (t : Target) : Partition Nat :=
  t.results.zipIdx.foldl (fun p r => p.push r.1 r.2) .empty

def settle (t : Target) : Target :=
  { t with rules := t.sortRules, category := some t.sortRules.counts.classify }

end Target

namespace Report

/-- Records a target under each rule that it has a result for. -/
def recordRow (target : String) : List Rule → List Outcome → List Rule
  | r :: rs, o :: os => r.record o target :: recordRow target rs os
  | rs, [] => rs
  | [], _ :: _ => []

def sortTargets (r : Report) : List Rule :=
  r.targets.foldl (fun rules t => recordRow t.name rules t.results) (r.rules.map .clear)

def aggregateRules (r : Report) : Report :=
  let rules := r.sortTargets.map .settle
  { r with rules := rules, ruleTotals := .ofList (rules.filterMap (·.category)) }

/-- What the pass over the rules hands back: every rule is counted as it is classified. -/
def ruleRollup (r : Report) : CategoryTally :=
  r.sortTargets.foldl (fun totals x => totals.increment x.targets.counts.classify) .empty

def ruleEvents (r : Report) : List Event :=
  ((r.sortTargets.zipIdx.filter fun e => e.1.targets.counts ≠ e.1.totals).map fun e =>
    Event.totalsMismatch e.2 e.1.id e.1.totals e.1.targets.counts)
    ++ [Event.ruleRollup r.aggregateRules.ruleTotals]

def aggregateTargets (r : Report) : Report :=
  let targets := r.targets.map .settle
  { r with targets := targets, targetTotals := .ofList (targets.filterMap (·.category)) }

def targetRollup (r : Report) : CategoryTally :=
  r.targets.foldl (fun totals t => totals.increment t.sortRules.counts.classify) .empty

def targetEvents (r : Report) : List Event :=
  [Event.targetRollup r.aggregateTargets.targetTotals]

def aggregate (r : Report) : Report := r.aggregateRules.aggregateTargets

def aggregateEvents (r : Report) : List Event := r.ruleEvents ++ r.aggregateRules.targetEvents

end Report
end Compliance
