import Compliance.Document.Basic
import Compliance.Report.Navigate

/-!
Reports as plain text: one line that sums a report up, and a listing of all rules and targets
with the results that need attention.
-/
namespace Compliance

/-- Outcomes that need attention, in the order in which they are listed. -/
def Outcome.needsAttention : List Outcome := [.fail, .error, .unknown, .notChecked]

def CategoryTally.distribution (t : CategoryTally) : String :=
  ", ".intercalate (Category.all.map fun c => toString (t.get c) ++ " " ++ c.phrase)

namespace Report

def summaryLine (r : Report) : String :=
  "Rules: " ++ toString r.rules.length ++ " (" ++ r.ruleTotals.distribution ++ ") | Targets: "
    ++ toString r.targets.length ++ " (" ++ r.targetTotals.distribution ++ ")"

/-- The category in brackets. What has none yet does not apply. -/
def categoryMark (c : Option Category) : String := "[" ++ (c.getD .notApplicable).label ++ "]"

/-- A line for each outcome that needs attention and has items. -/
def attentionLines (items : Outcome → List String) : List String :=
  Outcome.needsAttention.filterMap fun o =>
    if items o = [] then none else some ("    " ++ o.label ++ ": " ++ ", ".intercalate (items o))

def ruleLines (r : Report) (position : Nat) (rule : Rule) : List String :=
  (categoryMark rule.category ++ " " ++ rule.id ++ ": " ++ rule.title)
    :: attentionLines fun o => (r.targetsFor position o).map (·.name)

def targetLines (r : Report) (position : Nat) (target : Target) : List String :=
  (categoryMark target.category ++ " " ++ target.name)
    :: (target.statusDetail.toList.map ("    Status: " ++ ·))
    ++ attentionLines fun o => (r.rulesFor position o).map (·.title)

def headLines (r : Report) : List String :=
  ["=== Benchmark ===",
   "Benchmark: " ++ r.benchmark.title ++ (match r.benchmark.displayVersion with
    | some version => " " ++ version
    | none => ""),
   "Profile: " ++ r.benchmark.profile,
   r.summaryLine]

def reportLines (r : Report) : List String :=
  r.headLines
    ++ "" :: "=== Results by Rule ===" :: r.rules.zipIdx.flatMap (fun e => r.ruleLines e.2 e.1)
    ++ "" :: "=== Results by Target ===" ::
      r.targets.zipIdx.flatMap (fun e => r.targetLines e.2 e.1)

/-- The whole listing. Every line ends with a line feed. -/
def reportText (r : Report) : String := String.join (r.reportLines.map (· ++ "\n"))

end Report
end Compliance
