import Compliance.Report.Basic

/-!
Changes by hand to the data of a report. They leave derived data and the index of names as
they are.
-/
namespace Compliance

inductive Edit where
  | setResult (target rule : Nat) (o : Outcome)
  | pushResult (target : Nat) (o : Outcome)
  | popResult (target : Nat)
  | renameTarget (target : Nat) (name : String)
  | setTotals (rule : Nat) (totals : Tally)
  | removeRule (rule : Nat)
  | removeTarget (target : Nat)
  deriving DecidableEq

namespace Report

def modifyTarget (r : Report) (i : Nat) (f : Target → Target) : Report :=
  { r with targets := r.targets.modify i f }

def modifyRule (r : Report) (i : Nat) (f : Rule → Rule) : Report :=
  { r with rules := r.rules.modify i f }

def edit (r : Report) : Edit → Report
  | .setResult t i o => r.modifyTarget t fun x => { x with results := x.results.set i o }
  | .pushResult t o => r.modifyTarget t fun x => { x with results := x.results ++ [o] }
  | .popResult t => r.modifyTarget t fun x => { x with results := x.results.dropLast }
  | .renameTarget t name => r.modifyTarget t fun x => { x with name := name }
  | .setTotals i totals => r.modifyRule i fun x => { x with totals := totals }
  | .removeRule i => { r with rules := r.rules.eraseIdx i }
  | .removeTarget i => { r with targets := r.targets.eraseIdx i }

end Report
end Compliance
