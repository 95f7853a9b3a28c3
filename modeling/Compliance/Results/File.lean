import Compliance.Results.Full

/-!
Results files of both formats. Values of the types at hand can always be written, so the only
error is that there is nothing to report.
-/
namespace Compliance.Results

inductive Format where
  | full
  | summary
  deriving DecidableEq

namespace Format

def name : Format → String
  | .full => "full"
  | .summary => "summary"

def fileName : Format → String
  | .full => "report.json"
  | .summary => "summary.json"

end Format

inductive Error where
  | noReports
  deriving DecidableEq

def Error.message : Error → String
  | .noReports => "Failed to build output: At least one report is required"

/-- The text of a results file. The full format needs a report at least. -/
def text (format : Format) (stamp : Stamp) (systems : List LinkSystem) (entries : List Entry) :
    Except Error String :=
  match format with
  | .summary => .ok (String.ofList (summaryJson entries).pretty)
  | .full =>
    if entries = [] then .error .noReports
    else .ok (String.ofList (fullJson stamp systems entries).pretty)

end Compliance.Results
