import Compliance.Fault
import Compliance.Tally

/-!
The records of the log. What is worth a record is data; its level and its wording follow.
-/
namespace Compliance

inductive Level where
  | error | warn | info | debug
  deriving DecidableEq

def Level.name : Level → String
  | .error => "ERROR"
  | .warn => "WARN"
  | .info => "INFO"
  | .debug => "DEBUG"

inductive Event where
  /-- A target without results, which counts as an error for every rule. -/
  | missingResults (target : String) (rules : Nat) (detail : Option String)
  | extraTotals (ruleId : String) (length : Nat)
  | clampedTotal (ruleId : String) (declared : Nat) (outcome : Outcome) (targets : Nat)
  | nameTakenOver (name : String) (position previous : Nat)
  /-- A rule whose counters are not what its targets report. -/
  | totalsMismatch (rule : Nat) (ruleId : String) (declared observed : Tally)
  | ruleRollup (totals : CategoryTally)
  | targetRollup (totals : CategoryTally)
  | reading (path : String)
  | readingFailed (fault : Fault)
  | parsingFailed (fault : Fault)
  | normalizing
  | normalizingFailed (fault : Fault)
  | normalized (rules targets unevaluated : Nat)
  | aggregatingByRule
  | aggregatedByRule (totals : CategoryTally)
  | aggregatingByTarget
  | aggregatedByTarget (totals : CategoryTally)
  | runStarted (files : Nat)
  | fileAggregated (path summary : String)
  | fileFailed (path : String) (fault : Fault)
  | runCompleted (total aggregated errors : Nat) (milliseconds : String)
  deriving DecidableEq

def CategoryTally.describe (t : CategoryTally) : String :=
  "pass=" ++ toString (t.get .pass) ++ " fail=" ++ toString (t.get .fail) ++ " unknown="
    ++ toString (t.get .unknown) ++ " not_applicable=" ++ toString (t.get .notApplicable)

def Tally.describe (t : Tally) : String :=
  "[" ++ ", ".intercalate (t.toList.map toString) ++ "]"

namespace Event

def level : Event → Level
  | .missingResults .. | .extraTotals .. | .clampedTotal .. | .nameTakenOver ..
  | .totalsMismatch .. => .warn
  | .ruleRollup _ | .targetRollup _ => .debug
  | .readingFailed _ | .parsingFailed _ | .normalizingFailed _ | .fileFailed .. => .error
  | .reading _ | .normalizing | .normalized .. | .aggregatingByRule | .aggregatedByRule _
  | .aggregatingByTarget | .aggregatedByTarget _ | .runStarted _ | .fileAggregated ..
  | .runCompleted .. => .info

def message : Event → String
  | .missingResults target rules detail =>
    "Target '" ++ target ++ "' has no rule results; recording ERROR for all " ++ toString rules
      ++ " rules" ++ (match detail with
        | some d => " (" ++ d ++ ")"
        | none => "")
  | .extraTotals ruleId length =>
    "Rule '" ++ ruleId ++ "' declares " ++ toString length
      ++ " result totals; ignoring entries past 8"
  | .clampedTotal ruleId declared outcome targets =>
    "Rule '" ++ ruleId ++ "' declares " ++ toString declared ++ " " ++ outcome.label
      ++ " results for " ++ toString targets ++ " targets; clamping"
  | .nameTakenOver name position previous =>
    "Duplicate target name '" ++ name ++ "': position " ++ toString position
      ++ " replaces position " ++ toString previous
  | .totalsMismatch rule ruleId declared observed =>
    "Rule #" ++ toString rule ++ " ('" ++ ruleId ++ "') declares totals " ++ declared.describe
      ++ " but targets report " ++ observed.describe ++ "; using observed counts"
  | .ruleRollup totals => "Rule rollup: " ++ totals.describe
  | .targetRollup totals => "Target rollup: " ++ totals.describe
  | .reading path => "Reading scan summary: path=" ++ path
  | .readingFailed fault => "Failed to read scan summary: error=" ++ fault.message
  | .parsingFailed fault => "Scan summary is not valid JSON: error=" ++ fault.message
  | .normalizing => "Phase 1: Normalizing target results"
  | .normalizingFailed fault => "Normalization failed: error=" ++ fault.message
  | .normalized rules targets unevaluated =>
    "Normalization complete: rules=" ++ toString rules ++ " targets=" ++ toString targets
      ++ " evaluation_failures=" ++ toString unevaluated
  | .aggregatingByRule => "Phase 2: Aggregating by rule"
  | .aggregatedByRule totals => "Rule rollup complete: " ++ totals.describe
  | .aggregatingByTarget => "Phase 3: Aggregating by target"
  | .aggregatedByTarget totals => "Target rollup complete: " ++ totals.describe
  | .runStarted files => "Starting report run: file_count=" ++ toString files
  | .fileAggregated path summary => path ++ ": " ++ summary
  | .fileFailed path fault => "Aggregation failed: file=" ++ path ++ " error=" ++ fault.message
  | .runCompleted total aggregated errors milliseconds =>
    "Report run completed: total=" ++ toString total ++ " aggregated=" ++ toString aggregated
      ++ " errors=" ++ toString errors ++ " duration_ms=" ++ milliseconds

end Event
end Compliance
