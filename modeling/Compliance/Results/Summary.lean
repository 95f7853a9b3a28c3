import Compliance.Link.Resolve
import Compliance.Report.Encode
import Compliance.Report.Navigate

/-!
Finished reports with the files they came from, and the summary results file: only the totals of
each report, and of all together. The members of every object in it are sorted by key.
-/
namespace Compliance

structure Entry where
  source : String
  report : Report
  deriving DecidableEq

namespace Results

def toolJson : Json := .object [("name", .string "scan-reporter"), ("version", .string "0.1.0")]

def version : String := "0.1.0"

def ruleTotals (entries : List Entry) : CategoryTally :=
  entries.foldl (fun t e => CategoryTally.add t e.report.ruleTotals) .empty

def targetTotals (entries : List Entry) : CategoryTally :=
  entries.foldl (fun t e => CategoryTally.add t e.report.targetTotals) .empty

def sorted (members : List (String × Json)) : Json :=
  .object (members.foldl (fun ms m => Json.insertMember m.1 m.2 ms) [])

def totalsJson (t : CategoryTally) : Json :=
  sorted [("pass", Json.ofNat (t.get .pass)), ("fail", Json.ofNat (t.get .fail)),
    ("unknown", Json.ofNat (t.get .unknown)),
    ("not_applicable", Json.ofNat (t.get .notApplicable))]

def entrySummary (e : Entry) : Json :=
  sorted [("source", .string e.source), ("benchmark", .string e.report.benchmark.title),
    ("benchmark_id", .string e.report.benchmark.id),
    ("profile", .string e.report.benchmark.profile),
    ("rule_count", Json.ofNat e.report.rules.length),
    ("target_count", Json.ofNat e.report.targets.length),
    ("evaluation_failures", Json.ofNat e.report.unevaluatedTargets.length),
    ("rules", totalsJson e.report.ruleTotals), ("targets", totalsJson e.report.targetTotals)]

def summaryJson (entries : List Entry) : Json :=
  sorted [("tool", toolJson),
    ("summary", sorted [("total_reports", Json.ofNat entries.length),
      ("rules", totalsJson (ruleTotals entries)),
      ("targets", totalsJson (targetTotals entries))]),
    ("reports", .array (entries.map entrySummary))]

end Results
end Compliance
