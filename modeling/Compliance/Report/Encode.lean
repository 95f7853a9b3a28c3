import Compliance.Document.Encode
import Compliance.Report.Basic

/-!
Reports as JSON values. The index of names is not written.
-/
namespace Compliance

def Tally.toJson (t : Tally) : Json := .array (t.toList.map Json.ofNat)

def CategoryTally.toJson (t : CategoryTally) : Json := .array (t.toList.map Json.ofNat)

def Partition.toJson {α : Type} (encode : α → Json) (p : Partition α) : Json :=
  .array (p.toList.map fun items => .array (items.map encode))

def categoryMember (c : Option Category) : List (String × Json) :=
  Json.optionalMember "category" (fun c => .string c.name) c

def Rule.toJson (r : Rule) : Json :=
  .object ([("id", .string r.id), ("title", .string r.title),
    ("description", .string r.description),
    ("references", .array (r.references.map Reference.toJson)),
    ("result_totals", Tally.toJson r.totals),
    ("targets_by_result", Partition.toJson .string r.targets)]
    ++ categoryMember r.category)

def Target.toJson (t : Target) : Json :=
  .object (("friendly_name", .string t.name)
    :: Json.optionalMember "status_detail" .string t.statusDetail
    ++ Json.optionalMember "error_trace" .string t.errorTrace
    ++ [("rule_results", .array (t.results.map fun o => .string o.name)),
      ("rules_by_result", Partition.toJson Json.ofNat t.rules),
      ("evaluation_failed", .bool t.unevaluated)]
    ++ categoryMember t.category)

def Report.members (r : Report) : List (String × Json) :=
  [("benchmark", r.benchmark.toJson), ("rules", .array (r.rules.map Rule.toJson)),
   ("targets", .array (r.targets.map Target.toJson)),
   ("rule_result_totals", CategoryTally.toJson r.ruleTotals),
   ("target_result_totals", CategoryTally.toJson r.targetTotals)]

def Report.toJson (r : Report) : Json := .object r.members

end Compliance
