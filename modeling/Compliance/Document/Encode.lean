import Compliance.Document.Basic
import Compliance.Json.Writer

/-!
Documents as JSON values. Optional fields of a record that are not there are left out; the
sections of a document are written as `null` instead.
-/
namespace Compliance

def Json.optionalMember {α : Type} (key : String) (encode : α → Json) :
    Option α → List (String × Json)
  | none => []
  | some a => [(key, encode a)]

def Benchmark.toJson (b : Benchmark) : Json :=
  .object (("benchmark_title", .string b.title)
    :: Json.optionalMember "xccdf_version" (fun v => v) b.version
    ++ ("xccdf_id", .string b.id) :: ("profile_name", .string b.profile) :: b.extra)

def Reference.toJson (r : Reference) : Json :=
  .object [("system", .string r.system), ("value", .string r.value)]

def RuleRecord.toJson (r : RuleRecord) : Json :=
  .object [("id", .string r.id), ("title", .string r.title),
    ("description", .string r.description),
    ("references", .array (r.references.map Reference.toJson)),
    ("result_totals", .array (r.declared.map Json.ofNat))]

def TargetRecord.toJson (t : TargetRecord) : Json :=
  .object (("friendly_name", .string t.name)
    :: Json.optionalMember "status_detail" .string t.statusDetail
    ++ Json.optionalMember "error_trace" .string t.errorTrace
    ++ Json.optionalMember "rule_results" .array t.results)

def Document.toJson (d : Document) : Json :=
  .object [("benchmark", (d.benchmark.map Benchmark.toJson).getD .null),
    ("rules", (d.rules.map fun rs => .array (rs.map RuleRecord.toJson)).getD .null),
    ("targets", (d.targets.map fun ts => .array (ts.map TargetRecord.toJson)).getD .null)]

def Document.render (d : Document) : String := String.ofList d.toJson.compact

end Compliance
