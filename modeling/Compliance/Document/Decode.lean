import Compliance.Document.Basic
import Compliance.Json.Record

/-!
Reading documents from JSON. Fields that are left out have their default, and members that
are no field are skipped, except that a benchmark keeps them.
-/
namespace Compliance
open Json (Decoder RecordField RecordShape)

def Json.Decoder.orDefault {α : Type} (default : α) (d : Decoder α) : Decoder α := fun depth t =>
  (Decoder.optional d depth t).map (·.getD default)

/-- Any value as text: a string stands for itself, `null` for nothing, and all else for its
compact form. -/
def Json.Decoder.asText : Decoder String := fun depth t =>
  (t.value depth).map fun
    | .string s => s
    | .null => ""
    | v => String.ofList v.compact

private def field {σ α : Type} (name : String) (d : Decoder α) (set : α → σ → σ) : RecordField σ :=
  .of .optional name d set

def Benchmark.shape : RecordShape Benchmark where
  name := "Benchmark"
  fields := [
    (field "benchmark_title" .string fun a b => { b with title := a }).orNamed "title",
    (field "xccdf_version" (.optional Json.Tree.value) fun a b =>
      { b with version := a }).orNamed "version",
    (field "xccdf_id" .string fun a b => { b with id := a }).orNamed "id",
    (field "profile_name" .string fun a b => { b with profile := a }).orNamed "profile"]
  unknown := .keep fun key v b => { b with extra := Json.insertMember key v b.extra }
  positional := false
  default := .empty

def Reference.shape : RecordShape Reference where
  name := "Reference"
  fields := [
    field "system" .string fun a r => { r with system := a },
    field "value" .asText fun a r => { r with value := a }]
  unknown := .skip
  positional := true
  default := ⟨"", ""⟩

def RuleRecord.shape : RecordShape RuleRecord where
  name := "RuleRecord"
  fields := [
    field "id" .string fun a r => { r with id := a },
    field "title" .string fun a r => { r with title := a },
    field "description" (.orDefault "" .string) fun a r => { r with description := a },
    field "references" (.orDefault [] (.list Reference.shape.decoder)) fun a r =>
      { r with references := a },
    field "result_totals" (.orDefault [] (.list (.natural "u64"))) fun a r =>
      { r with declared := a }]
  unknown := .skip
  positional := true
  default := ⟨"", "", "", [], []⟩

def TargetRecord.shape : RecordShape TargetRecord where
  name := "TargetRecord"
  fields := [
    field "friendly_name" .string fun a t => { t with name := a },
    field "status_detail" (.optional .string) fun a t => { t with statusDetail := a },
    field "error_trace" (.optional .string) fun a t => { t with errorTrace := a },
    field "rule_results" (.optional (.list Json.Tree.value)) fun a t => { t with results := a }]
  unknown := .skip
  positional := true
  default := ⟨"", none, none, none⟩

def Document.shape : RecordShape Document where
  name := "ReportDocument"
  fields := [
    field "benchmark" (.optional Benchmark.shape.decoder) fun a d => { d with benchmark := a },
    field "rules" (.optional (.list RuleRecord.shape.decoder)) fun a d => { d with rules := a },
    field "targets" (.optional (.list TargetRecord.shape.decoder)) fun a d =>
      { d with targets := a }]
  unknown := .skip
  positional := true
  default := ⟨none, none, none⟩

def Document.parse (text : String) : Except Json.Error Document :=
  Document.shape.decoder.run text

end Compliance
