import Compliance.Json.Record
import Compliance.Partition
import Compliance.Settings

/-!
Reading settings, links and the counted parts of a report from JSON.
-/
namespace Compliance
open Json (Decoder RecordField RecordShape)

def Outcome.decoder : Decoder Outcome := .variant (Outcome.all.map fun o => (o.name, o))

def Category.decoder : Decoder Category := .variant (Category.all.map fun c => (c.name, c))

def DuplicateNames.decoder : Decoder DuplicateNames := .variant DuplicateNames.known

def PerOutcome.decoder {α : Type} (default : α) (d : Decoder α) : Decoder (PerOutcome α) :=
  fun depth t => (Decoder.vector d 8 depth t).map fun as =>
    (ofList? as).getD (.ofFn fun _ => default)

def Tally.decoder : Decoder Tally := PerOutcome.decoder 0 (.natural "usize")

def CategoryTally.decoder : Decoder CategoryTally := fun depth t =>
  (Decoder.vector (.natural "usize") 4 depth t).map fun as =>
    (PerCategory.ofList? as).getD CategoryTally.empty

def Partition.decoder {α : Type} (d : Decoder α) : Decoder (Partition α) :=
  PerOutcome.decoder [] (.list d)

def ReferenceDisplay.shape : RecordShape ReferenceDisplay where
  name := "ReferenceDisplay"
  fields := [
    .of .mandatory "text" .string fun a d => { d with text := a },
    .of .optionalMember "url" (.optional .string) fun a d => { d with url := a }]
  unknown := .skip
  positional := true
  default := ⟨"", none⟩

def LinkSystem.shape : RecordShape LinkSystem where
  name := "CustomReferenceSystem"
  fields := [
    .of .mandatory "system" .string fun a s => { s with system := a },
    .of .mandatory "url_prefix" .string fun a s => { s with urlPrefix := a },
    .of .optional "url_suffix" .string fun a s => { s with urlSuffix := a }]
  unknown := .refuse
  positional := true
  default := ⟨"", "", ""⟩

def Settings.shape : RecordShape Settings where
  name := "ReportConfig"
  fields := [
    .of .optional "duplicate_target_names" DuplicateNames.decoder fun a s =>
      { s with duplicateNames := a },
    .of .optional "reference_systems" (.list LinkSystem.shape.decoder) fun a s =>
      { s with systems := a }]
  unknown := .refuse
  positional := true
  default := .default

end Compliance
