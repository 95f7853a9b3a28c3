import Compliance.Proofs.Excerpts
import Compliance.Report.Build
import Compliance.Results.File

/-! What the hash in a results file is a hash of. It can be checked against the file itself: the text
of the reports, its white space taken out, is the text that was hashed. -/
namespace Compliance.Results
open Json

def reportsText (systems : List LinkSystem) (entries : List Entry) : List Char :=
  Layout.lines.write 1 (reportsJson systems entries)

private theorem withoutBlanks_reportsText (systems : List LinkSystem) (entries : List Entry) :
    withoutBlanks (reportsText systems entries) = (reportsJson systems entries).compact := by
  have h := Layout.lines.withoutBlanks_write 1 [] (reportsJson systems entries)
  rwa [List.append_nil, withoutBlanks_nil, List.append_nil] at h

private theorem itemTexts_reportsText (systems : List LinkSystem) (entries : List Entry) :
    itemTexts? (reportsText systems entries)
      = some (entries.map fun e => Layout.lines.write 2 (entryJson systems e)) := by
  rw [reportsText, reportsJson, Layout.itemTexts_write, List.map_map]
  rfl

private theorem memberTexts_fullJson (stamp : Stamp) (systems : List LinkSystem)
    (entries : List Entry) :
    memberTexts? (fullJson stamp systems entries).pretty
      = some [("envelope", Layout.lines.write 1 (envelopeJson stamp systems entries)),
        ("reports", reportsText systems entries)] := by
  rw [pretty, Layout.prettyAt_eq, fullJson, Layout.memberTexts_write]
  rfl

/-- A results file names its reports by their number and by the SHA-256 of their text, in hexadecimal,
when the white space outside strings has been deleted from it. What stamp the file has is not seen in
that text. -/
theorem text_hashes_reports (systems : List LinkSystem) (first : Entry) (others : List Entry) :
    ∃ reports items, itemTexts? reports = some items ∧ items.length = others.length + 1 ∧
      ∀ stamp, ∃ text envelope fields,
        Results.text .full stamp systems (first :: others) = .ok text ∧
        memberTexts? text.toList = some [("envelope", envelope), ("reports", reports)] ∧
        memberTexts? envelope = some fields ∧
        fields.lookup "report_count" = some (Json.ofNat items.length).compact ∧
        fields.lookup "content_hash" = some (renderString ("sha256:" ++ String.ofList
          (Text.hexDigits (Sha256.digest (String.ofList (withoutBlanks reports)).toUTF8.toList)))) := by
  refine ⟨_, _, itemTexts_reportsText systems (first :: others), List.length_map _, fun stamp => ?_⟩
  have htext : Results.text .full stamp systems (first :: others)
      = .ok (String.ofList (fullJson stamp systems (first :: others)).pretty) := by
    rw [Results.text, if_neg (List.cons_ne_nil first others)]
  have hfields := Layout.lines.memberTexts_write 1 [("report_id", .string stamp.id),
    ("generated_at", .string stamp.time), ("tool", toolJson),
    ("report_count", Json.ofNat (first :: others).length),
    ("content_hash", .string (contentHash (reportsJson systems (first :: others)).compact))]
  refine ⟨_, _, _, htext, ?_, hfields, ?_, ?_⟩
  · rw [String.toList_ofList]
    exact memberTexts_fullJson stamp systems (first :: others)
  · rw [List.length_map]
    rfl
  · rw [withoutBlanks_reportsText]
    rfl

/-- A title with quotation marks and a blank. -/
def quotedTitle : Document where
  benchmark := some ⟨"say \"a b\"", none, "", "", []⟩
  rules := some []
  targets := some []

def quotedTitleReports : String :=
  "[\x7b\"source\":\"host.json\",\"benchmark\":\x7b\"benchmark_title\":\"say \\\"a b\\\"\","
    ++ "\"xccdf_id\":\"\",\"profile_name\":\"\"\x7d,\"rules\":[],\"targets\":[],"
    ++ "\"rule_result_totals\":[0,0,0,0],\"target_result_totals\":[0,0,0,0],"
    ++ "\"reference_links\":[]\x7d]"

theorem text_hashes_reports_quotedTitle :
    ∃ r reports, (Report.build quotedTitle .default).result = .ok r ∧
      String.ofList (withoutBlanks reports) = quotedTitleReports ∧
      ∀ stamp, ∃ text envelope fields,
        Results.text .full stamp [] [⟨"host.json", r⟩] = .ok text ∧
        memberTexts? text.toList = some [("envelope", envelope), ("reports", reports)] ∧
        memberTexts? envelope = some fields ∧ fields.lookup "report_count" = some ['1'] ∧
        fields.lookup "content_hash" = some
          "\"sha256:db15043d2179d168f456aa615f9b45767ef1353cb3bdfe8dd1d1054d6639d83b\"".toList := by
  have hb : ∃ r, (Report.build quotedTitle .default).result = .ok r := ⟨_, rfl⟩
  obtain ⟨r, hr⟩ := hb
  obtain ⟨reports, items, _, hlength, hfile⟩ := text_hashes_reports [] ⟨"host.json", r⟩ []
  have hreports : String.ofList (withoutBlanks reports) = quotedTitleReports := by
    obtain ⟨_, _, _, htext, hmembers, _⟩ := hfile ⟨"", ""⟩
    rw [Results.text, if_neg (List.cons_ne_nil _ _), Except.ok.injEq] at htext
    rw [← htext, String.toList_ofList, memberTexts_fullJson, Option.some_inj] at hmembers
    simp only [List.cons.injEq, Prod.mk.injEq] at hmembers
    rw [← hmembers.2.1.2, withoutBlanks_reportsText]
    cases hr
    decide +kernel
  refine ⟨r, reports, hr, hreports, fun stamp => ?_⟩
  obtain ⟨text, envelope, fields, htext, hmembers, hfields, hcount, hhash⟩ := hfile stamp
  refine ⟨text, envelope, fields, htext, hmembers, hfields, ?_, ?_⟩
  · rw [hcount, hlength]
    rfl
  · rw [hhash, hreports]
    decide +kernel

end Compliance.Results
