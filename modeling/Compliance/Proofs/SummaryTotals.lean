import Compliance.Proofs.ClosedForm
import Compliance.Proofs.FinishedReport
import Compliance.Proofs.TableRows

/-! The totals over several reports. They are added up twice, for the summary file category by category
and for the table on the console row by row, and both count every rule and every target of every report
once. -/
namespace Compliance

namespace Json

/-- The value at the end of a path of keys. -/
def at? : Json → List String → Option Json
  | v, [] => some v
  | .object members, key :: keys => (members.lookup key).bind (·.at? keys)
  | _, _ :: _ => none

/-- The count at the end of a path of keys. -/
def countAt? (v : Json) (keys : List String) : Option Nat :=
  match v.at? keys with
  | some (.number (.integer (.ofNat n))) => some n
  | _ => none

private theorem lookup_cons_eq (k q : String) (v : Json) (ms : List (String × Json)) :
    ((k, v) :: ms).lookup q = if q = k then some v else ms.lookup q := by
  by_cases h : q = k
  · rw [h, List.lookup_cons_self, if_pos rfl]
  · rw [List.lookup_cons, beq_false_of_ne h, if_neg h]

/-- Putting a member in changes what is found under its own key alone. -/
theorem lookup_insertMember (key q : String) (value : Json) (ms : List (String × Json)) :
    (insertMember key value ms).lookup q = if q = key then some value else ms.lookup q := by
  induction ms with
  | nil => exact lookup_cons_eq key q value []
  | cons m ms ih =>
    obtain ⟨k, v⟩ := m
    rw [insertMember]
    split
    · exact lookup_cons_eq ..
    split
    next hk =>
      subst hk
      rw [lookup_cons_eq, lookup_cons_eq]
      split <;> rfl
    next hk =>
      rw [lookup_cons_eq, lookup_cons_eq, ih]
      split
      next hq => rw [if_neg (hq ▸ Ne.symm hk)]
      next => rfl

end Json

/-- The key of a category in a summary file. -/
def Category.key : Category → String
  | .pass => "pass"
  | .fail => "fail"
  | .unknown => "unknown"
  | .notApplicable => "not_applicable"

def Document.unevaluated (d : Document) : Nat :=
  (d.targets.getD []).countP fun t => t.results.isNone

/-- A finished report marks the targets of its document that have no results. -/
private theorem Report.length_unevaluatedTargets {d : Document} {s : Settings} {r : Report}
    (h : (build d s).result = .ok r) : r.unevaluatedTargets.length = d.unevaluated := by
  obtain ⟨b, rules, ts, x, rfl, _, _, rfl⟩ := build_eq_ok_iff.mp h
  rw [unevaluatedTargets, length_positioned, finished, List.countP_map]
  rfl

namespace Results

section
variable (f : Entry → CategoryTally) (es fs : List Entry)

def sumTally : CategoryTally := es.foldl (fun t e => t.add (f e)) .empty

private theorem get_addAll (t : CategoryTally) (c : Category) :
    (es.foldl (fun t e => t.add (f e)) t).get c = t.get c + sumOf (es.map fun e => (f e).get c) := by
  induction es generalizing t with
  | nil => rfl
  | cons e es ih =>
    rw [List.foldl_cons, ih, CategoryTally.get_add, Nat.add_assoc]
    rfl

private theorem get_sumTally (c : Category) :
    (sumTally f es).get c = sumOf (es.map fun e => (f e).get c) := by
  rw [sumTally, get_addAll, CategoryTally.get_empty, Nat.zero_add]

private theorem sumTally_append : sumTally f (es ++ fs) = (sumTally f es).add (sumTally f fs) := by
  apply PerCategory.ext_get
  intro c
  rw [CategoryTally.get_add, get_sumTally, get_sumTally, get_sumTally, List.map_append]
  exact List.sum_append

private theorem sumTally_perm {es fs : List Entry} (h : es.Perm fs) :
    sumTally f es = sumTally f fs := by
  apply PerCategory.ext_get
  intro c
  rw [get_sumTally, get_sumTally]
  exact (h.map _).sum_nat

theorem total_sumTally : (sumTally f es).total = sumOf (es.map fun e => (f e).total) := by
  simp only [CategoryTally.total_eq_sum, get_sumTally, sumOf_map_add]

end

/-- Every list of reports is summed up by the same tallies in both outputs. -/
theorem ruleTotals_eq (es : List Entry) : ruleTotals es = sumTally (·.report.ruleTotals) es := rfl

theorem targetTotals_eq (es : List Entry) : targetTotals es = sumTally (·.report.targetTotals) es :=
  rfl

/-- The counts that a summary file shows under its totals. -/
private theorem countAt_summary (es : List Entry) (c : Category) :
    (summaryJson es).countAt? ["summary", "rules", c.key] = some ((ruleTotals es).get c) ∧
    (summaryJson es).countAt? ["summary", "targets", c.key] = some ((targetTotals es).get c) := by
  cases c <;> simp [summaryJson, sorted, totalsJson, Json.countAt?, Json.at?,
    Json.lookup_insertMember, Category.key, Json.ofNat]

private theorem at_summary (es : List Entry) : (summaryJson es).at? ["summary"]
    = some (sorted [("total_reports", Json.ofNat es.length), ("rules", totalsJson (ruleTotals es)),
        ("targets", totalsJson (targetTotals es))]) := by
  simp [summaryJson, sorted, Json.at?, Json.lookup_insertMember]

private theorem at_reports (es : List Entry) :
    (summaryJson es).at? ["reports"] = some (.array (es.map entrySummary)) := by
  simp [summaryJson, sorted, Json.at?, Json.lookup_insertMember]

/-- The counts that a summary file shows of one report. -/
private theorem countAt_entrySummary (e : Entry) :
    (entrySummary e).countAt? ["rule_count"] = some e.report.rules.length ∧
    (entrySummary e).countAt? ["target_count"] = some e.report.targets.length ∧
    (entrySummary e).countAt? ["evaluation_failures"] = some e.report.unevaluatedTargets.length := by
  simp [entrySummary, sorted, Json.countAt?, Json.at?, Json.lookup_insertMember, Json.ofNat]

private theorem countAt_reports (es : List Entry) :
    (es.map entrySummary).map (·.countAt? ["rule_count"])
      = es.map (fun e => some e.report.rules.length) ∧
    (es.map entrySummary).map (·.countAt? ["target_count"])
      = es.map (fun e => some e.report.targets.length) ∧
    (es.map entrySummary).map (·.countAt? ["evaluation_failures"])
      = es.map (fun e => some e.report.unevaluatedTargets.length) := by
  simp only [List.map_map, Function.comp_def, (countAt_entrySummary _).1,
    (countAt_entrySummary _).2.1, (countAt_entrySummary _).2.2, and_self]

end Results

namespace Console

/-- One report adds to each row what it counts for the category of that row. -/
theorem get_addReport (rows : PerCategory (Nat × Nat)) (r : Report) (c : Category) :
    (addReport rows r).get c
      = ((rows.get c).1 + r.ruleTotals.get c, (rows.get c).2 + r.targetTotals.get c) := by
  cases c <;> simp [addReport, Category.all]

private theorem get_addReports (rows : PerCategory (Nat × Nat)) (es : List Entry) (c : Category) :
    (es.foldl (fun rows e => addReport rows e.report) rows).get c
      = ((rows.get c).1 + sumOf (es.map fun e => e.report.ruleTotals.get c),
        (rows.get c).2 + sumOf (es.map fun e => e.report.targetTotals.get c)) := by
  induction es generalizing rows with
  | nil => rfl
  | cons e es ih =>
    rw [List.foldl_cons, ih, get_addReport, Nat.add_assoc, Nat.add_assoc]
    rfl

/-- The rows of the table come to the tallies of the summary file. -/
theorem get_tableRows (es : List Entry) (c : Category) :
    (tableRows es).get c = ((Results.ruleTotals es).get c, (Results.targetTotals es).get c) := by
  have hstart : (PerCategory.ofFn fun _ => ((0, 0) : Nat × Nat)).get c = (0, 0) :=
    PerCategory.get_ofFn ..
  rw [tableRows, get_addReports, hstart, Nat.zero_add, Nat.zero_add, Results.ruleTotals_eq,
    Results.targetTotals_eq, Results.get_sumTally, Results.get_sumTally]

theorem sumOf_tableRows (es : List Entry) :
    sumOf ((tableRows es).toList.map (·.1)) = (Results.ruleTotals es).total ∧
    sumOf ((tableRows es).toList.map (·.2)) = (Results.targetTotals es).total := by
  simp only [PerCategory.toList, List.map_map, Function.comp_def, get_tableRows,
    CategoryTally.total, and_self]

/-- What is read in the rows of the table that show a category, and all of them together. -/
private theorem readRow_tableLines (es : List Entry) (c : Category) :
    (tableLines es)[8 + c.index]?.bind readRow
      = some (c.label, (Results.ruleTotals es).get c, (Results.targetTotals es).get c) ∧
    (tableLines es)[13]?.bind readRow
      = some ("Total", (Results.ruleTotals es).total, (Results.targetTotals es).total) := by
  have hrow : (tableLines es)[8 + c.index]? = some (tableRow c.colour c.label plain
      ((tableRows es).get c).1 ((tableRows es).get c).2) := by
    cases c <;> rfl
  have htotal : (tableLines es)[13]? = some (tableRow "" "Total" ""
      (sumOf ((tableRows es).toList.map (·.1))) (sumOf ((tableRows es).toList.map (·.2)))) := rfl
  rw [hrow, htotal, Option.bind_some, Option.bind_some, readRow_category, readRow_total,
    get_tableRows, (sumOf_tableRows es).1, (sumOf_tableRows es).2]
  exact ⟨rfl, rfl⟩

private theorem tableLines_congr {es fs : List Entry} (hl : es.length = fs.length)
    (hr : Results.ruleTotals es = Results.ruleTotals fs)
    (ht : Results.targetTotals es = Results.targetTotals fs) : tableLines es = tableLines fs := by
  have hrows : tableRows es = tableRows fs := by
    refine PerCategory.ext_get fun c => ?_
    rw [get_tableRows, get_tableRows, hr, ht]
  rw [tableLines, tableLines, hl, hrows]

end Console

/-- Whether the report of an entry is that of a document, under some settings. -/
def Entry.BuiltFrom (d : Document) (e : Entry) : Prop :=
  ∃ s, (Report.build d s).result = .ok e.report

namespace Results

/-- What a reader of the summary file and of the table relies on, if the reports are those of some
documents. Counts are read off the file by their keys and off the rows of the table by their words. -/
structure TotalsAgree (docs : List Document) (entries : List Entry) : Prop where
  file : ∀ c : Category,
    (summaryJson entries).countAt? ["summary", "rules", c.key] = some ((ruleTotals entries).get c) ∧
    (summaryJson entries).countAt? ["summary", "targets", c.key]
      = some ((targetTotals entries).get c)
  table : ∀ c : Category, (Console.tableLines entries)[8 + c.index]?.bind Console.readRow
    = some (c.label, (ruleTotals entries).get c, (targetTotals entries).get c)
  sums : ∀ c, (ruleTotals entries).get c = sumOf (entries.map fun e => e.report.ruleTotals.get c) ∧
    (targetTotals entries).get c = sumOf (entries.map fun e => e.report.targetTotals.get c)
  reports : ∃ reports, (summaryJson entries).at? ["reports"] = some (.array reports) ∧
    reports.map (·.countAt? ["rule_count"]) = entries.map (fun e => some e.report.rules.length) ∧
    reports.map (·.countAt? ["target_count"])
      = entries.map (fun e => some e.report.targets.length) ∧
    reports.map (·.countAt? ["evaluation_failures"]) = docs.map (fun d => some d.unevaluated)
  totals : sumOf (Category.all.map (ruleTotals entries).get)
      = sumOf (entries.map fun e => e.report.rules.length) ∧
    sumOf (Category.all.map (targetTotals entries).get)
      = sumOf (entries.map fun e => e.report.targets.length)
  totalRow : (Console.tableLines entries)[13]?.bind Console.readRow
    = some ("Total", sumOf (entries.map fun e => e.report.rules.length),
      sumOf (entries.map fun e => e.report.targets.length))
  append : ∀ others, ruleTotals (entries ++ others) = (ruleTotals entries).add (ruleTotals others) ∧
    targetTotals (entries ++ others) = (targetTotals entries).add (targetTotals others)
  order : ∀ reordered, reordered.Perm entries →
    (summaryJson reordered).at? ["summary"] = (summaryJson entries).at? ["summary"] ∧
    Console.tableLines reordered = Console.tableLines entries

section
variable {docs : List Document} {entries : List Entry}

/-- Every rule and every target of a built report is counted once. -/
private theorem totals_of_built (built : List.Forall₂ Entry.BuiltFrom docs entries) :
    (ruleTotals entries).total = sumOf (entries.map fun e => e.report.rules.length) ∧
    (targetTotals entries).total = sumOf (entries.map fun e => e.report.targets.length) := by
  rw [ruleTotals_eq, targetTotals_eq, total_sumTally, total_sumTally]
  induction built with
  | nil => exact ⟨rfl, rfl⟩
  | cons h _ ih =>
    obtain ⟨s, hs⟩ := h
    have ha := Report.build_accountsFor hs
    exact ⟨congrArg₂ (· + ·) ha.ruleTotalsSum ih.1, congrArg₂ (· + ·) ha.targetTotalsSum ih.2⟩

private theorem unevaluated_of_built (built : List.Forall₂ Entry.BuiltFrom docs entries) :
    entries.map (fun e => some e.report.unevaluatedTargets.length)
      = docs.map fun d => some d.unevaluated := by
  induction built with
  | nil => rfl
  | cons h _ ih =>
    obtain ⟨s, hs⟩ := h
    rw [List.map_cons, List.map_cons, Report.length_unevaluatedTargets hs, ih]

/-- The file and the table agree on the totals of the reports that they are about. -/
theorem totals_agree (built : List.Forall₂ Entry.BuiltFrom docs entries) :
    TotalsAgree docs entries where
  file := countAt_summary entries
  table c := (Console.readRow_tableLines entries c).1
  sums c := ⟨get_sumTally _ entries c, get_sumTally _ entries c⟩
  reports := ⟨_, at_reports entries, (countAt_reports entries).1, (countAt_reports entries).2.1,
    (countAt_reports entries).2.2.trans (unevaluated_of_built built)⟩
  totals := totals_of_built built
  totalRow := by
    rw [(Console.readRow_tableLines entries .pass).2, (totals_of_built built).1,
      (totals_of_built built).2]
  append others := ⟨sumTally_append _ entries others, sumTally_append _ entries others⟩
  order reordered h := by
    have hr : ruleTotals reordered = ruleTotals entries := sumTally_perm _ h
    have ht : targetTotals reordered = targetTotals entries := sumTally_perm _ h
    refine ⟨?_, Console.tableLines_congr h.length_eq hr ht⟩
    rw [at_summary, at_summary, h.length_eq, hr, ht]

/-- Two reports in which a target was not evaluated, the second one with a repeated name. -/
theorem totals_agree_twoReports :
    ∃ r q, (Report.build (Report.threeTargets "web") .default).result = .ok r ∧
      (Report.build (Report.threeTargets "host") ⟨.lastWins, []⟩).result = .ok q ∧
      TotalsAgree [Report.threeTargets "web", Report.threeTargets "host"]
        [⟨"a.json", r⟩, ⟨"b.json", q⟩] ∧
      (ruleTotals [⟨"a.json", r⟩, ⟨"b.json", q⟩]).toList = [0, 2, 2, 0] ∧
      (Category.all.map fun c =>
        (Console.tableLines [⟨"a.json", r⟩, ⟨"b.json", q⟩])[8 + c.index]?.bind Console.readRow)
        = [some ("Pass", 0, 2), some ("Fail", 2, 2), some ("Unknown", 2, 2),
          some ("Not Applicable", 0, 0)] ∧
      (Console.tableLines [⟨"a.json", r⟩, ⟨"b.json", q⟩])[13]?.bind Console.readRow
        = some ("Total", 4, 6) := by
  have hr : ∃ r, (Report.build (Report.threeTargets "web") .default).result = .ok r := ⟨_, rfl⟩
  have hq : ∃ q, (Report.build (Report.threeTargets "host") ⟨.lastWins, []⟩).result = .ok q :=
    ⟨_, rfl⟩
  obtain ⟨r, hr⟩ := hr
  obtain ⟨q, hq⟩ := hq
  have agree : TotalsAgree _ [⟨"a.json", r⟩, ⟨"b.json", q⟩] :=
    totals_agree (.cons ⟨.default, hr⟩ (.cons ⟨⟨.lastWins, []⟩, hq⟩ .nil))
  refine ⟨r, q, hr, hq, agree, ?_, ?_, ?_⟩
  · cases hr
    cases hq
    rfl
  · rw [List.map_congr_left fun c _ => agree.table c]
    cases hr
    cases hq
    rfl
  · rw [agree.totalRow]
    cases hr
    cases hq
    rfl

end
end Results
end Compliance
