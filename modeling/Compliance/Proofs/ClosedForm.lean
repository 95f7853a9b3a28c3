import Compliance.Proofs.Acceptance
import Compliance.Proofs.Completion
import Compliance.Proofs.History

/-! Finished reports in closed form. A target is finished from its own record and a rule from its
record and the finished targets, so a report is known from the records of its document. -/
namespace Compliance

namespace TargetRecord

/-- The outcomes of a target for a number of rules: those that it wrote, or errors throughout. -/
def outcomes (rules : Nat) (t : TargetRecord) : List Outcome :=
  match t.results with
  | some vs => vs.filterMap Json.outcome?
  | none => List.replicate rules .error

theorem Completes.outcomes_eq {rules : List RuleRecord} {t : TargetRecord} {os : List Outcome}
    (h : t.Completes rules os) : t.outcomes rules.length = os := by
  cases h with
  | evaluated given fits =>
    rw [outcomes, given]
    simp only [List.filterMap_map]
    refine (List.filterMap_congr (g := some) fun o _ => ?_).trans List.filterMap_some
    exact Json.outcome?_eq_some.mpr rfl
  | unevaluated missing => rw [outcomes, missing]

private theorem outcomes_of_completes {rules : List RuleRecord} {ts : List TargetRecord}
    {rows : List (List Outcome)} (h : List.Forall₂ (Completes rules) ts rows) :
    ts.map (outcomes rules.length) = rows := by
  induction h with
  | nil => rfl
  | cons ht _ ih => rw [List.map_cons, ht.outcomes_eq, ih]

/-- The target as it is in a finished report with a number of rules. -/
def finished (rules : Nat) (t : TargetRecord) : Target :=
  (Target.ofRecord t (t.outcomes rules) t.results.isNone).settle

@[simp] theorem finished_name (rules : Nat) (t : TargetRecord) : (t.finished rules).name = t.name :=
  rfl

@[simp] theorem finished_results (rules : Nat) (t : TargetRecord) :
    (t.finished rules).results = t.outcomes rules := rfl

end TargetRecord

/-- The rule as it is in a finished report, over targets that are sorted. -/
def RuleRecord.finished (r : RuleRecord) (p : Partition String) : Rule where
  id := r.id
  title := r.title
  description := r.description
  references := r.references
  totals := p.counts
  targets := p
  category := some p.counts.classify

/-- The positions without results are those of the targets without results. -/
private theorem ResultMatrix.contains_unevaluatedIn {ts : List TargetRecord}
    {e : TargetRecord × Nat}
    (he : e ∈ ts.zipIdx) : (unevaluatedIn ts).contains e.2 = e.1.results.isNone := by
  rw [Bool.eq_iff_iff, List.contains_iff_mem, mem_unevaluatedIn, List.mem_zipIdx_iff_getElem?.mp he,
    Option.isNone_iff_eq_none]
  simp

namespace Report

def finishedRules (rules : List RuleRecord) (ts : List Target) : List Rule :=
  rules.mapIdx fun i r => r.finished (.sort (columnOf ts i))

/-- The finished report on the records of a document and an index of the names. -/
def finished (b : Benchmark) (rules : List RuleRecord) (ts : List TargetRecord) (x : NameIndex) :
    Report :=
  let targets := ts.map (TargetRecord.finished rules.length)
  { benchmark := b
    rules := finishedRules rules targets
    targets := targets
    ruleTotals := .ofList ((finishedRules rules targets).filterMap (·.category))
    targetTotals := .ofList (targets.filterMap (·.category))
    names := x }

section
variable {d : Document} {s : Settings} {b : Benchmark} {rules : List RuleRecord}
  {ts : List TargetRecord} {m : ResultMatrix} {x : NameIndex}

/-- Each target is opened on its own record alone. -/
theorem OpenedOn.opening_targets (h : OpenedOn d s b rules ts m x) :
    (opening b rules ts m x).targets
      = ts.map fun t => .ofRecord t (t.outcomes rules.length) t.results.isNone := by
  have hu : m.unevaluated = ResultMatrix.unevaluatedIn ts :=
    (ResultMatrix.ofRecords_eq_ok.mp h.matrix).2.2
  have hrow : ts.zip m.rows = ts.map fun t => (t, t.outcomes rules.length) := by
    rw [← TargetRecord.outcomes_of_completes h.rows, List.map_prod_left_eq_zip]
  calc (opening b rules ts m x).targets
      = ts.zipIdx.map fun e => .ofRecord e.1 (e.1.outcomes rules.length) (m.isUnevaluated e.2) := by
        rw [opening, hrow, List.zipIdx_map, List.map_map]
        rfl
    _ = ts.zipIdx.map fun e =>
          .ofRecord e.1 (e.1.outcomes rules.length) e.1.results.isNone := by
        refine List.map_congr_left fun e he => ?_
        rw [ResultMatrix.isUnevaluated, hu, ResultMatrix.contains_unevaluatedIn he]
    _ = (ts.zipIdx.map Prod.fst).map fun t =>
          .ofRecord t (t.outcomes rules.length) t.results.isNone := by rw [List.map_map]; rfl
    _ = ts.map fun t => .ofRecord t (t.outcomes rules.length) t.results.isNone := by
        rw [List.zipIdx_map_fst]

private theorem OpenedOn.settledTargets (h : OpenedOn d s b rules ts m x) :
    (opening b rules ts m x).settledTargets = ts.map (TargetRecord.finished rules.length) := by
  rw [Report.settledTargets, h.opening_targets, List.map_map]
  rfl

private theorem OpenedOn.settledRules (h : OpenedOn d s b rules ts m x) :
    (opening b rules ts m x).settledRules
      = finishedRules rules (ts.map (TargetRecord.finished rules.length)) := by
  have hc : ∀ i, (opening b rules ts m x).column i
      = columnOf (ts.map (TargetRecord.finished rules.length)) i := by
    intro i
    rw [← h.settledTargets, ← column_settle]
    rfl
  apply List.ext_getElem?
  intro i
  rw [Report.settledRules, finishedRules, h.opening_rules]
  simp only [List.getElem?_mapIdx, List.getElem?_map, Option.map_map, hc]
  rfl

theorem OpenedOn.aggregate_opening (h : OpenedOn d s b rules ts m x) :
    (opening b rules ts m x).aggregate = finished b rules ts x := by
  rw [aggregate_eq, h.settledTargets, h.settledRules]
  rfl

end

/-- A document is built into a report exactly when its targets have no defect and its names have an
index, and then the report is the finished one. -/
theorem build_eq_ok_iff {d : Document} {s : Settings} {r : Report} :
    (build d s).result = .ok r ↔ ∃ b rules ts x, d = ⟨some b, some rules, some ts⟩ ∧
      (∀ t ∈ ts, ¬ t.Defective rules) ∧
      (NameIndex.build s.duplicateNames (ts.map (·.name))).result = .ok x ∧
      r = finished b rules ts x := by
  constructor
  · intro h
    obtain ⟨b, rules, ts, m, x, ho, rfl⟩ := build_opened h
    exact ⟨b, rules, ts, x, ho.parts, ResultMatrix.exists_ofRecords_iff.mp ⟨m, ho.matrix⟩, ho.names,
      ho.aggregate_opening⟩
  · rintro ⟨b, rules, ts, x, hp, hsound, hx, rfl⟩
    obtain ⟨m, hm⟩ := ResultMatrix.exists_ofRecords_iff.mpr hsound
    have ho : OpenedOn d s b rules ts m x := ⟨hp, hm, hx⟩
    rw [← ho.aggregate_opening]
    exact build_eq_ok.mpr ⟨_, ofDocument_eq_ok.mpr ⟨b, rules, ts, m, x, ho, rfl⟩, rfl⟩

end Report
end Compliance
