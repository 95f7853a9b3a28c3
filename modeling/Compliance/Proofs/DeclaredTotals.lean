import Compliance.Proofs.Alike
import Compliance.Proofs.History
import Compliance.Report.Text
import Compliance.Results.File

/-! What a producer declared about the totals of its rules. Reports with and without it are built
alike, and only the records that compare declared totals with observed ones can tell. -/
namespace Compliance

def RuleRecord.undeclared (r : RuleRecord) : RuleRecord := { r with declared := [] }

def Document.undeclared (d : Document) : Document :=
  { d with rules := d.rules.map (·.map RuleRecord.undeclared) }

private theorem Document.parts_undeclared (d : Document) : d.undeclared.parts
    = d.parts.map fun p => (p.1, p.2.1.map RuleRecord.undeclared, p.2.2) := by
  obtain ⟨_ | b, _ | rules, _ | ts⟩ := d <;> rfl

def Event.ignoresDeclared : Event → Bool
  | .extraTotals .. | .clampedTotal .. | .totalsMismatch .. => false
  | _ => true

private theorem RuleRecord.filter_declaredEvents (r : RuleRecord) (targets : Nat) :
    (r.declaredEvents targets).filter Event.ignoresDeclared = [] := by
  rw [List.filter_eq_nil_iff]
  intro e he
  rcases List.mem_append.mp he with he | he
  · split at he
    · rw [List.mem_singleton.mp he]
      exact Bool.false_ne_true
    · cases he
  · obtain ⟨_, _, rfl⟩ := List.mem_map.mp he
    exact Bool.false_ne_true

private theorem RuleRecord.filter_flatMap_declaredEvents (rules : List RuleRecord) (targets : Nat) :
    (rules.flatMap fun r => r.declaredEvents targets).filter Event.ignoresDeclared = [] := by
  rw [List.filter_flatMap, List.flatMap_eq_nil_iff]
  exact fun r _ => r.filter_declaredEvents targets

/-- What is declared for a rule shows in its counters alone, which the passes write anew. -/
private theorem Rule.bare_ofRecord_undeclared (r : RuleRecord) (delta : Tally) (targets : Nat) :
    (Rule.ofRecord r.undeclared delta targets).bare = (Rule.ofRecord r delta targets).bare := rfl

private theorem Rule.map_bare_undeclared (rules : List RuleRecord) (deltas : List Tally)
    (targets : Nat) :
    (((rules.map .undeclared).zip deltas).map fun r => ofRecord r.1 r.2 targets).map bare
      = ((rules.zip deltas).map fun r => ofRecord r.1 r.2 targets).map bare := by
  rw [List.zip_map_left, List.map_map, List.map_map, List.map_map]
  exact List.map_congr_left fun r _ => bare_ofRecord_undeclared r.1 r.2 targets

namespace ResultMatrix

private theorem cells_undeclared (target : String) (i : Nat) (rules : List RuleRecord)
    (vs : List Json) :
    cells target i (rules.map .undeclared) vs = cells target i rules vs := by
  induction rules generalizing i vs with
  | nil => rfl
  | cons rule rules ih =>
    cases vs with
    | nil => rfl
    | cons v vs =>
      rw [List.map_cons, cells, cells, ih]
      rfl

private theorem completeRow_undeclared (rules : List RuleRecord) (t : TargetRecord) :
    completeRow (rules.map .undeclared) t = completeRow rules t := by
  rw [completeRow, completeRow]
  simp only [row, cells_undeclared, List.length_map]

private theorem rowsOf_undeclared (rules : List RuleRecord) (ts : List TargetRecord) :
    rowsOf (rules.map .undeclared) ts = rowsOf rules ts := by
  induction ts with
  | nil => rfl
  | cons t ts ih => rw [rowsOf, rowsOf, completeRow_undeclared, ih]

/-- Declared totals have no part in the matrix. -/
private theorem ofRecords_undeclared (rules : List RuleRecord) (ts : List TargetRecord) :
    ofRecords (rules.map .undeclared) ts = ofRecords rules ts := by
  rw [ofRecords, ofRecords, rowsOf_undeclared, List.length_map]

end ResultMatrix

namespace Report
open Traced (Alike)

/-- Up to what the passes write, the reports are the same. -/
private theorem ofDocument_alike {d d' : Document} (h : d.undeclared = d'.undeclared)
    (s : Settings) :
    Alike Event.ignoresDeclared (fun r q => r.bare = q.bare)
      (ofDocument d s) (ofDocument d' s) := by
  have hparts : SameEnd _ d.parts d'.parts :=
    .of_map (by rw [← d.parts_undeclared, h, d'.parts_undeclared])
  refine Alike.bind ⟨rfl, hparts⟩ ?_
  rintro ⟨b, rules, ts⟩ ⟨b', rules', ts'⟩ hp
  obtain ⟨rfl, hp⟩ := Prod.mk.inj hp
  obtain ⟨hr, rfl⟩ := Prod.mk.inj hp
  dsimp only at hr ⊢
  rw [← ResultMatrix.ofRecords_undeclared rules, hr, ResultMatrix.ofRecords_undeclared]
  refine (Alike.refl _).bind ?_
  rintro m _ rfl
  refine (Alike.refl _).bind ?_
  rintro x _ rfl
  refine (Alike.emitAll ?_).bind fun _ _ _ => Alike.pure ?_
  · rw [RuleRecord.filter_flatMap_declaredEvents, RuleRecord.filter_flatMap_declaredEvents]
  · simp only [bare]
    rw [← Rule.map_bare_undeclared rules, hr, Rule.map_bare_undeclared]

private theorem filter_aggregateEvents (r : Report) :
    r.aggregateEvents.filter Event.ignoresDeclared
      = [.ruleRollup r.aggregate.ruleTotals, .targetRollup r.aggregate.targetTotals] := by
  rw [aggregateEvents, ruleEvents, List.filter_append, List.filter_append]
  have hm : (((r.sortTargets.zipIdx.filter fun e => e.1.targets.counts ≠ e.1.totals).map fun e =>
      Event.totalsMismatch e.2 e.1.id e.1.totals e.1.targets.counts).filter
        Event.ignoresDeclared) = [] :=
    List.filter_eq_nil_iff.mpr (List.forall_mem_map.mpr fun _ _ => Bool.false_ne_true)
  rw [hm]
  rfl

private theorem build_alike {d d' : Document} (h : d.undeclared = d'.undeclared) (s : Settings) :
    Alike Event.ignoresDeclared Eq (build d s) (build d' s) := by
  refine (ofDocument_alike h s).bind fun r q hb => ?_
  refine (Alike.emitAll ?_).bind fun _ _ _ => Alike.pure (aggregate_congr hb)
  rw [filter_aggregateEvents, filter_aggregateEvents, aggregate_congr hb]

/-- Documents that are equal but for declared totals fail for the same reason or give the same
report, with the same texts and files. The logs are the same too, apart from the records that
declared totals are the subject of. -/
theorem build_ignores_declared {d d' : Document} (h : d.undeclared = d'.undeclared) (s : Settings) :
    (build d s).result = (build d' s).result ∧
    (build d s).events.filter Event.ignoresDeclared
      = (build d' s).events.filter Event.ignoresDeclared ∧
    ∀ r q, (build d s).result = .ok r → (build d' s).result = .ok q →
      r = q ∧ r.summaryLine = q.summaryLine ∧ r.reportText = q.reportText ∧
      ∀ format stamp systems source before after,
        Results.text format stamp systems (before ++ ⟨source, r⟩ :: after)
          = Results.text format stamp systems (before ++ ⟨source, q⟩ :: after) := by
  have ha := build_alike h s
  refine ⟨ha.result.eq, ha.events, ?_⟩
  intro r q hr hq
  obtain rfl : r = q := Except.ok.inj (hr.symm.trans (ha.result.eq.trans hq))
  exact ⟨rfl, rfl, rfl, fun _ _ _ _ _ _ => rfl⟩

/-- More totals than there are outcomes, none of which can be right. -/
def overdeclared : Document :=
  { threeTargets "web" with
    rules := some [⟨"a", "A", "", [], List.replicate 9 counterMax⟩,
      ⟨"b", "B", "", [], [0, 0, 0, 3]⟩] }

theorem build_ignores_declared_overdeclared :
    (threeTargets "web").undeclared = overdeclared.undeclared ∧
    (∃ r, (build (threeTargets "web") .default).result = .ok r ∧
      (build overdeclared .default).result = .ok r) ∧
    (build (threeTargets "web") .default).events ≠ (build overdeclared .default).events := by
  have hr : ∃ r, (build (threeTargets "web") .default).result = .ok r := ⟨_, rfl⟩
  obtain ⟨r, hr⟩ := hr
  have h : (threeTargets "web").undeclared = overdeclared.undeclared := rfl
  refine ⟨h, ⟨r, hr, (build_ignores_declared h .default).1 ▸ hr⟩, ?_⟩
  intro he
  have hl := congrArg List.length he
  revert hl
  decide

end Report
end Compliance
