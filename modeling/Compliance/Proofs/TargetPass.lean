import Compliance.Proofs.RulePass
import Compliance.Proofs.Severity
import Mathlib.Data.List.Sort

/-! The pass over the targets on a report of any shape, and the way from a target to its rules after
it. A row that is longer than the list of the rules keeps all its positions under the target and in
its counters; the links leave out those past the last rule. -/
namespace Compliance

namespace Outcome

/-- The positions at which an outcome stands in a row. -/
def positionsIn (os : List Outcome) (o : Outcome) : List Nat :=
  (List.range os.length).filter fun i => os[i]? = some o

private theorem mem_positionsIn {os : List Outcome} {o : Outcome} {i : Nat} :
    i ∈ positionsIn os o ↔ os[i]? = some o := by
  rw [positionsIn, List.mem_filter, List.mem_range, decide_eq_true_eq, and_iff_right_iff_imp]
  intro h
  exact (List.getElem?_eq_some_iff.mp h).1

private theorem pairwise_positionsIn (os : List Outcome) (o : Outcome) :
    (positionsIn os o).Pairwise (· < ·) := List.pairwise_lt_range.filter _

/-- A row has only one list of the positions of an outcome in increasing order. -/
theorem eq_positionsIn {os : List Outcome} {o : Outcome} {is : List Nat}
    (hs : is.Pairwise (· < ·)) (hm : ∀ i, i ∈ is ↔ os[i]? = some o) : is = positionsIn os o :=
  hs.eq_of_mem_iff (pairwise_positionsIn os o) fun i => (hm i).trans mem_positionsIn.symm

private theorem length_positionsIn (os : List Outcome) (o : Outcome) :
    (positionsIn os o).length = os.count o := by
  rw [positionsIn, ← Partition.get_sort_zipIdx, ← Partition.get_counts, Partition.counts_sort,
    List.zipIdx_map_fst, Tally.get_ofOutcomes]

/-- The positions before a given one are those in the start of the row. -/
private theorem filter_positionsIn (os : List Outcome) (o : Outcome) (n : Nat) :
    (positionsIn os o).filter (· < n) = positionsIn (os.take n) o := by
  apply eq_positionsIn ((pairwise_positionsIn os o).filter _)
  intro i
  rw [List.mem_filter, mem_positionsIn, decide_eq_true_eq, List.getElem?_take]
  split <;> simp_all

end Outcome

/-- A category is counted once for each outcome that belongs to it. -/
private theorem Tally.ofCategory_ofOutcomes (os : List Outcome) (c : Category) :
    (ofOutcomes os).ofCategory c = os.countP fun o => o.category = c := by
  have hmembers : ∀ o : Outcome,
      c.members.countP (fun p => o == p) = if decide (o.category = c) then 1 else 0 := by
    intro o
    cases c <;> cases o <;> rfl
  have hcounts : (ofOutcomes os).get = fun p => os.countP fun o => o == p :=
    funext fun p => get_ofOutcomes os p
  rw [ofCategory, hcounts, sumOf_countP_comm, ← sumOf_map_if]
  simp only [hmembers]

private theorem Target.get_settle (t : Target) (o : Outcome) :
    t.settle.rules.get o = Outcome.positionsIn t.results o := Partition.get_sort_zipIdx t.results o

namespace Report

/-- A report whose targets are sorted anew. Under each target stand the positions of its row, and
its category follows; all else is as it was. -/
structure TargetsSettled (before after : Report) : Prop where
  frame : after = { before with targets := after.targets, targetTotals := after.targetTotals }
  records : after.targets.map Target.bare = before.targets.map Target.bare
  increasing : ∀ t ∈ after.targets, ∀ o, (t.rules.get o).Pairwise (· < ·)
  classes : ∀ t ∈ after.targets, ∀ o i, i ∈ t.rules.get o ↔ t.results[i]? = some o
  category : ∀ t ∈ after.targets, ∃ c, t.category = some c ∧ t.rules.counts.RollsUpTo c
  totals : ∀ c, after.targetTotals.get c = (after.targetsIn c).length

private theorem aggregateTargets_targetsSettled (r : Report) :
    TargetsSettled r r.aggregateTargets where
  frame := rfl
  records := congrArg Report.targets (aggregateTargets_bare r)
  increasing t ht o := by
    obtain ⟨u, _, rfl⟩ := List.mem_map.mp ht
    rw [u.get_settle]
    exact Outcome.pairwise_positionsIn u.results o
  classes t ht o i := by
    obtain ⟨u, _, rfl⟩ := List.mem_map.mp ht
    rw [u.get_settle]
    exact Outcome.mem_positionsIn
  category t ht := by
    obtain ⟨u, _, rfl⟩ := List.mem_map.mp ht
    exact ⟨_, rfl, Tally.classify_rollsUpTo _⟩
  totals := get_aggregate_targetTotals r

private theorem TargetsSettled.settle_bare {r s : Report} (h : TargetsSettled r s) {t : Target}
    (ht : t ∈ s.targets) : t.bare.settle = t := by
  have hrules : t.sortRules = t.rules := PerOutcome.ext_get fun o => by
    rw [Outcome.eq_positionsIn (h.increasing t ht o) (h.classes t ht o)]
    exact t.get_settle o
  obtain ⟨c, hc, hr⟩ := h.category t ht
  rw [Target.settle_bare, Target.settle, hrules, hr.classify_eq, ← hc]

/-- Nothing is left open: the report with settled targets is the one that the pass makes. -/
private theorem TargetsSettled.eq_aggregateTargets {r s : Report} (h : TargetsSettled r s) :
    s = r.aggregateTargets := by
  have htargets : s.targets = r.aggregateTargets.targets :=
    calc s.targets = s.targets.map id := (List.map_id _).symm
      _ = s.targets.map fun t => t.bare.settle :=
        List.map_congr_left fun t ht => (h.settle_bare ht).symm
      _ = (s.targets.map Target.bare).map Target.settle := by rw [List.map_map]; rfl
      _ = r.aggregateTargets.targets := by rw [h.records, List.map_map]; rfl
  have htotals : s.targetTotals = r.aggregateTargets.targetTotals := PerCategory.ext_get fun c => by
    rw [h.totals, (aggregateTargets_targetsSettled r).totals, targetsIn, targetsIn, htargets]
  rw [h.frame, htargets, htotals]
  rfl

private theorem targetRollup_eq (r : Report) :
    r.targetRollup = r.aggregateTargets.targetTotals := by
  show _ = CategoryTally.ofList ((r.targets.map Target.settle).filterMap (·.category))
  rw [List.filterMap_map]
  exact (CategoryTally.ofList_filterMap r.targets fun _ => rfl).symm

/-- The rules that a target links to are at the positions under it before the end of the list of the
rules, in the same order. -/
theorem rulesFor_eq {r : Report} {j : Nat} {t : Target} (ht : r.targets[j]? = some t) (o : Outcome) :
    (r.rulesFor j o).map (fun l => (l.position, some l.title))
      = ((t.rules.get o).filter (· < r.rules.length)).map fun i =>
        (i, r.rules[i]?.map Rule.title) := by
  rw [rulesFor, ht]
  show List.map _ (List.filterMap _ _) = _
  induction t.rules.get o with
  | nil => rfl
  | cons i is ih =>
    by_cases hi : i < r.rules.length
    · rw [List.filter_cons_of_pos (by simpa using hi), List.map_cons, ← ih,
        List.filterMap_cons_some (by rw [List.getElem?_eq_getElem hi]; rfl), List.map_cons,
        List.getElem?_eq_getElem hi]
      rfl
    · rw [List.filter_cons_of_neg (by simpa using hi), ← ih,
        List.filterMap_cons_none (by rw [List.getElem?_eq_none (Nat.le_of_not_lt hi)]; rfl)]

private theorem length_rulesFor {r : Report} {j : Nat} {t : Target}
    (ht : r.aggregateTargets.targets[j]? = some t) (o : Outcome) :
    (r.aggregateTargets.rulesFor j o).length = (t.results.take r.rules.length).count o := by
  have h := congrArg List.length (rulesFor_eq ht o)
  obtain ⟨u, _, rfl⟩ := List.mem_map.mp (List.mem_of_getElem? ht)
  rw [List.length_map, List.length_map, u.get_settle, Outcome.filter_positionsIn,
    Outcome.length_positionsIn] at h
  exact h

/-- On every report the pass over the targets settles them, in the one way there is, and the tally
that it hands back is kept, counts every target once and is all of the log. A target links to the
rules at its positions in their order, less those past the last rule; the counters that are shown
for it count these too. -/
theorem aggregateTargets_settles (r : Report) :
    TargetsSettled r r.aggregateTargets ∧
    (∀ s, TargetsSettled r s → s = r.aggregateTargets) ∧
    r.targetRollup = r.aggregateTargets.targetTotals ∧ r.targetRollup.total = r.targets.length ∧
    r.targetEvents = [.targetRollup r.targetRollup] ∧
    ∀ (j : Nat) (t : Target), r.aggregateTargets.targets[j]? = some t →
      (∀ o, (r.aggregateTargets.rulesFor j o).map (fun l => (l.position, some l.title))
        = ((t.rules.get o).filter (· < r.rules.length)).map fun i =>
          (i, r.rules[i]?.map Rule.title)) ∧
      ∀ c, t.displayCounts.get c = t.results.countP (fun o => o.category = c) ∧
        t.displayCounts.get c
          = sumOf (c.members.map fun o => (r.aggregateTargets.rulesFor j o).length)
            + (t.results.drop r.rules.length).countP fun o => o.category = c := by
  refine ⟨aggregateTargets_targetsSettled r, fun s hs => hs.eq_aggregateTargets,
    targetRollup_eq r, ?_, by rw [targetRollup_eq]; rfl, ?_⟩
  · rw [targetRollup_eq, ← List.length_map (f := Target.settle)]
    exact total_aggregate_targetTotals r
  · intro j t ht
    refine ⟨fun o => rulesFor_eq ht o, fun c => ?_⟩
    have hshown : t.displayCounts.get c = t.results.countP fun o => o.category = c := by
      obtain ⟨u, _, rfl⟩ := List.mem_map.mp (List.mem_of_getElem? ht)
      rw [Target.displayCounts, u.counts_settle, Tally.byCategory, PerCategory.get_ofFn,
        Tally.ofCategory_ofOutcomes]
      rfl
    refine ⟨hshown, ?_⟩
    have hlinked : sumOf (c.members.map fun o => (r.aggregateTargets.rulesFor j o).length)
        = (t.results.take r.rules.length).countP fun o => o.category = c := by
      rw [← Tally.ofCategory_ofOutcomes, Tally.ofCategory]
      congr 1
      exact List.map_congr_left fun o _ => by rw [length_rulesFor ht, Tally.get_ofOutcomes]
    rw [hlinked, hshown, ← List.countP_append, List.take_append_drop]

theorem aggregateTargets_settles_ragged :
    TargetsSettled raggedReport raggedReport.aggregateTargets ∧
    ∃ t, raggedReport.aggregateTargets.targets[0]? = some t ∧ t.rules.get .fail = [2] ∧
      raggedReport.aggregateTargets.rulesFor 0 .fail = [] ∧
      (raggedReport.aggregateTargets.rulesFor 0 .pass).map (fun l => (l.position, some l.title))
        = [(0, some "A"), (1, some "B")] ∧
      t.displayCounts.get .fail = 1 := by
  obtain ⟨h, _, _, _, _, hlinks⟩ := aggregateTargets_settles raggedReport
  obtain ⟨hrules, hshown⟩ := hlinks 0 _ rfl
  exact ⟨h, _, rfl, rfl, rfl, hrules .pass, (hshown .fail).1⟩

end Report
end Compliance
