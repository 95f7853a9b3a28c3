import Compliance.Console
import Compliance.Proofs.CrossLinks
import Compliance.Proofs.Severity

/-! The worst category of a report. Rules and targets group the cells of one matrix by columns and
by rows, and the heaviest category of all groups is that of all cells, whichever way they are
grouped. -/
namespace Compliance

namespace Console

theorem worstCategory_eq (t : CategoryTally) : worstCategory t =
    if 0 < t.get .fail then .fail
    else if 0 < t.get .unknown then .unknown
    else if 0 < t.get .pass then .pass
    else .notApplicable := by
  simp only [worstCategory, List.find?]
  split_ifs with hf hu hp <;> simp [*]

private theorem worstCategory_le_iff {t : CategoryTally} {c : Category} :
    worstCategory t ≤ c ↔ ∀ d, 0 < t.get d → d ≤ c := by
  rw [worstCategory_eq]
  split_ifs with hf hu hp
  · exact ⟨fun h d _ => d.le_fail.trans h, fun h => h _ hf⟩
  · refine ⟨fun h d hd => le_trans ?_ h, fun h => h _ hu⟩
    cases d with
    | fail => omega
    | _ => decide
  · refine ⟨fun h d hd => le_trans ?_ h, fun h => h _ hp⟩
    cases d with
    | fail | unknown => omega
    | _ => decide
  · refine ⟨fun _ d hd => ?_, fun _ => c.notApplicable_le⟩
    cases d with
    | fail | unknown | pass => omega
    | notApplicable => exact c.notApplicable_le

/-- The worst of some categories is the heaviest among them. -/
theorem worstCategory_ofList_le_iff {cs : List Category} {c : Category} :
    worstCategory (.ofList cs) ≤ c ↔ ∀ d ∈ cs, d ≤ c := by
  rw [worstCategory_le_iff]
  refine forall_congr' fun d => ?_
  rw [CategoryTally.get_ofList, List.count_pos_iff]

end Console

namespace Tally

private theorem sumOf_count (o : Outcome) (rows : List (List Outcome)) :
    sumOf (rows.map (List.count o)) = rows.flatten.count o := by
  induction rows with
  | nil => rfl
  | cons os rows ih =>
    rw [List.flatten_cons, List.count_append, ← ih]
    rfl

theorem sumOf_ofOutcomes (os : List Outcome) : sumOf (ofOutcomes os).toList = os.length := by
  have h := Partition.counts_sort os.zipIdx
  rw [List.zipIdx_map_fst] at h
  rw [← h, Partition.sumOf_counts, Partition.size, (Partition.flatten_sort _).length_eq,
    List.length_map, List.length_zipIdx]

theorem ofCategory_le_sumOf (t : Tally) (c : Category) : t.ofCategory c ≤ sumOf t.toList := by
  cases c <;>
    simp only [ofCategory, Category.members, PerOutcome.toList, Outcome.all, sumOf, List.map_cons,
      List.map_nil, List.foldr_cons, List.foldr_nil] <;>
    omega

/-- Counts that are words together are classified. -/
theorem classify?_eq_some {t : Tally} (h : sumOf t.toList ≤ counterMax) :
    t.classify? = some t.classify :=
  if_pos (.inr ((t.ofCategory_le_sumOf .unknown).trans h))

end Tally

namespace Report

private theorem worst_targetTotals_le_iff (r : Report) {c : Category} :
    Console.worstCategory r.aggregate.targetTotals ≤ c ↔
      ∀ t ∈ r.aggregate.targets, ∀ o ∈ t.results, o.category ≤ c := by
  rw [aggregate_targetTotals, Console.worstCategory_ofList_le_iff, List.forall_mem_filterMap]
  refine forall₂_congr fun t ht => ?_
  rw [aggregate_target_settled ht, aggregate_target_counts ht, ← Tally.classify_ofOutcomes_le_iff]
  simp

private theorem worst_ruleTotals_le_iff {r : Report} (hr : r.aggregate.Rectangular) {c : Category} :
    Console.worstCategory r.aggregate.ruleTotals ≤ c ↔
      ∀ t ∈ r.aggregate.targets, ∀ o ∈ t.results, o.category ≤ c := by
  rw [aggregate_ruleTotals, Console.worstCategory_ofList_le_iff, List.forall_mem_filterMap]
  constructor
  · intro hc t ht o ho
    obtain ⟨i, hi⟩ := List.mem_iff_getElem?.mp ho
    have hlt : i < r.aggregate.rules.length := hr t ht ▸ (List.getElem?_eq_some_iff.mp hi).1
    have hx := List.getElem?_eq_getElem hlt
    have hw := hc _ (List.getElem_mem hlt) _ (aggregate_rule_settled (List.getElem_mem hlt)).2
    rw [aggregate_rule_totals hx, Tally.classify_ofOutcomes_le_iff] at hw
    exact hw o (List.mem_filterMap.mpr ⟨t, ht, hi⟩)
  · intro hc x hx d hd
    obtain ⟨i, hi⟩ := List.mem_iff_getElem?.mp hx
    rw [(aggregate_rule_settled hx).2, aggregate_rule_totals hi] at hd
    obtain rfl := Option.some.inj hd
    rw [Tally.classify_ofOutcomes_le_iff]
    intro o ho
    obtain ⟨t, ht, hto⟩ := List.mem_filterMap.mp ho
    exact hc t ht o (List.mem_of_getElem? hto)

/-- Grouped by rules or by targets, the cells come to the same worst category, which is that of all
cells together. No rules or no targets are no exception. -/
theorem build_worst_agree {d : Document} {s : Settings} {r : Report}
    (h : (build d s).result = .ok r) :
    ∃ rules ts m, d.rules = some rules ∧ d.targets = some ts ∧
      (ResultMatrix.ofRecords rules ts).result = .ok m ∧
      (∀ o, (Tally.ofOutcomes m.rows.flatten).get o = sumOf (r.rules.map fun x => x.totals.get o)) ∧
      Console.worstCategory r.ruleTotals = (Tally.ofOutcomes m.rows.flatten).classify ∧
      Console.worstCategory r.targetTotals = (Tally.ofOutcomes m.rows.flatten).classify ∧
      (m.rows.flatten.length ≤ counterMax → (Tally.ofOutcomes m.rows.flatten).classify?
        = some (Console.worstCategory r.ruleTotals)) := by
  obtain ⟨b, rules, ts, m, x, ho, rfl⟩ := build_opened h
  have hr := ho.finished_rectangular
  have hcells : ∀ c, (Tally.ofOutcomes m.rows.flatten).classify ≤ c ↔
      ∀ t ∈ (opening b rules ts m x).aggregate.targets, ∀ o ∈ t.results, o.category ≤ c := by
    intro c
    rw [Tally.classify_ofOutcomes_le_iff, ← ho.finished_results, List.forall_mem_flatten,
      List.forall_mem_map]
  have hrules := eq_of_forall_ge_iff fun c => (worst_ruleTotals_le_iff hr).trans (hcells c).symm
  have htargets := eq_of_forall_ge_iff fun c =>
    (worst_targetTotals_le_iff (opening b rules ts m x)).trans (hcells c).symm
  refine ⟨rules, ts, m, ?_, ?_, ho.matrix, ?_, hrules, htargets, ?_⟩
  · rw [ho.parts]
  · rw [ho.parts]
  · intro o
    rw [sumOf_outcome_aggregate hr, Tally.get_ofOutcomes, ← Tally.sumOf_count,
      ← ho.finished_results, List.map_map]
    refine congrArg sumOf (List.map_congr_left fun t ht => ?_)
    rw [← Partition.get_counts, aggregate_target_counts ht, Tally.get_ofOutcomes]
    rfl
  · intro hmax
    rw [hrules]
    exact Tally.classify?_eq_some (by rwa [Tally.sumOf_ofOutcomes])

/-- The rules fail and are in doubt, and the targets fail, are in doubt and pass. -/
theorem build_worst_agree_threeTargets :
    ∃ r, ∃ m : ResultMatrix, (build (threeTargets "web") ⟨.reject, []⟩).result = .ok r ∧
      r.ruleTotals = ⟨0, 1, 1, 0⟩ ∧ r.targetTotals = ⟨1, 1, 1, 0⟩ ∧ m.rows.flatten.length = 6 ∧
      Console.worstCategory r.targetTotals = (Tally.ofOutcomes m.rows.flatten).classify ∧
      (Tally.ofOutcomes m.rows.flatten).classify? = some (Console.worstCategory r.ruleTotals) := by
  have hb : ∃ r, (build (threeTargets "web") ⟨.reject, []⟩).result = .ok r ∧
      r.ruleTotals = ⟨0, 1, 1, 0⟩ ∧ r.targetTotals = ⟨1, 1, 1, 0⟩ := ⟨_, rfl, rfl, rfl⟩
  obtain ⟨r, h, hrules, htargets⟩ := hb
  obtain ⟨rules, ts, m, hr, ht, hm, _, _, hworst, hfits⟩ := build_worst_agree h
  obtain rfl := Option.some.inj hr
  obtain rfl := Option.some.inj ht
  have hl : m.rows.flatten.length = 6 := by
    cases hm
    rfl
  exact ⟨r, m, h, hrules, htargets, hl, hworst, hfits (by rw [hl]; decide)⟩

end Report
end Compliance
