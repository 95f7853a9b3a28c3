import Compliance.Proofs.Derivation
import Mathlib.Data.List.Basic
import Mathlib.Order.BoundedOrder.Basic
import Mathlib.Order.MinMax

/-! Categories by weight: a failure weighs most, and what does not apply weighs least. Outcomes
are in the heaviest category of one of them, so a category says the same of a group of outcomes
however the group is cut or ordered. -/
namespace Compliance

namespace Category

def severity : Category → Nat
  | .notApplicable => 0
  | .pass => 1
  | .unknown => 2
  | .fail => 3

private theorem severity_injective : Function.Injective severity := by
  intro c d
  cases c <;> cases d <;> decide

instance : LinearOrder Category := LinearOrder.lift' severity severity_injective

example : Category.notApplicable < .pass ∧ Category.pass < .unknown ∧ Category.unknown < .fail := by
  decide

instance : OrderBot Category where
  bot := .notApplicable
  bot_le c := Nat.zero_le c.severity

theorem notApplicable_le (c : Category) : .notApplicable ≤ c := bot_le

theorem le_fail (c : Category) : c ≤ .fail := by cases c <;> decide

end Category

namespace Tally

/-- How often each outcome is in a list. -/
def ofOutcomes (os : List Outcome) : Tally := .ofFn fun o => os.count o

@[simp] theorem get_ofOutcomes (os : List Outcome) (o : Outcome) :
    (ofOutcomes os).get o = os.count o := PerOutcome.get_ofFn _ _

theorem ofOutcomes_perm {os ps : List Outcome} (h : os.Perm ps) : ofOutcomes os = ofOutcomes ps :=
  PerOutcome.ext_get fun o => by rw [get_ofOutcomes, get_ofOutcomes, h.count_eq]

/-- No outcome that was seen weighs more than the classification. -/
private theorem category_le_classify {t : Tally} {o : Outcome} (h : 0 < t.get o) :
    o.category ≤ t.classify := by
  have hu := t.ofCategory_unknown
  unfold classify
  split_ifs with hf hd hp
  · exact Category.le_fail _
  · cases o with
    | fail => omega
    | _ => decide
  · cases o with
    | fail | error | unknown | notChecked => omega
    | _ => decide
  · cases o with
    | fail | error | unknown | notChecked | pass => omega
    | _ => decide

/-- The classification is the category of some outcome that was seen, unless it is the least. -/
private theorem exists_category_eq_classify {t : Tally} (h : t.classify ≠ .notApplicable) :
    ∃ o, 0 < t.get o ∧ o.category = t.classify := by
  have hr := t.classify_rollsUpTo
  cases hc : t.classify with
  | fail =>
    rw [hc] at hr
    exact ⟨.fail, hr, rfl⟩
  | unknown =>
    rw [hc] at hr
    rcases hr.2 with he | hk | hn
    · exact ⟨.error, he, rfl⟩
    · exact ⟨.unknown, hk, rfl⟩
    · exact ⟨.notChecked, hn, rfl⟩
  | pass =>
    rw [hc] at hr
    exact ⟨.pass, hr.2.2.2.2, rfl⟩
  | notApplicable => exact absurd hc h

/-- The classification is the least category that weighs as much as every outcome that was seen. -/
private theorem classify_le_iff {t : Tally} {c : Category} :
    t.classify ≤ c ↔ ∀ o, 0 < t.get o → o.category ≤ c := by
  constructor
  · intro h o ho
    exact (category_le_classify ho).trans h
  · intro h
    by_cases hn : t.classify = .notApplicable
    · rw [hn]
      exact c.notApplicable_le
    · obtain ⟨o, ho, he⟩ := exists_category_eq_classify hn
      exact he ▸ h o ho

theorem classify_ofOutcomes_le_iff {os : List Outcome} {c : Category} :
    (ofOutcomes os).classify ≤ c ↔ ∀ o ∈ os, o.category ≤ c := by
  rw [classify_le_iff]
  refine forall_congr' fun o => ?_
  rw [get_ofOutcomes, List.count_pos_iff]

/-- Of two groups of outcomes together, the heavier decides. -/
theorem classify_append (os ps : List Outcome) :
    (ofOutcomes (os ++ ps)).classify = max (ofOutcomes os).classify (ofOutcomes ps).classify := by
  refine eq_of_forall_ge_iff fun c => ?_
  rw [max_le_iff, classify_ofOutcomes_le_iff, classify_ofOutcomes_le_iff,
    classify_ofOutcomes_le_iff, List.forall_mem_append]

end Tally

/-- The counters of a sorted list count its outcomes. -/
theorem Partition.counts_sort {α : Type} (xs : List (Outcome × α)) :
    (sort xs).counts = .ofOutcomes (xs.map (·.1)) := by
  refine PerOutcome.ext_get fun o => ?_
  rw [get_counts, get_sort, List.length_map, Tally.get_ofOutcomes, List.count, List.countP_map,
    List.countP_eq_length_filter]
  rfl

theorem Target.counts_settle (t : Target) : t.settle.rules.counts = .ofOutcomes t.results := by
  have h := Partition.counts_sort t.results.zipIdx
  rwa [List.zipIdx_map_fst] at h

namespace Report

/-- The outcomes at a position of a rule, target by target. -/
def outcomesAt (ts : List Target) (i : Nat) : List Outcome := ts.filterMap (·.results[i]?)

theorem columnOf_map_fst (ts : List Target) (i : Nat) :
    (columnOf ts i).map (·.1) = outcomesAt ts i := by
  rw [columnOf_eq, outcomesAt, List.map_filterMap]
  refine List.filterMap_congr fun t _ => ?_
  rw [Option.map_map]
  cases t.results[i]? <;> rfl

/-- The counters of a rule count the outcomes at its position. -/
theorem aggregate_rule_totals {r : Report} {i : Nat} {x : Rule}
    (h : r.aggregate.rules[i]? = some x) :
    x.totals = .ofOutcomes (outcomesAt r.aggregate.targets i) := by
  rw [getElem?_aggregate_rules, ← column_aggregate] at h
  obtain ⟨y, _, rfl⟩ := Option.map_eq_some_iff.mp h
  exact (Partition.counts_sort _).trans (congrArg _ (columnOf_map_fst _ i))

theorem aggregate_target_counts {r : Report} {t : Target} (h : t ∈ r.aggregate.targets) :
    t.rules.counts = .ofOutcomes t.results := by
  rw [aggregate_targets] at h
  obtain ⟨u, _, rfl⟩ := List.mem_map.mp h
  exact u.counts_settle

end Report
end Compliance
