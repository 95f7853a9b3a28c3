import Compliance.Proofs.History

/-! The pass over the rules on a report of any shape. Rows may be shorter or longer than the list of
the rules, and what earlier passes or changes by hand left does not matter: the rows and the names
alone fix what the pass derives. -/
namespace Compliance

/-- The tally of categories that are known is counted up as they are found. -/
theorem CategoryTally.ofList_filterMap {α : Type} {category : α → Option Category}
    {f : α → Category} (xs : List α) (h : ∀ x, category x = some (f x)) :
    ofList (xs.filterMap category) = xs.foldl (fun totals x => totals.increment (f x)) .empty := by
  obtain rfl : category = fun x => some (f x) := funext h
  rw [List.filterMap_eq_map', ofList, List.foldl_map]

namespace Report

/-- The rules whose counters are not those that they had, with both. -/
def recounted (before after : List Rule) : List Event :=
  ((before.zip after).zipIdx.filter fun e => e.1.1.totals ≠ e.1.2.totals).map fun e =>
    .totalsMismatch e.2 e.1.1.id e.1.1.totals e.1.2.totals

/-- Each rule is settled on the column of its position. -/
theorem getElem?_aggregateRules (r : Report) (i : Nat) :
    r.aggregateRules.rules[i]? = r.rules[i]?.map fun x => x.settledOn (.sort (r.column i)) :=
  getElem?_aggregate_rules r i

/-- A rule has as many targets under it as there are rows that reach its position. -/
private theorem length_columnOf (ts : List Target) (i : Nat) :
    (columnOf ts i).length = ts.countP fun t => i < t.results.length := by
  rw [columnOf_eq, List.length_filterMap_eq_countP]
  refine List.countP_congr fun t _ => ?_
  simp

/-- The counters of a rule add up to the number of rows that reach its position. -/
theorem sumOf_totals_aggregateRules {r : Report} {i : Nat} {x : Rule}
    (h : r.aggregateRules.rules[i]? = some x) :
    sumOf x.totals.toList = r.targets.countP fun t => i < t.results.length := by
  rw [getElem?_aggregateRules] at h
  obtain ⟨y, _, rfl⟩ := Option.map_eq_some_iff.mp h
  calc sumOf (Partition.sort (r.column i)).counts.toList
      = (Partition.sort (r.column i)).toList.flatten.length := Partition.sumOf_counts _
    _ = ((r.column i).map (·.2)).length := (Partition.flatten_sort _).length_eq
    _ = r.targets.countP fun t => i < t.results.length := by
        rw [List.length_map, column, length_columnOf]

/-- A rule is warned about exactly when its counters change, in the order of the rules. -/
theorem ruleEvents_eq (r : Report) : r.ruleEvents
    = recounted r.rules r.aggregateRules.rules ++ [.ruleRollup r.aggregateRules.ruleTotals] := by
  have hs : r.sortTargets.zipIdx = r.rules.zipIdx.map fun e =>
      ({ e.1 with targets := .sort (r.column e.2) }, e.2) := by
    rw [sortTargets_eq]
    apply List.ext_getElem?
    intro i
    simp [List.getElem?_zipIdx, Function.comp_def]
  have hz : (r.rules.zip r.aggregateRules.rules).zipIdx = r.rules.zipIdx.map fun e =>
      ((e.1, e.1.settledOn (.sort (r.column e.2))), e.2) := by
    apply List.ext_getElem?
    intro i
    simp only [List.getElem?_zipIdx, List.getElem?_map, List.zip, List.getElem?_zipWith,
      getElem?_aggregateRules]
    cases r.rules[i]? <;> simp
  rw [ruleEvents, recounted, hs, hz, List.filter_map, List.filter_map, List.map_map, List.map_map]
  congr 2
  refine List.filter_congr fun e _ => ?_
  simp [Rule.settledOn, ne_comm]

/-- A report that was changed by hand after earlier passes: one row too many results long, one too
short and one empty, a name that stands twice, and counters and categories of other rows. -/
def raggedReport : Report where
  benchmark := .empty
  rules := [⟨"a", "A", "", [], .single .fail 7, .push .empty .error "gone", some .fail⟩,
    ⟨"b", "B", "", [], .single .pass 1, .empty, none⟩]
  targets := [⟨"host", none, none, [.pass, .pass, .fail], .empty, false, none⟩,
    ⟨"web", none, none, [.unknown], .push .empty .pass 5, false, some .pass⟩,
    ⟨"web", some "timeout", none, [], .empty, true, some .unknown⟩]
  ruleTotals := .empty
  targetTotals := .ofList [.pass, .unknown]
  names := .empty

end Report
end Compliance
