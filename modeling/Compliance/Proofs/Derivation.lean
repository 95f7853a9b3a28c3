import Compliance.Proofs.Rollup
import Compliance.Proofs.Sorting
import Compliance.Report.Passes

/-! What the passes derive, in closed form: a rule is settled on the column of its position, a
target on its own row. Nothing else of a report is read or written. -/
namespace Compliance

/-- A rule with a given partition of targets, and with what follows from it. -/
def Rule.settledOn (x : Rule) (p : Partition String) : Rule :=
  { x with targets := p, totals := p.counts, category := some p.counts.classify }

namespace Report

/-- The outcomes at a position of a rule, each with the name of its target. -/
def columnOf (ts : List Target) (i : Nat) : List (Outcome × String) :=
  Partition.labelled (·.results[i]?) Target.name ts

theorem columnOf_eq (ts : List Target) (i : Nat) :
    columnOf ts i = ts.filterMap fun t => t.results[i]?.map fun o => (o, t.name) := rfl

private theorem columnOf_cons_none {t : Target} {i : Nat} (h : t.results[i]? = none)
    (ts : List Target) : columnOf (t :: ts) i = columnOf ts i :=
  Partition.labelled_cons_none (fun t : Target => t.results[i]?) h Target.name ts

theorem columnOf_cons_some {t : Target} {i : Nat} {o : Outcome} (h : t.results[i]? = some o)
    (ts : List Target) : columnOf (t :: ts) i = (o, t.name) :: columnOf ts i :=
  Partition.labelled_cons_some (fun t : Target => t.results[i]?) h Target.name ts

def column (r : Report) (i : Nat) : List (Outcome × String) := columnOf r.targets i

/-- Names of the targets that have an outcome at a position, in the order of the targets. -/
def namesAt (ts : List Target) (i : Nat) (o : Outcome) : List String :=
  (ts.filter fun t => t.results[i]? = some o).map Target.name

theorem namesAt_ne_nil_iff {ts : List Target} {i : Nat} {o : Outcome} :
    namesAt ts i o ≠ [] ↔ ∃ t ∈ ts, t.results[i]? = some o := by
  rw [namesAt, ne_eq, List.map_eq_nil_iff, List.filter_eq_nil_iff]
  simp

theorem get_sort_columnOf (ts : List Target) (i : Nat) :
    (Partition.sort (columnOf ts i)).get = namesAt ts i := by
  funext o
  exact Partition.get_sort_labelled ..

private theorem recordRow_eq (name : String) (rules : List Rule) (os : List Outcome) :
    recordRow name rules os = rules.mapIdx fun i x =>
      match os[i]? with
      | some o => x.record o name
      | none => x := by
  induction rules generalizing os with
  | nil => cases os <;> rfl
  | cons x rules ih =>
    cases os with
    | nil => exact (List.mapIdx_eq_iff.mpr fun i => by simp [recordRow]).symm
    | cons o os =>
      rw [recordRow, ih, List.mapIdx_cons]
      rfl

private theorem recordAll_eq (ts : List Target) (rules : List Rule) :
    ts.foldl (fun rules t => recordRow t.name rules t.results) rules = rules.mapIdx fun i x =>
      { x with targets := x.targets.pushAll (columnOf ts i) } := by
  induction ts generalizing rules with
  | nil => exact (List.mapIdx_eq_iff.mpr fun i => by simp [columnOf, Partition.labelled,
      Partition.pushAll]).symm
  | cons t ts ih =>
    rw [List.foldl_cons, ih, recordRow_eq, List.mapIdx_mapIdx, List.mapIdx_eq_mapIdx_iff]
    intro i _
    cases h : t.results[i]? with
    | none => simp only [Function.comp_apply, columnOf_cons_none h]
    | some o =>
      simp only [Function.comp_apply, columnOf_cons_some h]
      rfl

/-- Under each rule the targets are sorted by their outcome at the position of the rule. -/
theorem sortTargets_eq (r : Report) :
    r.sortTargets = r.rules.mapIdx fun i x => { x with targets := .sort (r.column i) } := by
  rw [sortTargets, recordAll_eq]
  apply List.ext_getElem?
  intro i
  simp only [List.getElem?_mapIdx, List.getElem?_map, Option.map_map]
  rfl

/-- The rules as the pass over them leaves them, each settled on its column. -/
def settledRules (r : Report) : List Rule :=
  r.rules.mapIdx fun i x => x.settledOn (.sort (r.column i))

theorem aggregateRules_eq (r : Report) :
    r.aggregateRules = { r with
      rules := r.settledRules
      ruleTotals := .ofList (r.settledRules.filterMap (·.category)) } := by
  have h : r.sortTargets.map .settle = r.settledRules := by
    rw [sortTargets_eq]
    apply List.ext_getElem?
    intro i
    simp only [settledRules, List.getElem?_mapIdx, List.getElem?_map, Option.map_map]
    rfl
  rw [← h]
  rfl

/-- The pass over the targets settles each on its row. -/
private theorem aggregateTargets_targets (r : Report) :
    r.aggregateTargets.targets = r.targets.map Target.settle := rfl

/-- A pass over the targets leaves every column as it is. -/
theorem column_settle (r : Report) (i : Nat) : r.aggregateTargets.column i = r.column i := by
  rw [column, aggregateTargets_targets, columnOf_eq, List.filterMap_map]
  rfl

/-- Each rule of a finished report is settled on the column of the report that was finished. -/
theorem getElem?_aggregate_rules (r : Report) (i : Nat) :
    r.aggregate.rules[i]? = r.rules[i]?.map fun x => x.settledOn (.sort (r.column i)) := by
  have h : r.aggregate.rules = r.aggregateRules.rules := rfl
  rw [h, aggregateRules_eq, settledRules, List.getElem?_mapIdx]

theorem aggregate_targets (r : Report) : r.aggregate.targets = r.targets.map Target.settle := rfl

theorem aggregate_ruleTotals (r : Report) :
    r.aggregate.ruleTotals = .ofList (r.aggregate.rules.filterMap (·.category)) := rfl

theorem aggregate_targetTotals (r : Report) :
    r.aggregate.targetTotals = .ofList (r.aggregate.targets.filterMap (·.category)) := rfl

/-- What a rule has apart from derived data is not touched. -/
theorem aggregate_rules_map {α : Type} {f : Rule → α} (hf : ∀ x p, f (x.settledOn p) = f x)
    (r : Report) : r.aggregate.rules.map f = r.rules.map f := by
  apply List.ext_getElem?
  intro i
  simp only [List.getElem?_map, getElem?_aggregate_rules, Option.map_map, Function.comp_def, hf]

theorem aggregate_targets_map {α : Type} {f : Target → α} (hf : ∀ t : Target, f t.settle = f t)
    (r : Report) : r.aggregate.targets.map f = r.targets.map f := by
  rw [aggregate_targets, List.map_map]
  exact List.map_congr_left fun t _ => hf t

theorem column_aggregate (r : Report) (i : Nat) : r.aggregate.column i = r.column i :=
  column_settle r i

/-- The targets under a rule, outcome by outcome. -/
theorem get_aggregate_rule {r : Report} {i : Nat} {x : Rule} (h : r.aggregate.rules[i]? = some x)
    (o : Outcome) : x.targets.get o
      = (r.aggregate.targets.filter fun t => t.results[i]? = some o).map Target.name := by
  rw [getElem?_aggregate_rules, ← column_aggregate] at h
  obtain ⟨y, _, rfl⟩ := Option.map_eq_some_iff.mp h
  exact Partition.get_sort_labelled ..

/-- The rules under a target, outcome by outcome. -/
theorem get_aggregate_target {r : Report} {t : Target} (h : t ∈ r.aggregate.targets)
    (o : Outcome) : t.rules.get o
      = (List.range t.results.length).filter fun i => t.results[i]? = some o := by
  rw [aggregate_targets] at h
  obtain ⟨u, _, rfl⟩ := List.mem_map.mp h
  exact Partition.get_sort_zipIdx u.results o

/-- The counters of a rule count its targets, and its category classifies them. -/
theorem aggregate_rule_settled {r : Report} {x : Rule} (h : x ∈ r.aggregate.rules) :
    x.totals = x.targets.counts ∧ x.category = some x.totals.classify := by
  obtain ⟨i, hi⟩ := List.mem_iff_getElem?.mp h
  rw [getElem?_aggregate_rules] at hi
  obtain ⟨y, _, rfl⟩ := Option.map_eq_some_iff.mp hi
  exact ⟨rfl, rfl⟩

theorem aggregate_target_settled {r : Report} {t : Target} (h : t ∈ r.aggregate.targets) :
    t.category = some t.rules.counts.classify := by
  rw [aggregate_targets] at h
  obtain ⟨u, _, rfl⟩ := List.mem_map.mp h
  rfl

/-- The totals of the rules count the rules of each category. -/
theorem get_aggregate_ruleTotals (r : Report) (c : Category) :
    r.aggregate.ruleTotals.get c = (r.aggregate.rulesIn c).length :=
  get_ofList_filterMap Rule.category r.aggregate.rules c

theorem get_aggregate_targetTotals (r : Report) (c : Category) :
    r.aggregate.targetTotals.get c = (r.aggregate.targetsIn c).length :=
  get_ofList_filterMap Target.category r.aggregate.targets c

private theorem length_filterMap_some {α β : Type} {f : α → Option β} {xs : List α}
    (h : ∀ x ∈ xs, ∃ b, f x = some b) : (xs.filterMap f).length = xs.length := by
  rw [List.length_filterMap_eq_countP, List.countP_eq_length]
  intro x hx
  obtain ⟨b, hb⟩ := h x hx
  rw [hb]
  rfl

/-- Every rule is counted once. -/
theorem total_aggregate_ruleTotals (r : Report) :
    r.aggregate.ruleTotals.total = r.aggregate.rules.length := by
  rw [aggregate_ruleTotals, CategoryTally.total_ofList]
  exact length_filterMap_some fun x hx => ⟨_, (aggregate_rule_settled hx).2⟩

theorem total_aggregate_targetTotals (r : Report) :
    r.aggregate.targetTotals.total = r.aggregate.targets.length := by
  rw [aggregate_targetTotals, CategoryTally.total_ofList]
  exact length_filterMap_some fun t ht => ⟨_, aggregate_target_settled ht⟩

/-- Every target has an outcome for every rule. -/
def Rectangular (r : Report) : Prop := ∀ t ∈ r.targets, t.results.length = r.rules.length

/-- In a rectangular report the classes of a rule hold every target once. -/
theorem aggregate_rule_perm {r : Report} (hr : r.aggregate.Rectangular) {x : Rule}
    (h : x ∈ r.aggregate.rules) :
    x.targets.toList.flatten.Perm (r.aggregate.targets.map Target.name) := by
  obtain ⟨i, hi⟩ := List.mem_iff_getElem?.mp h
  have hlt := (List.getElem?_eq_some_iff.mp hi).1
  rw [getElem?_aggregate_rules, ← column_aggregate] at hi
  obtain ⟨y, _, rfl⟩ := Option.map_eq_some_iff.mp hi
  have hc : (r.aggregate.column i).map (·.2) = r.aggregate.targets.map Target.name := by
    apply Partition.labelled_of_total
    intro t ht
    rw [Option.isSome_iff_exists]
    exact ⟨_, List.getElem?_eq_getElem (hr t ht ▸ hlt)⟩
  exact hc ▸ Partition.flatten_sort _

/-- The classes of a target hold every position of its row once. -/
theorem aggregate_target_perm {r : Report} {t : Target} (h : t ∈ r.aggregate.targets) :
    t.rules.toList.flatten.Perm (List.range t.results.length) := by
  rw [aggregate_targets] at h
  obtain ⟨u, _, rfl⟩ := List.mem_map.mp h
  have hp := Partition.flatten_sort u.results.zipIdx
  rw [List.zipIdx_map_snd, ← List.range_eq_range'] at hp
  exact hp

end Report
end Compliance
