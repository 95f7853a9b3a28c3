import Compliance.Proofs.FinishedReport
import Compliance.Report.Edit
import Mathlib.Data.List.InsertIdx

/-! Reports under changes by hand and passes in any order. What a pass derives depends on the data
that changes by hand touch and on nothing that an earlier pass left, so a run that ends in both
passes forgets all passes before. -/
namespace Compliance

inductive Pass where
  | both
  | rules
  | targets
  deriving DecidableEq

namespace Pass

def coversRules : Pass → Bool
  | .both | .rules => true
  | .targets => false

def coversTargets : Pass → Bool
  | .both | .targets => true
  | .rules => false

def apply : Pass → Report → Report
  | .both, r => r.aggregate
  | .rules, r => r.aggregateRules
  | .targets, r => r.aggregateTargets

end Pass

inductive Step where
  | edit (e : Edit)
  | pass (p : Pass)
  deriving DecidableEq

def Step.edit? : Step → Option Edit
  | .edit e => some e
  | .pass _ => none

namespace Rule

/-- A rule without its counters and what was derived for it. -/
def bare (x : Rule) : Rule := { x with totals := .empty, targets := .empty, category := none }

@[simp] theorem bare_bare (x : Rule) : x.bare.bare = x.bare := rfl

@[simp] theorem bare_settledOn (x : Rule) (p : Partition String) :
    (x.settledOn p).bare = x.bare := rfl

@[simp] theorem settledOn_bare (x : Rule) (p : Partition String) :
    x.bare.settledOn p = x.settledOn p := rfl

end Rule

namespace Target

/-- A target without what was derived for it. -/
def bare (t : Target) : Target := { t with rules := .empty, category := none }

@[simp] theorem bare_bare (t : Target) : t.bare.bare = t.bare := rfl

@[simp] theorem bare_settle (t : Target) : t.settle.bare = t.bare := rfl

@[simp] theorem settle_bare (t : Target) : t.bare.settle = t.settle := rfl

end Target

namespace Report

/-- A report without anything that a pass writes. -/
def bare (r : Report) : Report :=
  { r with
    rules := r.rules.map .bare
    targets := r.targets.map .bare
    ruleTotals := .empty
    targetTotals := .empty }

def step (r : Report) : Step → Report
  | .edit e => r.edit e
  | .pass p => p.apply r

def run (r : Report) (steps : List Step) : Report := steps.foldl step r

/-- The report after the changes by hand alone, in the same order. -/
def runEdits (r : Report) (steps : List Step) : Report := (steps.filterMap Step.edit?).foldl edit r

private theorem run_cons (r : Report) (x : Step) (steps : List Step) :
    r.run (x :: steps) = (r.step x).run steps := rfl

private theorem run_append (r : Report) (steps more : List Step) :
    r.run (steps ++ more) = (r.run steps).run more := List.foldl_append

theorem aggregateRules_bare (r : Report) : r.aggregateRules.bare = r.bare := by
  rw [aggregateRules_eq, bare, bare]
  congr 1
  apply List.ext_getElem?
  intro i
  simp [settledRules, Function.comp_def]

theorem aggregateTargets_bare (r : Report) : r.aggregateTargets.bare = r.bare := by
  rw [aggregateTargets, bare, bare]
  congr 1
  simp [Function.comp_def]

/-- A pass writes derived data only. -/
theorem bare_apply (p : Pass) (r : Report) : (p.apply r).bare = r.bare := by
  cases p with
  | both => exact (aggregateTargets_bare _).trans (aggregateRules_bare r)
  | rules => exact aggregateRules_bare r
  | targets => exact aggregateTargets_bare r

private theorem map_modify_map {α : Type} {g f : α → α} (hg : ∀ x, g (f (g x)) = g (f x))
    (hgg : ∀ x, g (g x) = g x) (xs : List α) (i : Nat) :
    ((xs.map g).modify i f).map g = (xs.modify i f).map g := by
  apply List.ext_getElem?
  intro j
  simp only [List.getElem?_map, List.getElem?_modify]
  cases xs[j]? with
  | none => rfl
  | some x => by_cases h : i = j <;> simp [h, hg, hgg]

private theorem map_eraseIdx_map {α : Type} {g : α → α} (hgg : ∀ x, g (g x) = g x) (xs : List α)
    (i : Nat) : ((xs.map g).eraseIdx i).map g = (xs.eraseIdx i).map g := by
  rw [List.eraseIdx_map, List.map_map]
  exact List.map_congr_left fun x _ => hgg x

private theorem bare_modifyTarget {f : Target → Target}
    (hf : ∀ t : Target, (f t.bare).bare = (f t).bare) (r : Report) (i : Nat) :
    (r.bare.modifyTarget i f).bare = (r.modifyTarget i f).bare := by
  simp only [modifyTarget, bare, map_modify_map hf Target.bare_bare, List.map_map,
    Function.comp_def, Rule.bare_bare]

private theorem bare_modifyRule {f : Rule → Rule} (hf : ∀ x : Rule, (f x.bare).bare = (f x).bare)
    (r : Report) (i : Nat) : (r.bare.modifyRule i f).bare = (r.modifyRule i f).bare := by
  simp only [modifyRule, bare, map_modify_map hf Rule.bare_bare, List.map_map,
    Function.comp_def, Target.bare_bare]

/-- A change by hand reads nothing that a pass writes, except to overwrite it. -/
private theorem bare_edit (r : Report) (e : Edit) : (r.bare.edit e).bare = (r.edit e).bare := by
  cases e with
  | setResult t i o => exact bare_modifyTarget (fun _ => rfl) r t
  | pushResult t o => exact bare_modifyTarget (fun _ => rfl) r t
  | popResult t => exact bare_modifyTarget (fun _ => rfl) r t
  | renameTarget t name => exact bare_modifyTarget (fun _ => rfl) r t
  | setTotals i totals => exact bare_modifyRule (fun _ => rfl) r i
  | removeRule i =>
    simp only [edit, bare, map_eraseIdx_map Rule.bare_bare, List.map_map, Function.comp_def,
      Target.bare_bare]
  | removeTarget i =>
    simp only [edit, bare, map_eraseIdx_map Target.bare_bare, List.map_map, Function.comp_def,
      Rule.bare_bare]

/-- Both runs end alike up to what passes write, whatever passes stood between the changes. -/
private theorem run_bare {r q : Report} (h : r.bare = q.bare) (steps : List Step) :
    (r.run steps).bare = (q.runEdits steps).bare := by
  induction steps generalizing r q with
  | nil => exact h
  | cons x steps ih =>
    rw [run_cons]
    cases x with
    | edit e =>
      have he : (r.edit e).bare = (q.edit e).bare := by rw [← bare_edit, h, bare_edit]
      exact ih he
    | pass p => exact ih ((bare_apply p r).trans h)

/-- The targets as the pass over them leaves them. -/
def settledTargets (r : Report) : List Target := r.targets.map .settle

private theorem aggregateTargets_eq (r : Report) :
    r.aggregateTargets = { r with
      targets := r.settledTargets
      targetTotals := .ofList (r.settledTargets.filterMap (·.category)) } := rfl

private theorem column_bare (r : Report) (i : Nat) : r.bare.column i = r.column i := by
  rw [column, columnOf_eq, bare, List.filterMap_map]
  rfl

private theorem settledRules_bare (r : Report) : r.bare.settledRules = r.settledRules := by
  have hr : r.bare.rules = r.rules.map .bare := rfl
  apply List.ext_getElem?
  intro i
  simp only [settledRules, hr, column_bare, List.getElem?_mapIdx, List.getElem?_map,
    Option.map_map, Function.comp_def, Rule.settledOn_bare]

private theorem settledTargets_bare (r : Report) : r.bare.settledTargets = r.settledTargets := by
  simp only [settledTargets, bare, List.map_map, Function.comp_def, Target.settle_bare]

private theorem settledRules_congr {r q : Report} (h : r.bare = q.bare) :
    r.settledRules = q.settledRules := by
  rw [← settledRules_bare r, h, settledRules_bare]

private theorem settledTargets_congr {r q : Report} (h : r.bare = q.bare) :
    r.settledTargets = q.settledTargets := by
  rw [← settledTargets_bare r, h, settledTargets_bare]

private theorem aggregateRules_aggregateRules (r : Report) :
    r.aggregateRules.aggregateRules = r.aggregateRules := by
  rw [aggregateRules_eq r.aggregateRules, settledRules_congr (aggregateRules_bare r),
    aggregateRules_eq r]

private theorem aggregateTargets_aggregateTargets (r : Report) :
    r.aggregateTargets.aggregateTargets = r.aggregateTargets := by
  rw [aggregateTargets_eq r.aggregateTargets, settledTargets_congr (aggregateTargets_bare r),
    aggregateTargets_eq r]

/-- The passes commute, since neither reads what the other writes. -/
theorem aggregateTargets_aggregateRules (r : Report) :
    r.aggregateTargets.aggregateRules = r.aggregate := by
  rw [aggregateRules_eq r.aggregateTargets, settledRules_congr (aggregateTargets_bare r),
    aggregate, aggregateRules_eq r]
  rfl

theorem aggregate_eq (r : Report) : r.aggregate = { r with
    rules := r.settledRules
    targets := r.settledTargets
    ruleTotals := .ofList (r.settledRules.filterMap (·.category))
    targetTotals := .ofList (r.settledTargets.filterMap (·.category)) } := by
  rw [aggregate, aggregateRules_eq]
  rfl

private theorem aggregate_bare (r : Report) : r.bare.aggregate = r.aggregate := by
  rw [aggregate_eq r.bare, settledRules_bare, settledTargets_bare, aggregate_eq r]
  rfl

/-- Reports with the same data are finished alike. -/
theorem aggregate_congr {r q : Report} (h : r.bare = q.bare) : r.aggregate = q.aggregate := by
  rw [← aggregate_bare r, h, aggregate_bare]

theorem aggregateRules_aggregate (r : Report) : r.aggregate.aggregateRules = r.aggregate := by
  rw [← aggregateTargets_aggregateRules, aggregateRules_aggregateRules]

theorem aggregateTargets_aggregate (r : Report) : r.aggregate.aggregateTargets = r.aggregate := by
  rw [aggregate, aggregateTargets_aggregateTargets]

/-- The report after those passes that were asked for. -/
def swept (r : Report) : (rules targets : Bool) → Report
  | false, false => r
  | true, false => r.aggregateRules
  | false, true => r.aggregateTargets
  | true, true => r.aggregate

private theorem swept_bare (r : Report) : ∀ a b, (r.swept a b).bare = r.bare
  | false, false => rfl
  | true, false => bare_apply .rules r
  | false, true => bare_apply .targets r
  | true, true => bare_apply .both r

private theorem apply_swept (r : Report) : ∀ (p : Pass) (a b : Bool),
    p.apply (r.swept a b) = r.swept (a || p.coversRules) (b || p.coversTargets)
  | .both, a, b => by
    rw [Pass.coversRules, Pass.coversTargets, Bool.or_true, Bool.or_true]
    exact aggregate_congr (swept_bare r a b)
  | .rules, false, false => rfl
  | .rules, true, false => aggregateRules_aggregateRules r
  | .rules, false, true => aggregateTargets_aggregateRules r
  | .rules, true, true => aggregateRules_aggregate r
  | .targets, false, false => rfl
  | .targets, true, false => rfl
  | .targets, false, true => aggregateTargets_aggregateTargets r
  | .targets, true, true => aggregateTargets_aggregate r

/-- Passes in any order come to each pass that is among them. -/
private theorem run_passes (r : Report) (a b : Bool) (passes : List Pass) :
    (r.swept a b).run (passes.map .pass)
      = r.swept (a || passes.any (·.coversRules)) (b || passes.any (·.coversTargets)) := by
  induction passes generalizing a b with
  | nil => simp [run]
  | cons p passes ih =>
    rw [List.map_cons, run_cons, step, apply_swept, ih, List.any_cons, List.any_cons,
      Bool.or_assoc, Bool.or_assoc]

/-- A run that ends in both passes, in any order and number, comes to the changes by hand and one
aggregation. Each pass does nothing twice, they commute, and each leaves the rest of the report. -/
theorem run_forgets_passes (r : Report) :
    (∀ (steps : List Step) (passes : List Pass), (∃ p ∈ passes, p.coversRules) →
      (∃ p ∈ passes, p.coversTargets) →
      r.run (steps ++ passes.map .pass) = (r.runEdits steps).aggregate) ∧
    r.aggregate.aggregate = r.aggregate ∧
    r.aggregateRules.aggregateRules = r.aggregateRules ∧
    r.aggregateTargets.aggregateTargets = r.aggregateTargets ∧
    r.aggregateRules.aggregateTargets = r.aggregateTargets.aggregateRules ∧
    r.aggregateRules = { r with
      rules := r.aggregateRules.rules, ruleTotals := r.aggregateRules.ruleTotals } ∧
    r.aggregateTargets = { r with
      targets := r.aggregateTargets.targets, targetTotals := r.aggregateTargets.targetTotals } := by
  refine ⟨?_, aggregate_congr (bare_apply .both r), aggregateRules_aggregateRules r,
    aggregateTargets_aggregateTargets r, (aggregateTargets_aggregateRules r).symm, rfl, rfl⟩
  intro steps passes hr ht
  have hp := run_passes (r.run steps) false false passes
  rw [List.any_eq_true.mpr hr, List.any_eq_true.mpr ht] at hp
  rw [run_append]
  exact hp.trans (aggregate_congr (run_bare rfl steps))

/-- Rows that got too long and too short, a counter set by hand and a name that came to stand
twice, with passes between. -/
def raggedSteps : List Step :=
  [.pass .rules, .edit (.pushResult 0 .fail), .pass .targets, .edit (.popResult 1),
    .edit (.setTotals 0 (.single .pass 7)), .pass .both, .edit (.renameTarget 2 "host")]

theorem run_forgets_passes_ragged :
    ∃ r, (ofDocument (threeTargets "web") ⟨.reject, []⟩).result = .ok r ∧
      r.run (raggedSteps ++ [.targets, .rules, .targets].map .pass)
        = (r.runEdits raggedSteps).aggregate ∧
      (r.runEdits raggedSteps).targets.map (·.results.length) = [3, 1, 2] :=
  ⟨_, rfl, (run_forgets_passes _).1 raggedSteps [.targets, .rules, .targets]
    ⟨.rules, by decide, rfl⟩ ⟨.targets, by decide, rfl⟩, rfl⟩

end Report
end Compliance
