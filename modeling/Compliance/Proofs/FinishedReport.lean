import Compliance.Proofs.Derivation
import Compliance.Proofs.Opening

/-! A finished report accounts for its document. Its records are those of the document, and all
that is derived from their results says the same as the results do. -/
namespace Compliance.Report

/-- Everything a reader of a report relies on. Results are read off the rows, and every class,
counter, category and total is fixed by them. -/
structure AccountsFor (r : Report) (d : Document) : Prop where
  benchmark : d.benchmark = some r.benchmark
  rules : d.rules.map (·.map fun x => (x.id, x.title, x.description, x.references))
    = some (r.rules.map fun x => (x.id, x.title, x.description, x.references))
  targets : d.targets.map (·.map fun t => (t.name, t.statusDetail, t.errorTrace))
    = some (r.targets.map fun t => (t.name, t.statusDetail, t.errorTrace))
  results : ∃ rules ts, d.rules = some rules ∧ d.targets = some ts ∧
    List.Forall₂ (TargetRecord.Completes rules) ts (r.targets.map Target.results)
  rectangular : ∀ t ∈ r.targets, t.results.length = r.rules.length
  ruleClass : ∀ (i : Nat) (x : Rule), r.rules[i]? = some x → ∀ o,
    x.targets.get o = (r.targets.filter fun t => t.results[i]? = some o).map Target.name
  targetClass : ∀ t ∈ r.targets, ∀ o,
    t.rules.get o = (List.range r.rules.length).filter fun i => t.results[i]? = some o
  rulePartition : ∀ x ∈ r.rules, x.targets.toList.flatten.Perm (r.targets.map Target.name)
  targetPartition : ∀ t ∈ r.targets, t.rules.toList.flatten.Perm (List.range r.rules.length)
  counters : ∀ x ∈ r.rules, ∀ o, x.totals.get o = (x.targets.get o).length
  countersSum : ∀ x ∈ r.rules, sumOf x.totals.toList = r.targets.length
  ruleCategory : ∀ x ∈ r.rules, ∃ c, x.category = some c ∧ x.totals.RollsUpTo c
  targetCategory : ∀ t ∈ r.targets, ∃ c, t.category = some c ∧ t.rules.counts.RollsUpTo c
  ruleTotals : ∀ c, r.ruleTotals.get c = (r.rulesIn c).length
  targetTotals : ∀ c, r.targetTotals.get c = (r.targetsIn c).length
  ruleTotalsSum : r.ruleTotals.total = r.rules.length
  targetTotalsSum : r.targetTotals.total = r.targets.length

section
variable {d : Document} {s : Settings} {b : Benchmark} {rules : List RuleRecord}
  {ts : List TargetRecord} {m : ResultMatrix} {x : NameIndex}

/-- The records of the rules, in their order. -/
theorem OpenedOn.finished_rules_map {α : Type} (h : OpenedOn d s b rules ts m x) {f : Rule → α}
    {g : RuleRecord → α} (hf : ∀ y p, f (y.settledOn p) = f y)
    (hg : ∀ y delta n, f (.ofRecord y delta n) = g y) :
    (opening b rules ts m x).aggregate.rules.map f = rules.map g := by
  rw [aggregate_rules_map hf, h.opening_rules, List.map_map]
  exact List.map_congr_left fun y _ => hg ..

/-- The records of the targets, in their order. -/
theorem OpenedOn.finished_targets_map {α : Type} (h : OpenedOn d s b rules ts m x)
    {f : Target → α} {g : TargetRecord → α} (hf : ∀ t : Target, f t.settle = f t)
    (hg : ∀ t os u, f (.ofRecord t os u) = g t) :
    (opening b rules ts m x).aggregate.targets.map f = ts.map g := by
  rw [aggregate_targets_map hf, h.opening_targets_map hg]

/-- The rows of the matrix are the results of the finished targets. -/
theorem OpenedOn.finished_results (h : OpenedOn d s b rules ts m x) :
    (opening b rules ts m x).aggregate.targets.map Target.results = m.rows := by
  rw [aggregate_targets_map (fun _ => rfl), h.opening_results]

private theorem OpenedOn.length_finished_rules (h : OpenedOn d s b rules ts m x) :
    (opening b rules ts m x).aggregate.rules.length = rules.length := by
  have hl := congrArg List.length
    (h.finished_rules_map (f := Rule.id) (g := RuleRecord.id) (fun _ _ => rfl) fun _ _ _ => rfl)
  rwa [List.length_map, List.length_map] at hl

theorem OpenedOn.finished_rectangular (h : OpenedOn d s b rules ts m x) :
    (opening b rules ts m x).aggregate.Rectangular := by
  intro t ht
  rw [h.length_finished_rules]
  apply TargetRecord.length_of_completes h.rows
  rw [← h.finished_results]
  exact List.mem_map_of_mem ht

end

/-- Counters of a rule add up to the number of targets when every target has a result for it. -/
private theorem sumOf_aggregate_totals {r : Report} (hr : r.aggregate.Rectangular) {x : Rule}
    (h : x ∈ r.aggregate.rules) : sumOf x.totals.toList = r.aggregate.targets.length := by
  rw [(aggregate_rule_settled h).1, Partition.sumOf_counts, Partition.size,
    (aggregate_rule_perm hr h).length_eq, List.length_map]

theorem build_accountsFor {d : Document} {s : Settings} {r : Report}
    (h : (build d s).result = .ok r) : r.AccountsFor d := by
  obtain ⟨b, rules, ts, m, x, ho, rfl⟩ := build_opened h
  have hr := ho.finished_rectangular
  obtain rfl := ho.parts
  exact {
    benchmark := rfl
    rules := congrArg some (ho.finished_rules_map (fun _ _ => rfl) fun _ _ _ => rfl).symm
    targets := congrArg some (ho.finished_targets_map (fun _ => rfl) fun _ _ _ => rfl).symm
    results := ⟨rules, ts, rfl, rfl, ho.finished_results ▸ ho.rows⟩
    rectangular := hr
    ruleClass := fun i y hy o => get_aggregate_rule hy o
    targetClass := fun t ht o => hr t ht ▸ get_aggregate_target ht o
    rulePartition := fun y hy => aggregate_rule_perm hr hy
    targetPartition := fun t ht => hr t ht ▸ aggregate_target_perm ht
    counters := fun y hy o => by rw [(aggregate_rule_settled hy).1, Partition.get_counts]
    countersSum := fun y hy => sumOf_aggregate_totals hr hy
    ruleCategory := fun y hy => ⟨_, (aggregate_rule_settled hy).2, y.totals.classify_rollsUpTo⟩
    targetCategory := fun t ht =>
      ⟨_, aggregate_target_settled ht, t.rules.counts.classify_rollsUpTo⟩
    ruleTotals := get_aggregate_ruleTotals _
    targetTotals := get_aggregate_targetTotals _
    ruleTotalsSum := total_aggregate_ruleTotals _
    targetTotalsSum := total_aggregate_targetTotals _ }

/-- Two rules on three targets. The second target was not evaluated, and the totals that are
declared for the first rule cannot be right. -/
def threeTargets (third : String) : Document where
  benchmark := some .empty
  rules := some [⟨"a", "A", "", [], [9, counterMax]⟩, ⟨"b", "B", "", [], []⟩]
  targets := some [⟨"host", none, none, some [.ofNat 1, .ofNat 2]⟩,
    ⟨"down", some "timeout", none, none⟩, ⟨third, none, none, some [.ofNat 6, .ofNat 1]⟩]

theorem build_accountsFor_repeated_name :
    ∃ r, (build (threeTargets "host") ⟨.lastWins, []⟩).result = .ok r ∧
      r.AccountsFor (threeTargets "host") ∧
      r.rules.map (fun x => (x.targets.get .pass, x.category)) =
        [(["host"], some .unknown), (["host"], some .fail)] :=
  ⟨_, rfl, build_accountsFor (s := ⟨.lastWins, []⟩) rfl, rfl⟩

end Compliance.Report
