import Compliance.Proofs.FinishedReport

/-! Links between the rules and the targets of a finished report. Names lead to the last target
that has them; where names are distinct, the links of the rules and those of the targets are one
relation, that of the result matrix. -/
namespace Compliance.Report

/-- The links of a rule go to the targets with the outcome, in the order of the targets. -/
theorem targetsFor_aggregate {r : Report} (hr : r.aggregate.Rectangular) (i : Nat) (o : Outcome) :
    r.aggregate.targetsFor i o = (r.aggregate.targets.filter fun t => t.results[i]? = some o).map
      fun t => ⟨t.name, r.names.position t.name⟩ := by
  rw [targetsFor]
  split
  next y hy =>
    rw [get_aggregate_rule hy, List.map_map]
    rfl
  next hn =>
    have hf : (r.aggregate.targets.filter fun t => t.results[i]? = some o) = [] := by
      rw [List.filter_eq_nil_iff]
      intro t ht
      rw [List.getElem?_eq_none (hr t ht ▸ List.getElem?_eq_none_iff.mp hn)]
      simp
    rw [hf]
    rfl

theorem names_targetsFor {r : Report} (hr : r.aggregate.Rectangular) (i : Nat) (o : Outcome) :
    (r.aggregate.targetsFor i o).map TargetLink.name = namesAt r.aggregate.targets i o := by
  rw [targetsFor_aggregate hr, List.map_map, namesAt]
  rfl

/-- No position under a target is dropped, since none is past the last rule. -/
theorem rulesFor_aggregate {r : Report} (hr : r.aggregate.Rectangular) {j : Nat} {t : Target}
    (ht : r.aggregate.targets[j]? = some t) (o : Outcome) :
    (r.aggregate.rulesFor j o).map RuleLink.position
      = (List.range r.aggregate.rules.length).filter fun i => t.results[i]? = some o := by
  have hm := List.mem_of_getElem? ht
  have hl := hr t hm
  rw [rulesFor, ht, List.map_filterMap, get_aggregate_target hm, hl]
  refine (List.filterMap_congr (g := some) ?_).trans List.filterMap_some
  intro i hi
  have hlt := List.mem_range.mp (List.mem_filter.mp hi).1
  rw [List.getElem?_eq_getElem hlt]
  rfl

private theorem mem_rulesFor_aggregate {r : Report} (hr : r.aggregate.Rectangular) {i j : Nat}
    {o : Outcome} : i ∈ (r.aggregate.rulesFor j o).map RuleLink.position ↔
      ∃ t, r.aggregate.targets[j]? = some t ∧ t.results[i]? = some o := by
  cases ht : r.aggregate.targets[j]? with
  | none => simp [rulesFor, ht]
  | some t =>
    rw [rulesFor_aggregate hr ht, List.mem_filter, List.mem_range,
      ← hr t (List.mem_of_getElem? ht), decide_eq_true_eq]
    constructor
    · rintro ⟨_, h⟩
      exact ⟨t, rfl, h⟩
    · rintro ⟨u, hu, h⟩
      obtain rfl := Option.some.inj hu
      exact ⟨(List.getElem?_eq_some_iff.mp h).1, h⟩

private theorem nodup_rulesFor_aggregate {r : Report} (hr : r.aggregate.Rectangular) (j : Nat)
    (o : Outcome) : ((r.aggregate.rulesFor j o).map RuleLink.position).Nodup := by
  cases ht : r.aggregate.targets[j]? with
  | none => simp [rulesFor, ht]
  | some t =>
    rw [rulesFor_aggregate hr ht]
    exact List.nodup_range.filter _

section
variable {r : Report} (hr : r.aggregate.Rectangular)
  (hx : r.names.Resolves (r.aggregate.targets.map Target.name))
include hr hx

/-- No link dangles: it leads to the last target with its name. -/
private theorem link_lastAt {i : Nat} {o : Outcome} {l : TargetLink}
    (hl : l ∈ r.aggregate.targetsFor i o) :
    ∃ j, l.position = some j ∧
      NameIndex.LastAt (r.aggregate.targets.map Target.name) l.name j := by
  rw [targetsFor_aggregate hr] at hl
  obtain ⟨t, ht, rfl⟩ := List.mem_map.mp hl
  obtain ⟨j, hj⟩ := hx.known (List.mem_map_of_mem (List.mem_filter.mp ht).1)
  exact ⟨j, hj, hx.last hj⟩

private theorem mem_targetsFor_aggregate (hn : (r.aggregate.targets.map Target.name).Nodup)
    {i j : Nat} {o : Outcome} : some j ∈ (r.aggregate.targetsFor i o).map TargetLink.position ↔
      ∃ t, r.aggregate.targets[j]? = some t ∧ t.results[i]? = some o := by
  have hp : ∀ {k t}, r.aggregate.targets[k]? = some t → r.names.position t.name = some k := by
    intro k t ht
    apply hx.position_eq_some.mpr
    exact NameIndex.lastAt_of_nodup hn (by rw [List.getElem?_map, ht]; rfl)
  rw [targetsFor_aggregate hr, List.map_map, List.mem_map]
  constructor
  · rintro ⟨t, ht, hj⟩
    obtain ⟨hm, ho⟩ := List.mem_filter.mp ht
    obtain ⟨k, hk⟩ := List.mem_iff_getElem?.mp hm
    obtain rfl := Option.some.inj ((hp hk).symm.trans hj)
    exact ⟨t, hk, of_decide_eq_true ho⟩
  · rintro ⟨t, ht, ho⟩
    exact ⟨t, List.mem_filter.mpr ⟨List.mem_of_getElem? ht, decide_eq_true ho⟩, hp ht⟩

private theorem nodup_targetsFor_aggregate (hn : (r.aggregate.targets.map Target.name).Nodup)
    (i : Nat) (o : Outcome) : ((r.aggregate.targetsFor i o).map TargetLink.position).Nodup := by
  rw [targetsFor_aggregate hr, List.map_map]
  refine List.Nodup.map_on ?_ (hn.of_map.filter _)
  intro t ht u hu he
  have hm := (List.mem_filter.mp ht).1
  have hm' := (List.mem_filter.mp hu).1
  obtain ⟨j, hj⟩ := hx.known (List.mem_map_of_mem hm)
  have hname : some t.name = some u.name :=
    (hx.last hj).1.symm.trans (hx.last (he.symm.trans hj)).1
  exact List.inj_on_of_nodup_map hn hm hm' (Option.some.inj hname)

end

private theorem OpenedOn.finished_resolves {d : Document} {s : Settings} {b : Benchmark}
    {rules : List RuleRecord} {ts : List TargetRecord} {m : ResultMatrix} {x : NameIndex}
    (h : OpenedOn d s b rules ts m x) :
    (opening b rules ts m x).names.Resolves
      ((opening b rules ts m x).aggregate.targets.map Target.name) := by
  have hn : (opening b rules ts m x).aggregate.targets.map Target.name = ts.map (·.name) :=
    h.finished_targets_map (fun _ => rfl) fun _ _ _ => rfl
  rw [hn]
  exact NameIndex.build_resolves h.names

/-- Counting an outcome rule by rule or target by target comes to the same. -/
theorem sumOf_outcome_aggregate {r : Report} (hr : r.aggregate.Rectangular) (o : Outcome) :
    sumOf (r.aggregate.rules.map fun x => x.totals.get o)
      = sumOf (r.aggregate.targets.map fun t => (t.rules.get o).length) := by
  have hrules : r.aggregate.rules.map (fun x => x.totals.get o)
      = (List.range r.aggregate.rules.length).map fun i =>
        r.aggregate.targets.countP fun t => t.results[i]? = some o := by
    apply List.ext_getElem (by simp)
    intro i hi _
    rw [List.length_map] at hi
    rw [List.getElem_map, List.getElem_map, List.getElem_range,
      (aggregate_rule_settled (List.getElem_mem hi)).1, Partition.get_counts,
      get_aggregate_rule (List.getElem?_eq_getElem hi), List.length_map,
      List.countP_eq_length_filter]
  have htargets : r.aggregate.targets.map (fun t => (t.rules.get o).length)
      = r.aggregate.targets.map fun t =>
        (List.range r.aggregate.rules.length).countP fun i => t.results[i]? = some o := by
    apply List.map_congr_left
    intro t ht
    rw [get_aggregate_target ht, hr t ht, List.countP_eq_length_filter]
  rw [hrules, htargets]
  exact sumOf_countP_comm _ _ _

/-- Whatever the policy, links never dangle and both views count the same. Where names are distinct,
a rule links to a target exactly when the target links to the rule, once each way, and exactly
when the matrix has the outcome there. -/
theorem build_links_agree {d : Document} {s : Settings} {r : Report}
    (h : (build d s).result = .ok r) :
    (∀ i o, ∀ l ∈ r.targetsFor i o, ∃ j, l.position = some j ∧
      NameIndex.LastAt (r.targets.map Target.name) l.name j) ∧
    (∃ rules ts m, d.rules = some rules ∧ d.targets = some ts ∧
      (ResultMatrix.ofRecords rules ts).result = .ok m ∧
      ((r.targets.map Target.name).Nodup → ∀ i j o,
        (some j ∈ (r.targetsFor i o).map TargetLink.position ↔
          i ∈ (r.rulesFor j o).map RuleLink.position) ∧
        (i ∈ (r.rulesFor j o).map RuleLink.position ↔ m.rows[j]?.bind (·[i]?) = some o) ∧
        ((r.targetsFor i o).map TargetLink.position).Nodup ∧
        ((r.rulesFor j o).map RuleLink.position).Nodup)) ∧
    ∀ o, sumOf (r.rules.map fun x => x.totals.get o)
      = sumOf (r.targets.map fun t => (t.rules.get o).length) := by
  obtain ⟨b, rules, ts, m, x, ho, rfl⟩ := build_opened h
  have hr := ho.finished_rectangular
  have hx := ho.finished_resolves
  refine ⟨fun i o l hl => link_lastAt hr hx hl, ?_, sumOf_outcome_aggregate hr⟩
  obtain rfl := ho.parts
  refine ⟨rules, ts, m, rfl, rfl, ho.matrix, ?_⟩
  intro hn i j o
  refine ⟨?_, ?_, nodup_targetsFor_aggregate hr hx hn i o, nodup_rulesFor_aggregate hr j o⟩
  · rw [mem_targetsFor_aggregate hr hx hn, mem_rulesFor_aggregate hr]
  · rw [mem_rulesFor_aggregate hr, ← ho.finished_results, List.getElem?_map,
      Option.bind_eq_some_iff]
    constructor
    · rintro ⟨t, ht, hto⟩
      exact ⟨t.results, by rw [ht]; rfl, hto⟩
    · rintro ⟨os, hos, hio⟩
      obtain ⟨t, ht, rfl⟩ := Option.map_eq_some_iff.mp hos
      exact ⟨t, ht, hio⟩

theorem build_links_agree_threeTargets :
    ∃ r, (build (threeTargets "web") ⟨.reject, []⟩).result = .ok r ∧
      (r.targets.map Target.name).Nodup ∧
      (some 1 ∈ (r.targetsFor 0 .error).map TargetLink.position ↔
        0 ∈ (r.rulesFor 1 .error).map RuleLink.position) := by
  have hb : ∃ r, (build (threeTargets "web") ⟨.reject, []⟩).result = .ok r ∧
      (r.targets.map Target.name).Nodup := ⟨_, rfl, by decide⟩
  obtain ⟨r, h, hn⟩ := hb
  obtain ⟨_, ⟨_, _, _, _, _, _, hl⟩, _⟩ := build_links_agree h
  exact ⟨r, h, hn, (hl hn 0 1 .error).1⟩

end Compliance.Report
