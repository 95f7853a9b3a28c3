import Compliance.Proofs.ClosedForm
import Compliance.Proofs.Severity

/-! Reports over two lists of targets, one after the other. Everything that is derived for a rule
comes together from what is derived over each list, and the targets stay as they are. -/
namespace Compliance

theorem Partition.get_sort_append {α : Type} (xs ys : List (Outcome × α)) (o : Outcome) :
    (sort (xs ++ ys)).get o = (sort xs).get o ++ (sort ys).get o := by
  rw [get_sort, get_sort, get_sort, List.filter_append, List.map_append]

private theorem Partition.classify_counts_sort_append {α : Type} (xs ys : List (Outcome × α)) :
    (sort (xs ++ ys)).counts.classify
      = max (sort xs).counts.classify (sort ys).counts.classify := by
  rw [counts_sort, counts_sort, counts_sort, List.map_append, Tally.classify_append]

private theorem CategoryTally.ofList_append (cs ds : List Category) :
    ofList (cs ++ ds) = (ofList cs).add (ofList ds) := by
  refine PerCategory.ext_get fun c => ?_
  rw [get_add, get_ofList, get_ofList, get_ofList, List.count_append]

/-- What a rule over two lists of targets has to do with the same rule over each of them. -/
structure Rule.Joins (x x₁ x₂ : Rule) : Prop where
  first : (x.id, x.title, x.description, x.references)
    = (x₁.id, x₁.title, x₁.description, x₁.references)
  second : (x.id, x.title, x.description, x.references)
    = (x₂.id, x₂.title, x₂.description, x₂.references)
  classes : ∀ o, x.targets.get o = x₁.targets.get o ++ x₂.targets.get o
  totals : ∀ o, x.totals.get o = x₁.totals.get o + x₂.totals.get o
  category : ∃ c₁ c₂, x₁.category = some c₁ ∧ x₂.category = some c₂ ∧ x.category = some (max c₁ c₂)

private theorem RuleRecord.finished_append (y : RuleRecord) (xs ys : List (Outcome × String)) :
    (y.finished (.sort (xs ++ ys))).Joins (y.finished (.sort xs)) (y.finished (.sort ys)) where
  first := rfl
  second := rfl
  classes := Partition.get_sort_append xs ys
  totals o := by
    simp only [finished, Partition.get_counts, Partition.get_sort_append, List.length_append]
  category := ⟨_, _, rfl, rfl, congrArg some (Partition.classify_counts_sort_append xs ys)⟩

namespace Report

theorem columnOf_append (ts us : List Target) (i : Nat) :
    columnOf (ts ++ us) i = columnOf ts i ++ columnOf us i := List.filterMap_append

/-- A report over two lists of targets, put together from the reports over each. -/
structure Joins (r r₁ r₂ : Report) : Prop where
  benchmark : r₁.benchmark = r.benchmark ∧ r₂.benchmark = r.benchmark
  targets : r.targets = r₁.targets ++ r₂.targets
  ruleCount : r₁.rules.length = r.rules.length ∧ r₂.rules.length = r.rules.length
  rules : ∀ (i : Nat) (x x₁ x₂ : Rule), r.rules[i]? = some x → r₁.rules[i]? = some x₁ →
    r₂.rules[i]? = some x₂ → x.Joins x₁ x₂
  targetTotals : r.targetTotals = r₁.targetTotals.add r₂.targetTotals

private theorem finished_append (b : Benchmark) (rules : List RuleRecord)
    (ts us : List TargetRecord) (x y z : NameIndex) :
    (finished b rules (ts ++ us) x).Joins (finished b rules ts y) (finished b rules us z) where
  benchmark := ⟨rfl, rfl⟩
  targets := List.map_append
  ruleCount := by simp only [finished, finishedRules, List.length_mapIdx, and_self]
  rules i u u₁ u₂ hu hu₁ hu₂ := by
    simp only [finished, finishedRules, List.getElem?_mapIdx] at hu hu₁ hu₂
    obtain ⟨rule, hrule, rfl⟩ := Option.map_eq_some_iff.mp hu
    obtain ⟨rule₁, hrule₁, rfl⟩ := Option.map_eq_some_iff.mp hu₁
    obtain ⟨rule₂, hrule₂, rfl⟩ := Option.map_eq_some_iff.mp hu₂
    obtain rfl := Option.some.inj (hrule.symm.trans hrule₁)
    obtain rfl := Option.some.inj (hrule.symm.trans hrule₂)
    rw [List.map_append, columnOf_append]
    exact rule.finished_append _ _
  targetTotals := by
    simp only [finished]
    rw [List.map_append, List.filterMap_append, CategoryTally.ofList_append]

/-- A report over some targets leaves a report over any of them that are taken out in order. -/
private theorem build_sublist {b : Benchmark} {rules : List RuleRecord} {ts us : List TargetRecord}
    {s : Settings} {r : Report} (hs : us.Sublist ts)
    (h : (build ⟨some b, some rules, some ts⟩ s).result = .ok r) :
    ∃ x, (build ⟨some b, some rules, some us⟩ s).result = .ok (finished b rules us x) := by
  obtain ⟨_, _, _, y, hp, hsound, hy, _⟩ := build_eq_ok_iff.mp h
  cases hp
  have hn : s.duplicateNames = .reject → (us.map TargetRecord.name).Nodup :=
    fun hr => (NameIndex.exists_build_iff.mp ⟨y, hy⟩ hr).sublist (hs.map _)
  obtain ⟨x, hx⟩ := NameIndex.exists_build_iff.mpr hn
  have hu : ∀ t ∈ us, ¬ t.Defective rules := fun t ht => hsound t (hs.subset ht)
  exact ⟨x, build_eq_ok_iff.mpr ⟨b, rules, us, x, rfl, hu, hx, rfl⟩⟩

/-- Where there is a report over two lists of targets, there is one over each, and it is put
together from these: the targets in their order, the classes and counters of each rule, the heavier
of its categories, and the totals of the targets. -/
theorem build_append {b : Benchmark} {rules : List RuleRecord} {ts us : List TargetRecord}
    {s : Settings} {r : Report}
    (h : (build ⟨some b, some rules, some (ts ++ us)⟩ s).result = .ok r) :
    ∃ r₁ r₂, (build ⟨some b, some rules, some ts⟩ s).result = .ok r₁ ∧
      (build ⟨some b, some rules, some us⟩ s).result = .ok r₂ ∧
      r.targets.take ts.length = r₁.targets ∧ r.targets.drop ts.length = r₂.targets ∧
      r.Joins r₁ r₂ := by
  obtain ⟨y, hy⟩ := build_sublist (List.sublist_append_left ts us) h
  obtain ⟨z, hz⟩ := build_sublist (List.sublist_append_right ts us) h
  obtain ⟨_, _, _, x, hp, _, _, rfl⟩ := build_eq_ok_iff.mp h
  cases hp
  have hj := finished_append b rules ts us x y z
  have hl : (finished b rules ts y).targets.length = ts.length := List.length_map _
  refine ⟨_, _, hy, hz, ?_, ?_, hj⟩
  · rw [hj.targets, ← hl, List.take_left]
  · rw [hj.targets, ← hl, List.drop_left]

/-- Two rules, of which the first has totals that cannot be right. -/
def twoRules : List RuleRecord := [⟨"a", "A", "", [], [9, counterMax]⟩, ⟨"b", "B", "", [], []⟩]

def oneTarget : List TargetRecord := [⟨"host", none, none, some [.ofNat 1, .ofNat 2]⟩]

/-- A target that was not evaluated, before one with a name that is taken. -/
def twoMore : List TargetRecord :=
  [⟨"down", some "timeout", none, none⟩, ⟨"host", none, none, some [.ofNat 6, .ofNat 1]⟩]

theorem build_append_repeated_name :
    ∃ r r₁ r₂, (build ⟨some .empty, some twoRules, some (oneTarget ++ twoMore)⟩
        ⟨.lastWins, []⟩).result = .ok r ∧
      r.Joins r₁ r₂ ∧ r.rules.map Rule.category = [some .unknown, some .fail] ∧
      r₁.rules.map Rule.category = [some .pass, some .fail] ∧
      r₂.rules.map Rule.category = [some .unknown, some .unknown] := by
  have hb : ∃ r, (build ⟨some .empty, some twoRules, some (oneTarget ++ twoMore)⟩
      ⟨.lastWins, []⟩).result = .ok r := ⟨_, rfl⟩
  obtain ⟨r, h⟩ := hb
  obtain ⟨r₁, r₂, h₁, h₂, _, _, hj⟩ := build_append h
  refine ⟨r, r₁, r₂, h, hj, ?_, ?_, ?_⟩
  · cases h
    rfl
  · cases h₁
    rfl
  · cases h₂
    rfl

end Report
end Compliance
