import Compliance.Proofs.ClosedForm
import Compliance.Proofs.Severity
import Mathlib.Data.List.FinRange

/-! Documents with their rules and targets in another order. Whether there is a report does not
change, nor do the totals; each rule and each target keeps what is derived for it, up to the order
in which it is listed. -/
namespace Compliance

section
variable {α β : Type} {n : Nat} (σ : Equiv.Perm (Fin n))

/-- A list in another order: at a position stands what was at the image of the position. A list of
another length stays as it is. -/
def reorder (xs : List α) : List α :=
  if h : xs.length = n then List.ofFn fun i => xs.get ((σ i).cast h.symm) else xs

private theorem reorder_perm (xs : List α) : (reorder σ xs).Perm xs := by
  unfold reorder
  split
  next h =>
    subst h
    have hp := σ.ofFn_comp_perm xs.get
    rwa [List.ofFn_get] at hp
  next => exact .refl xs

@[simp] theorem length_reorder (xs : List α) : (reorder σ xs).length = xs.length :=
  (reorder_perm σ xs).length_eq

private theorem getElem?_reorder {xs : List α} (h : xs.length = n) (i : Fin n) :
    (reorder σ xs)[i.val]? = xs[(σ i).val]? := by
  have hi : (σ i).val < xs.length := h ▸ (σ i).isLt
  rw [reorder, dif_pos h, List.getElem?_ofFn, dif_pos i.isLt, List.getElem?_eq_getElem hi]
  rfl

private theorem getElem?_reorder_eq_some {xs : List α} (h : xs.length = n) {p : Nat} {a : α} :
    (reorder σ xs)[p]? = some a ↔ ∃ i : Fin n, i.val = p ∧ xs[(σ i).val]? = some a := by
  constructor
  · intro hp
    have hlt := (List.getElem?_eq_some_iff.mp hp).1
    rw [length_reorder, h] at hlt
    exact ⟨⟨p, hlt⟩, rfl, (getElem?_reorder σ h ⟨p, hlt⟩).symm.trans hp⟩
  · rintro ⟨i, rfl, hi⟩
    rw [getElem?_reorder σ h, hi]

/-- A list is reordered when it has at each position what was at the image. -/
theorem eq_reorder {xs ys : List α} (hx : xs.length = n) (hy : ys.length = n)
    (h : ∀ i : Fin n, ys[i.val]? = xs[(σ i).val]?) : ys = reorder σ xs := by
  apply List.ext_getElem?
  intro i
  by_cases hi : i < n
  · exact (h ⟨i, hi⟩).trans (getElem?_reorder σ hx ⟨i, hi⟩).symm
  · rw [List.getElem?_eq_none (by omega), List.getElem?_eq_none (by rw [length_reorder]; omega)]

private theorem reorder_map (f : α → β) (xs : List α) :
    reorder σ (xs.map f) = (reorder σ xs).map f := by
  by_cases h : xs.length = n
  · refine (eq_reorder σ (by rw [List.length_map, h]) (by rw [List.length_map, length_reorder, h])
      fun i => ?_).symm
    rw [List.getElem?_map, getElem?_reorder σ h, List.getElem?_map]
  · rw [reorder, reorder, dif_neg h, dif_neg (by rwa [List.length_map])]

private theorem reorder_replicate (m : Nat) (a : α) :
    reorder σ (List.replicate m a) = List.replicate m a :=
  List.perm_replicate.mp (reorder_perm σ _)

end

private theorem Partition.get_sort_perm {α : Type} {xs ys : List (Outcome × α)} (h : xs.Perm ys)
    (o : Outcome) : ((sort xs).get o).Perm ((sort ys).get o) := by
  rw [get_sort, get_sort]
  exact (h.filter _).map _

private theorem Partition.counts_sort_perm {α : Type} {xs ys : List (Outcome × α)}
    (h : xs.Perm ys) :
    (sort xs).counts = (sort ys).counts := by
  rw [counts_sort, counts_sort, Tally.ofOutcomes_perm (h.map _)]

private theorem CategoryTally.ofList_perm {cs ds : List Category} (h : cs.Perm ds) :
    ofList cs = ofList ds :=
  PerCategory.ext_get fun c => by rw [get_ofList, get_ofList, h.count_eq]

namespace TargetRecord
variable {n : Nat} (σ : Equiv.Perm (Fin n))

/-- A target for rules in another order. -/
def reorder (t : TargetRecord) : TargetRecord :=
  { t with results := t.results.map (Compliance.reorder σ) }

private theorem defective_reorder {rules rules' : List RuleRecord}
    (hl : rules'.length = rules.length)
    {t : TargetRecord} : (t.reorder σ).Defective rules' ↔ t.Defective rules := by
  have hbad : ∀ vs : List Json, (∃ v ∈ Compliance.reorder σ vs, ¬ v.IsOrdinal) ↔
      ∃ v ∈ vs, ¬ v.IsOrdinal := by
    intro vs
    simp only [(reorder_perm σ vs).mem_iff]
  simp only [Defective, reorder, Option.map_eq_some_iff]
  constructor
  · rintro ⟨_, ⟨vs, hv, rfl⟩, hd⟩
    rw [length_reorder, hl, hbad] at hd
    exact ⟨vs, hv, hd⟩
  · rintro ⟨vs, hv, hd⟩
    rw [← hl, ← hbad, ← length_reorder σ vs] at hd
    exact ⟨_, ⟨vs, hv, rfl⟩, hd⟩

variable {σ}

private theorem Completes.reorder {rules rules' : List RuleRecord}
    (hl : rules'.length = rules.length)
    {t : TargetRecord} {os : List Outcome} (h : t.Completes rules os) :
    (t.reorder σ).Completes rules' (Compliance.reorder σ os) := by
  cases h with
  | evaluated given fits =>
    refine .evaluated ?_ (by rw [length_reorder, fits, hl])
    rw [TargetRecord.reorder, given, Option.map_some, reorder_map]
  | unevaluated missing =>
    rw [reorder_replicate, ← hl]
    exact .unevaluated (by rw [TargetRecord.reorder, missing]; rfl)

private theorem length_outcomes {rules : List RuleRecord} {t : TargetRecord}
    (h : ¬ t.Defective rules) :
    (t.outcomes rules.length).length = rules.length := by
  obtain ⟨os, ho⟩ := ResultMatrix.exists_completes_iff.mpr h
  rw [ho.outcomes_eq, ho.length]

private theorem outcomes_reorder {rules : List RuleRecord} {t : TargetRecord}
    (h : ¬ t.Defective rules) :
    (t.reorder σ).outcomes rules.length = Compliance.reorder σ (t.outcomes rules.length) := by
  obtain ⟨os, ho⟩ := ResultMatrix.exists_completes_iff.mpr h
  rw [ho.outcomes_eq, (ho.reorder (σ := σ) rfl).outcomes_eq]

end TargetRecord

/-- Rules that are the same up to the order of the targets in their classes. -/
structure Rule.SameUpToOrder (x y : Rule) : Prop where
  record : (x.id, x.title, x.description, x.references)
    = (y.id, y.title, y.description, y.references)
  totals : x.totals = y.totals
  category : x.category = y.category
  classes : ∀ o, (x.targets.get o).Perm (y.targets.get o)

private theorem RuleRecord.finished_perm (r : RuleRecord) {xs ys : List (Outcome × String)}
    (h : xs.Perm ys) : (r.finished (.sort xs)).SameUpToOrder (r.finished (.sort ys)) where
  record := rfl
  totals := Partition.counts_sort_perm h
  category := congrArg (fun t : Tally => some t.classify) (Partition.counts_sort_perm h)
  classes := Partition.get_sort_perm h

/-- Targets that are the same when the positions of the rules are sent to their images. -/
structure Target.SameUpToOrder {n : Nat} (σ : Equiv.Perm (Fin n)) (t u : Target) : Prop where
  record : (t.name, t.statusDetail, t.errorTrace) = (u.name, u.statusDetail, u.errorTrace)
  unevaluated : t.unevaluated = u.unevaluated
  category : t.category = u.category
  classes : ∀ o p, p ∈ t.rules.get o ↔ ∃ i : Fin n, i.val = p ∧ (σ i).val ∈ u.rules.get o

/-- A class of a target holds the positions at which the outcome stands. -/
private theorem TargetRecord.mem_finished_rules {rules : Nat} {t : TargetRecord} {o : Outcome}
    {p : Nat} :
    p ∈ (t.finished rules).rules.get o ↔ (t.outcomes rules)[p]? = some o := by
  have h : (t.finished rules).rules = Partition.sort (t.outcomes rules).zipIdx := rfl
  rw [h, Partition.get_sort_zipIdx, List.mem_filter, List.mem_range, decide_eq_true_eq]
  exact and_iff_right_of_imp fun hp => (List.getElem?_eq_some_iff.mp hp).1

private theorem TargetRecord.finished_reorder {rules : List RuleRecord}
    (σ : Equiv.Perm (Fin rules.length)) {t : TargetRecord} (h : ¬ t.Defective rules) :
    ((t.reorder σ).finished rules.length).SameUpToOrder σ (t.finished rules.length) where
  record := rfl
  unevaluated := Option.isNone_map
  category := by
    have hc : ((t.reorder σ).finished rules.length).rules.counts
        = (t.finished rules.length).rules.counts := by
      rw [finished, finished, Target.counts_settle, Target.counts_settle]
      exact Tally.ofOutcomes_perm (outcomes_reorder (σ := σ) h ▸ reorder_perm σ _)
    exact congrArg (fun t : Tally => some t.classify) hc
  classes o p := by
    simp only [mem_finished_rules]
    rw [outcomes_reorder h, getElem?_reorder_eq_some σ (length_outcomes h)]

namespace Report

/-- The column of a rule in another order is the column at the image, up to the order of the
targets. -/
private theorem columnOf_reorder {rules : List RuleRecord} (σ : Equiv.Perm (Fin rules.length))
    {ts us : List TargetRecord} (hu : us.Perm ts) (hs : ∀ t ∈ ts, ¬ t.Defective rules)
    (i : Fin rules.length) :
    (columnOf (us.map fun t => (t.reorder σ).finished rules.length) i).Perm
      (columnOf (ts.map (TargetRecord.finished rules.length)) (σ i)) := by
  rw [columnOf_eq, columnOf_eq, List.filterMap_map, List.filterMap_map]
  refine (hu.filterMap _).trans (.of_eq (List.filterMap_congr fun t ht => ?_))
  simp only [Function.comp_apply, TargetRecord.finished_results, TargetRecord.finished_name]
  rw [TargetRecord.outcomes_reorder (hs t ht),
    getElem?_reorder σ (TargetRecord.length_outcomes (hs t ht))]
  rfl

/-- Reports that are the same up to the order of their rules and targets. -/
structure SameUpToOrder {m n : Nat} (σ : Equiv.Perm (Fin m)) (τ : Equiv.Perm (Fin n))
    (r q : Report) : Prop where
  benchmark : r.benchmark = q.benchmark
  ruleTotals : r.ruleTotals = q.ruleTotals
  targetTotals : r.targetTotals = q.targetTotals
  ruleCount : r.rules.length = m ∧ q.rules.length = m
  targetCount : r.targets.length = n ∧ q.targets.length = n
  rules : ∀ (i : Fin m) (x y : Rule), r.rules[i.val]? = some x → q.rules[(σ i).val]? = some y →
    x.SameUpToOrder y
  targets : ∀ (j : Fin n) (t u : Target), r.targets[j.val]? = some t →
    q.targets[(τ j).val]? = some u → t.SameUpToOrder σ u

section
variable {rules : List RuleRecord} (σ : Equiv.Perm (Fin rules.length)) {ts us : List Target}
  (hc : ∀ i : Fin rules.length, (columnOf us i).Perm (columnOf ts (σ i)))
include hc

/-- Each rule in the other order is finished as the rule at the image is. -/
theorem finishedRules_reorder (i : Fin rules.length) :
    ∃ x y, (finishedRules (reorder σ rules) us)[i.val]? = some x ∧
      (finishedRules rules ts)[(σ i).val]? = some y ∧ x.SameUpToOrder y := by
  have hy := List.getElem?_eq_getElem (σ i).isLt
  have hx : (reorder σ rules)[i.val]? = some rules[(σ i).val] :=
    (getElem?_reorder σ rfl i).trans hy
  refine ⟨_, _, ?_, ?_, rules[(σ i).val].finished_perm (hc i)⟩
  · rw [finishedRules, List.getElem?_mapIdx, hx]
    rfl
  · rw [finishedRules, List.getElem?_mapIdx, hy]
    rfl

private theorem ofList_category_finishedRules_reorder :
    CategoryTally.ofList ((finishedRules (reorder σ rules) us).filterMap (·.category))
      = .ofList ((finishedRules rules ts).filterMap (·.category)) := by
  have hm : (finishedRules (reorder σ rules) us).map Rule.category
      = reorder σ ((finishedRules rules ts).map Rule.category) := by
    refine eq_reorder σ (by simp [finishedRules]) (by simp [finishedRules]) fun i => ?_
    obtain ⟨x, y, hx, hy, hxy⟩ := finishedRules_reorder σ hc i
    rw [List.getElem?_map, List.getElem?_map, hx, hy, Option.map_some, Option.map_some,
      hxy.category]
  have hp := (reorder_perm σ ((finishedRules rules ts).map Rule.category)).filterMap id
  rw [← hm, List.filterMap_map, List.filterMap_map] at hp
  exact CategoryTally.ofList_perm hp

end

section
variable {rules : List RuleRecord} {ts : List TargetRecord} (hs : ∀ t ∈ ts, ¬ t.Defective rules)
  (σ : Equiv.Perm (Fin rules.length)) (τ : Equiv.Perm (Fin ts.length))
include hs

/-- Each target in the other order is finished as the target at the image is. -/
private theorem finishedTargets_reorder (j : Fin ts.length) :
    ∃ t u, ((reorder τ ts).map fun t => (t.reorder σ).finished rules.length)[j.val]? = some t ∧
      (ts.map (TargetRecord.finished rules.length))[(τ j).val]? = some u ∧
      t.SameUpToOrder σ u := by
  have hu := List.getElem?_eq_getElem (τ j).isLt
  refine ⟨_, _, ?_, ?_, TargetRecord.finished_reorder σ (hs _ (List.getElem_mem (τ j).isLt))⟩
  · rw [List.getElem?_map, getElem?_reorder τ rfl, hu]
    rfl
  · rw [List.getElem?_map, hu]
    rfl

private theorem ofList_category_finishedTargets_reorder :
    CategoryTally.ofList (((reorder τ ts).map fun t =>
        (t.reorder σ).finished rules.length).filterMap (·.category))
      = .ofList ((ts.map (TargetRecord.finished rules.length)).filterMap (·.category)) := by
  rw [List.filterMap_map, List.filterMap_map]
  refine CategoryTally.ofList_perm (((reorder_perm τ ts).filterMap _).trans (.of_eq ?_))
  exact List.filterMap_congr fun t hm => (TargetRecord.finished_reorder σ (hs t hm)).category

private theorem finished_reorder (b : Benchmark) (x y : NameIndex) :
    (finished b (reorder σ rules) ((reorder τ ts).map (TargetRecord.reorder σ)) x).SameUpToOrder σ τ
      (finished b rules ts y) := by
  have ht : ((reorder τ ts).map (TargetRecord.reorder σ)).map
      (TargetRecord.finished (reorder σ rules).length)
        = (reorder τ ts).map fun t => (t.reorder σ).finished rules.length := by
    rw [List.map_map, length_reorder]
    rfl
  have hc := fun i => columnOf_reorder σ (reorder_perm τ ts) hs i
  refine ⟨rfl, ?_, ?_, ?_, ?_, ?_, ?_⟩
  · simp only [finished, ht]
    exact ofList_category_finishedRules_reorder σ hc
  · simp only [finished, ht]
    exact ofList_category_finishedTargets_reorder hs σ τ
  · simp [finished, finishedRules]
  · simp [finished]
  · intro i u v hu hv
    simp only [finished, ht] at hu hv
    obtain ⟨_, _, hu', hv', huv⟩ := finishedRules_reorder σ hc i
    obtain rfl := Option.some.inj (hu.symm.trans hu')
    obtain rfl := Option.some.inj (hv.symm.trans hv')
    exact huv
  · intro j u v hu hv
    simp only [finished, ht] at hu hv
    obtain ⟨_, _, hu', hv', huv⟩ := finishedTargets_reorder hs σ τ j
    obtain rfl := Option.some.inj (hu.symm.trans hu')
    obtain rfl := Option.some.inj (hv.symm.trans hv')
    exact huv

end

end Report

namespace Document

/-- How many rules there are; none where their part is absent. -/
def ruleCount (d : Document) : Nat := (d.rules.getD []).length

def targetCount (d : Document) : Nat := (d.targets.getD []).length

/-- A document with its rules and its targets in another order. Results follow their rules, unless
there is not one for each rule. -/
def reorder (d : Document) (σ : Equiv.Perm (Fin d.ruleCount)) (τ : Equiv.Perm (Fin d.targetCount)) :
    Document where
  benchmark := d.benchmark
  rules := d.rules.map (Compliance.reorder σ)
  targets := d.targets.map fun ts => (Compliance.reorder τ ts).map (TargetRecord.reorder σ)

private theorem sound_reorder {m n : Nat} (σ : Equiv.Perm (Fin m)) (τ : Equiv.Perm (Fin n))
    (rules : List RuleRecord) (ts : List TargetRecord) :
    (∀ t ∈ (Compliance.reorder τ ts).map (TargetRecord.reorder σ),
      ¬ t.Defective (Compliance.reorder σ rules)) ↔ ∀ t ∈ ts, ¬ t.Defective rules := by
  simp only [List.forall_mem_map, TargetRecord.defective_reorder σ (length_reorder σ rules),
    (reorder_perm τ ts).mem_iff]

private theorem nodup_names_reorder {m n : Nat} (σ : Equiv.Perm (Fin m)) (τ : Equiv.Perm (Fin n))
    (ts : List TargetRecord) :
    (((Compliance.reorder τ ts).map (TargetRecord.reorder σ)).map TargetRecord.name).Nodup ↔
      (ts.map TargetRecord.name).Nodup := by
  rw [List.map_map]
  exact ((reorder_perm τ ts).map _).nodup_iff

/-- Neither the defects of targets nor the repetition of a name hang on the order. -/
private theorem accepted_reorder (d : Document) (σ : Equiv.Perm (Fin d.ruleCount))
    (τ : Equiv.Perm (Fin d.targetCount)) (policy : DuplicateNames) :
    (d.reorder σ τ).Accepted policy ↔ d.Accepted policy := by
  constructor
  · rintro ⟨b, rules', ts', hp, hs, hn⟩
    obtain ⟨benchmark, rules, targets⟩ := d
    obtain ⟨rfl, hr, ht⟩ := Document.mk.inj hp
    obtain ⟨rules, rfl, rfl⟩ := Option.map_eq_some_iff.mp hr
    obtain ⟨ts, rfl, rfl⟩ := Option.map_eq_some_iff.mp ht
    exact ⟨b, rules, ts, rfl, (sound_reorder σ τ rules ts).mp hs,
      fun h => (nodup_names_reorder σ τ ts).mp (hn h)⟩
  · rintro ⟨b, rules, ts, rfl, hs, hn⟩
    exact ⟨b, _, _, rfl, (sound_reorder σ τ rules ts).mpr hs,
      fun h => (nodup_names_reorder σ τ ts).mpr (hn h)⟩

end Document

namespace Report

/-- Documents in another order are built or fail together, whatever the policy, and their reports
have the same totals, rules with the same counters, category and targets of each outcome, and
targets with the same category, flag and, at their new positions, rules of each outcome. -/
theorem build_reorder (d : Document) (σ : Equiv.Perm (Fin d.ruleCount))
    (τ : Equiv.Perm (Fin d.targetCount)) (s : Settings) :
    ((∃ r, (build (d.reorder σ τ) s).result = .ok r) ↔ ∃ r, (build d s).result = .ok r) ∧
    ∀ r q, (build (d.reorder σ τ) s).result = .ok r → (build d s).result = .ok q →
      r.SameUpToOrder σ τ q := by
  refine ⟨?_, ?_⟩
  · rw [exists_build_iff, exists_build_iff, Document.accepted_reorder]
  · intro r q hr hq
    obtain ⟨b, rules, ts, y, rfl, hs, _, rfl⟩ := build_eq_ok_iff.mp hq
    obtain ⟨_, _, _, x, hp, _, _, rfl⟩ := build_eq_ok_iff.mp hr
    cases hp
    exact finished_reorder hs σ τ b x y

def otherRule : Equiv.Perm (Fin 2) := Equiv.swap 0 1

def lastTargetFirst : Equiv.Perm (Fin 3) := Equiv.swap 0 2

theorem build_reorder_repeated_name :
    ∃ r q, (build ((threeTargets "host").reorder otherRule lastTargetFirst)
        ⟨.lastWins, []⟩).result = .ok r ∧
      (build (threeTargets "host") ⟨.lastWins, []⟩).result = .ok q ∧
      r.SameUpToOrder otherRule lastTargetFirst q ∧
      r.targets.map Target.results = [[.pass, .notApplicable], [.error, .error], [.fail, .pass]] ∧
      r.ruleTotals = ⟨0, 1, 1, 0⟩ := by
  have hb : ∃ r q, (build ((threeTargets "host").reorder otherRule lastTargetFirst)
        ⟨.lastWins, []⟩).result = .ok r ∧
      (build (threeTargets "host") ⟨.lastWins, []⟩).result = .ok q ∧
      r.targets.map Target.results = [[.pass, .notApplicable], [.error, .error], [.fail, .pass]] ∧
      r.ruleTotals = ⟨0, 1, 1, 0⟩ := ⟨_, _, rfl, rfl, rfl, rfl⟩
  obtain ⟨r, q, hr, hq, hresults, htotals⟩ := hb
  exact ⟨r, q, hr, hq, (build_reorder _ _ _ _).2 r q hr hq, hresults, htotals⟩

end Report
end Compliance
