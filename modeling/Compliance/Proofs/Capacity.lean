import Compliance.Proofs.Reordering
import Compliance.Proofs.Slices
import Compliance.Proofs.SummaryTotals
import Compliance.Proofs.TargetPass
import Compliance.Proofs.WordSums
import Compliance.Proofs.WorstCategory

/-! Counting what reports hold never goes past the 64-bit words. The counters of a rule are bounded by
the number of targets as soon as a report is opened, whatever its document declares, and the passes keep
that bound; all else that is counted is a number of rules, of targets or of results. -/
namespace Compliance

/-- A fold that may fail does not, as long as what it should come to is within the bound under which
its steps do not fail. -/
theorem foldlM_eq_some {α β : Type} {f? : β → α → Option β} {f : β → α → β} (size : β → Nat) {n : Nat}
    {xs : List α} (hgrow : ∀ b a, size b ≤ size (f b a))
    (hstep : ∀ b, ∀ a ∈ xs, size (f b a) ≤ n → f? b a = some (f b a)) {b : β}
    (h : size (xs.foldl f b) ≤ n) : xs.foldlM f? b = some (xs.foldl f b) := by
  have hlast : ∀ (xs : List α) b, size b ≤ size (xs.foldl f b) := by
    intro xs
    induction xs with
    | nil => exact fun b => le_refl _
    | cons x xs ih => exact fun b => (hgrow b x).trans (ih _)
  induction xs generalizing b with
  | nil => rfl
  | cons x xs ih =>
    have hx := hstep b x List.mem_cons_self ((hlast xs _).trans h)
    rw [List.foldlM_cons, hx]
    exact ih (fun b a ha => hstep b a (List.mem_cons_of_mem x ha)) h

private theorem le_sumOf {n : Nat} {ns : List Nat} (h : n ∈ ns) : n ≤ sumOf ns := by
  induction h with
  | head ns => exact Nat.le_add_right ..
  | tail m _ ih => exact ih.trans (Nat.le_add_left ..)

namespace CategoryTally
variable {t u : CategoryTally} {c : Category}

def increment? (t : CategoryTally) (c : Category) : Option CategoryTally :=
  (word? (t.get c + 1)).map (t.set c)

def add? (t u : CategoryTally) : Option CategoryTally :=
  PerCategory.all? (.ofFn fun c => word? (t.get c + u.get c))

def total? (t : CategoryTally) : Option Nat := sumWords? t.toList

/-- The slices in words. The total is needed for the smallest one. -/
def slices? (t : CategoryTally) : Option CategoryTally :=
  t.total?.bind fun total =>
    let smallest := capped (Decimal.roundUnits
      (Decimal.divUnits (Decimal.unitsOfNat total) (Decimal.unitsOfNat 72)))
    PerCategory.all? (t.map fun n =>
      if n ≠ 0 ∧ n ≤ smallest then word? (n + smallest) else some n)

private theorem get_le_total (t : CategoryTally) (c : Category) : t.get c ≤ t.total :=
  le_sumOf (List.mem_map_of_mem c.mem_all)

private theorem total_add (t u : CategoryTally) : (t.add u).total = t.total + u.total := by
  simp only [total_eq_sum, get_add]
  omega

private theorem increment?_eq (h : (t.increment c).total ≤ counterMax) :
    t.increment? c = some (t.increment c) := by
  have hget := (t.increment c).get_le_total c
  rw [get_increment, if_pos rfl] at hget
  rw [increment?, word?_of_le (hget.trans h)]
  refine congrArg some (PerCategory.ext_get fun d => ?_)
  rw [PerCategory.set, PerCategory.get_modify, get_increment]
  split
  next hd => rw [hd]
  next => rfl

private theorem add?_eq (h : (t.add u).total ≤ counterMax) : t.add? u = some (t.add u) := by
  refine PerCategory.all?_eq_some.mpr fun c => ?_
  have hget := (t.add u).get_le_total c
  rw [PerCategory.get_ofFn, get_add, word?_of_le]
  exact (get_add t u c ▸ hget).trans h

private theorem total?_eq (h : t.total ≤ counterMax) : t.total? = some t.total :=
  (sumWords?_eq _).trans (word?_of_le h)

/-- Enlarged slices are words if the total has a bit to spare. -/
private theorem slices?_eq (h : 2 * t.total + 1 ≤ counterMax) : t.slices? = some t.slices := by
  rw [slices?, total?_eq (by omega)]
  refine PerCategory.all?_eq_some.mpr fun c => ?_
  have hget := t.get_le_total c
  have hmin := t.minimumSlice_le
  rw [slices, PerCategory.get_map, PerCategory.get_map]
  show (if t.get c ≠ 0 ∧ t.get c ≤ t.minimumSlice then _ else _) = _
  split
  next => exact word?_of_le (show t.get c + t.minimumSlice ≤ counterMax by omega)
  next => rfl

end CategoryTally

namespace Tally
variable {t : Tally}

/-- Counts that are words together are grouped. -/
private theorem byCategory?_eq_some (h : sumOf t.toList ≤ counterMax) :
    t.byCategory? = some t.byCategory :=
  byCategory?_eq_some_iff.mpr fun c =>
    ⟨PerCategory.get_ofFn .., (t.ofCategory_le_sumOf c).trans h⟩

private theorem sumOf_le {n : Nat} (h : ∀ o, t.get o ≤ n) : sumOf t.toList ≤ 8 * n :=
  sumOf_map_le fun o _ => h o

end Tally

namespace Console
variable {rows : PerCategory (Nat × Nat)} {r : Report} {es : List Entry}

/-- Adding the counts of a report to the rows of the table in words. -/
def addReport? (rows : PerCategory (Nat × Nat)) (r : Report) : Option (PerCategory (Nat × Nat)) :=
  Category.all.foldlM (fun rows c => do
    let rules ← word? ((rows.get c).1 + r.ruleTotals.get c)
    let targets ← word? ((rows.get c).2 + r.targetTotals.get c)
    return rows.set c (rules, targets)) rows

def tableRows? (es : List Entry) : Option (PerCategory (Nat × Nat)) :=
  es.foldlM (fun rows e => addReport? rows e.report) (.ofFn fun _ => (0, 0))

/-- All that is counted in the rows. -/
def counted (rows : PerCategory (Nat × Nat)) : Nat :=
  sumOf (rows.toList.map fun row => row.1 + row.2)

private theorem get_le_counted (rows : PerCategory (Nat × Nat)) (c : Category) :
    (rows.get c).1 + (rows.get c).2 ≤ counted rows := by
  refine le_sumOf ?_
  rw [PerCategory.toList, List.map_map]
  exact List.mem_map_of_mem c.mem_all

private theorem counted_addReport :
    counted (addReport rows r) = counted rows + (r.ruleTotals.total + r.targetTotals.total) := by
  have hrow : ∀ c, ((addReport rows r).get c).1 + ((addReport rows r).get c).2
      = ((rows.get c).1 + (rows.get c).2) + (r.ruleTotals.get c + r.targetTotals.get c) := by
    intro c
    rw [get_addReport]
    exact Nat.add_add_add_comm ..
  rw [counted, counted, PerCategory.toList, PerCategory.toList, List.map_map, List.map_map,
    CategoryTally.total, CategoryTally.total, PerCategory.toList, PerCategory.toList,
    ← sumOf_map_add, ← sumOf_map_add]
  exact congrArg sumOf (List.map_congr_left fun c _ => hrow c)

private theorem addReport?_eq (h : counted (addReport rows r) ≤ counterMax) :
    addReport? rows r = some (addReport rows r) := by
  have hrow : ∀ c, (rows.get c).1 + r.ruleTotals.get c + ((rows.get c).2 + r.targetTotals.get c)
      ≤ counterMax := by
    intro c
    have hget := get_le_counted (addReport rows r) c
    rw [get_addReport] at hget
    exact hget.trans h
  have hrules : ∀ c, word? ((rows.get c).1 + r.ruleTotals.get c)
      = some ((rows.get c).1 + r.ruleTotals.get c) :=
    fun c => word?_of_le (Nat.le_of_add_right_le (hrow c))
  have htargets : ∀ c, word? ((rows.get c).2 + r.targetTotals.get c)
      = some ((rows.get c).2 + r.targetTotals.get c) :=
    fun c => word?_of_le (Nat.le_of_add_left_le (hrow c))
  have hset : addReport rows r = Category.all.foldl (fun rows c => rows.set c
      ((rows.get c).1 + r.ruleTotals.get c, (rows.get c).2 + r.targetTotals.get c)) rows := by
    refine PerCategory.ext_get fun c => ?_
    rw [get_addReport]
    cases c <;> simp [Category.all]
  rw [hset]
  simp [addReport?, Category.all, hrules, htargets]

private theorem tableRows?_eq (h : counted (tableRows es) ≤ counterMax) :
    tableRows? es = some (tableRows es) := by
  refine foldlM_eq_some counted (n := counterMax) ?_ ?_ h
  · intro rows e
    rw [counted_addReport]
    exact Nat.le_add_right ..
  · intro rows e _ hle
    exact addReport?_eq hle

private theorem counted_tableRows (es : List Entry) :
    counted (tableRows es) = (Results.ruleTotals es).total + (Results.targetTotals es).total := by
  rw [counted, sumOf_map_add, (sumOf_tableRows es).1, (sumOf_tableRows es).2]

end Console

namespace Results
variable {f : Entry → CategoryTally} {es : List Entry}

def sumTally? (f : Entry → CategoryTally) (es : List Entry) : Option CategoryTally :=
  es.foldlM (fun t e => t.add? (f e)) .empty

private theorem sumTally?_eq (h : (sumTally f es).total ≤ counterMax) :
    sumTally? f es = some (sumTally f es) := by
  refine foldlM_eq_some CategoryTally.total (n := counterMax) ?_ ?_ h
  · intro t e
    rw [CategoryTally.total_add]
    exact Nat.le_add_right ..
  · intro t e _ hle
    exact CategoryTally.add?_eq hle

/-- Reports that are summed up the same in words, for the summary file and for the rows of the table
and both of its columns. -/
structure InWords (es : List Entry) : Prop where
  rules : sumTally? (·.report.ruleTotals) es = some (ruleTotals es)
  targets : sumTally? (·.report.targetTotals) es = some (targetTotals es)
  totals : (ruleTotals es).total? = some (ruleTotals es).total ∧
    (targetTotals es).total? = some (targetTotals es).total
  rows : Console.tableRows? es = some (Console.tableRows es)
  columns : sumWords? ((Console.tableRows es).toList.map (·.1)) = some (ruleTotals es).total ∧
    sumWords? ((Console.tableRows es).toList.map (·.2)) = some (targetTotals es).total

private theorem inWords_of_total_le
    (h : (ruleTotals es).total + (targetTotals es).total ≤ counterMax) : InWords es where
  rules := sumTally?_eq (Nat.le_of_add_right_le h)
  targets := sumTally?_eq (Nat.le_of_add_left_le h)
  totals := ⟨CategoryTally.total?_eq (Nat.le_of_add_right_le h),
    CategoryTally.total?_eq (Nat.le_of_add_left_le h)⟩
  rows := Console.tableRows?_eq (Console.counted_tableRows es ▸ h)
  columns := by
    rw [sumWords?_eq, sumWords?_eq, (Console.sumOf_tableRows es).1, (Console.sumOf_tableRows es).2]
    exact ⟨word?_of_le (Nat.le_of_add_right_le h), word?_of_le (Nat.le_of_add_left_le h)⟩

end Results

/-- Declared counters are cut off at the number of targets, and no more than that are added to them. -/
private theorem Rule.totals_ofRecord_le (x : RuleRecord) {n targets : Nat} (h : n ≤ targets)
    (o : Outcome) :
    (ofRecord x (.single .error n) targets).totals.get o ≤ 2 * targets := by
  have hdeclared : (x.declaredTally targets).get o ≤ targets := by
    rw [RuleRecord.declaredTally, PerOutcome.get_ofFn]
    exact Nat.min_le_right ..
  have hsingle : (Tally.single .error n).get o ≤ targets := by
    rw [Tally.get_single]
    split <;> omega
  have hcapped := Nat.min_le_left
    ((x.declaredTally targets).get o + (Tally.single .error n).get o) counterMax
  rw [ofRecord, Tally.get_add, capped]
  omega

namespace Report

def ruleRollup? (r : Report) : Option CategoryTally :=
  r.sortTargets.foldlM (fun totals x => x.targets.counts.classify?.bind totals.increment?) .empty

def targetRollup? (r : Report) : Option CategoryTally :=
  r.targets.foldlM (fun totals t => t.sortRules.counts.classify?.bind totals.increment?) .empty

/-- A report of so many rules and targets, in which nothing is counted more often than there is
reason to. -/
structure Bounded (r : Report) (rules targets : Nat) : Prop where
  ruleCount : r.rules.length = rules
  targetCount : r.targets.length = targets
  counters : ∀ x ∈ r.rules, ∀ o, x.totals.get o ≤ 2 * targets
  rows : ∀ t ∈ r.targets, t.results.length ≤ rules
  classes : ∀ t ∈ r.targets, sumOf t.rules.counts.toList ≤ rules
  ruleTotals : r.ruleTotals.total ≤ rules
  targetTotals : r.targetTotals.total ≤ targets

/-- A report for which every count is the same in words. -/
structure InWords (r : Report) : Prop where
  ruleGroups : ∀ x ∈ r.rules, x.totals.byCategory? = some x.displayCounts
  ruleClass : ∀ x ∈ r.rules, x.totals.classify? = some x.totals.classify
  targetGroups : ∀ t ∈ r.targets, t.rules.counts.byCategory? = some t.displayCounts
  targetClass : ∀ t ∈ r.targets, t.rules.counts.classify? = some t.rules.counts.classify
  ruleRollup : r.ruleRollup? = some r.ruleRollup
  targetRollup : r.targetRollup? = some r.targetRollup
  totals : r.ruleTotals.total? = some r.ruleTotals.total ∧
    r.targetTotals.total? = some r.targetTotals.total
  slices : r.ruleTotals.slices? = some r.ruleTotals.slices ∧
    r.targetTotals.slices? = some r.targetTotals.slices

/-- A report that some passes, or none, made of the report that a document was opened as. -/
def Reached (d : Document) (r : Report) : Prop :=
  ∃ s o, ∃ passes : List Pass, (ofDocument d s).result = .ok o ∧ r = o.run (passes.map .pass)

section
variable {d : Document} {s : Settings} {b : Benchmark} {rs : List RuleRecord}
  {ts : List TargetRecord} {m : ResultMatrix} {i : NameIndex} {r : Report} {rules targets : Nat}

/-- A report is opened within its bounds, whatever is declared in its document. -/
private theorem OpenedOn.bounded (h : OpenedOn d s b rs ts m i) :
    (opening b rs ts m i).Bounded d.ruleCount d.targetCount := by
  have hmade : (ResultMatrix.unevaluatedIn ts).length ≤ ts.length := by
    rw [ResultMatrix.length_unevaluatedIn]
    exact List.countP_le_length
  have htargets := h.opening_targets_map (f := fun _ => ()) (g := fun _ => ()) fun _ _ _ => rfl
  obtain rfl := h.parts
  constructor
  case ruleCount => rw [h.opening_rules, List.length_map]; rfl
  case targetCount =>
    have hl := congrArg List.length htargets
    rwa [List.length_map, List.length_map] at hl
  case counters =>
    intro x hx o
    rw [h.opening_rules] at hx
    obtain ⟨y, _, rfl⟩ := List.mem_map.mp hx
    exact Rule.totals_ofRecord_le y hmade o
  case rows =>
    intro t ht
    have hrow : t.results ∈ m.rows := h.opening_results ▸ List.mem_map_of_mem ht
    exact Nat.le_of_eq (TargetRecord.length_of_completes h.rows _ hrow)
  case classes =>
    intro t ht
    obtain ⟨u, _, rfl⟩ := List.mem_map.mp ht
    exact Nat.zero_le _
  case ruleTotals => exact Nat.zero_le _
  case targetTotals => exact Nat.zero_le _

private theorem sumOf_counts_sortRules (t : Target) :
    sumOf t.sortRules.counts.toList = t.results.length := by
  rw [← Tally.sumOf_ofOutcomes, ← t.counts_settle]
  rfl

private theorem sumOf_counts_sortTargets_le {x : Rule} (hx : x ∈ r.sortTargets) :
    sumOf x.targets.counts.toList ≤ r.targets.length := by
  obtain ⟨i, hi⟩ := List.mem_iff_getElem?.mp hx
  have hsettled : r.aggregateRules.rules[i]? = some x.settle := by
    show (r.sortTargets.map Rule.settle)[i]? = _
    rw [List.getElem?_map, hi]
    rfl
  rw [← show x.settle.totals = x.targets.counts from rfl, sumOf_totals_aggregateRules hsettled]
  exact List.countP_le_length

private theorem length_sortTargets (r : Report) : r.sortTargets.length = r.rules.length := by
  rw [sortTargets_eq, List.length_mapIdx]

/-- The pass over the rules counts each target at most once for each rule. -/
private theorem Bounded.aggregateRules (h : r.Bounded rules targets) :
    r.aggregateRules.Bounded rules targets := by
  have hlength : r.aggregateRules.rules.length = r.rules.length :=
    (List.length_map _).trans r.length_sortTargets
  have htotal : r.aggregateRules.ruleTotals.total = r.aggregateRules.rules.length :=
    total_aggregate_ruleTotals r
  refine { h with ruleCount := hlength.trans h.ruleCount, counters := ?_, ruleTotals := ?_ }
  · intro x hx o
    obtain ⟨y, hy, rfl⟩ := List.mem_map.mp hx
    have hsum := sumOf_counts_sortTargets_le hy
    have hget := le_sumOf (List.mem_map_of_mem (f := y.targets.counts.get) o.mem_all)
    have := h.targetCount
    exact (hget.trans hsum).trans (by omega)
  · rw [htotal, hlength, h.ruleCount]

private theorem Bounded.aggregateTargets (h : r.Bounded rules targets) :
    r.aggregateTargets.Bounded rules targets := by
  have hlength : r.aggregateTargets.targets.length = r.targets.length := List.length_map _
  have htotal : r.aggregateTargets.targetTotals.total = r.aggregateTargets.targets.length :=
    total_aggregate_targetTotals r
  refine { h with
    targetCount := hlength.trans h.targetCount, rows := ?_, classes := ?_, targetTotals := ?_ }
  · intro t ht
    obtain ⟨u, hu, rfl⟩ := List.mem_map.mp ht
    exact h.rows u hu
  · intro t ht
    obtain ⟨u, hu, rfl⟩ := List.mem_map.mp ht
    exact (Nat.le_of_eq (sumOf_counts_sortRules u)).trans (h.rows u hu)
  · rw [htotal, hlength, h.targetCount]

private theorem Bounded.apply (h : r.Bounded rules targets) : ∀ p : Pass,
    (p.apply r).Bounded rules targets
  | .both => h.aggregateRules.aggregateTargets
  | .rules => h.aggregateRules
  | .targets => h.aggregateTargets

private theorem Bounded.run (h : r.Bounded rules targets) (passes : List Pass) :
    (r.run (passes.map .pass)).Bounded rules targets := by
  induction passes generalizing r with
  | nil => exact h
  | cons p passes ih => exact ih (h.apply p)

private theorem Reached.bounded (h : Reached d r) : r.Bounded d.ruleCount d.targetCount := by
  obtain ⟨s, o, passes, ho, rfl⟩ := h
  obtain ⟨b, rs, ts, m, i, hopened, rfl⟩ := ofDocument_eq_ok.mp ho
  exact hopened.bounded.run passes

/-- Members that are classified in words are counted in words, as long as their number is one. -/
private theorem foldlM_classify? {α : Type} (tally : α → Tally) {xs : List α}
    (hsum : ∀ x ∈ xs, sumOf (tally x).toList ≤ counterMax) (hlength : xs.length ≤ counterMax) :
    xs.foldlM (fun totals x => (tally x).classify?.bind totals.increment?) CategoryTally.empty
      = some (xs.foldl (fun totals x => totals.increment (tally x).classify) .empty) := by
  refine foldlM_eq_some CategoryTally.total (n := counterMax) ?_ ?_ ?_
  · intro totals x
    rw [CategoryTally.total_increment]
    exact Nat.le_succ _
  · intro totals x hx hle
    rw [Tally.classify?_eq_some (hsum x hx)]
    exact CategoryTally.increment?_eq hle
  · rw [← CategoryTally.ofList_filterMap xs fun _ => rfl, CategoryTally.total_ofList]
    exact (List.length_filterMap_le ..).trans hlength

/-- Up to 59 bits for the number of rules and of targets leave room for all that is counted. -/
private theorem Bounded.inWords (h : r.Bounded rules targets) (hr : rules < 0x800000000000000)
    (ht : targets < 0x800000000000000) : r.InWords := by
  have hmax : 16 * 0x800000000000000 ≤ counterMax := by decide
  have hrules := h.ruleCount
  have htargets := h.targetCount
  have hruleTotals := h.ruleTotals
  have htargetTotals := h.targetTotals
  have hrule : ∀ x ∈ r.rules, sumOf x.totals.toList ≤ counterMax := fun x hx => by
    have := Tally.sumOf_le (h.counters x hx)
    omega
  have htarget : ∀ t ∈ r.targets, sumOf t.rules.counts.toList ≤ counterMax := fun t htm => by
    have := h.classes t htm
    omega
  constructor
  case ruleGroups => exact fun x hx => Tally.byCategory?_eq_some (hrule x hx)
  case ruleClass => exact fun x hx => Tally.classify?_eq_some (hrule x hx)
  case targetGroups => exact fun t htm => Tally.byCategory?_eq_some (htarget t htm)
  case targetClass => exact fun t htm => Tally.classify?_eq_some (htarget t htm)
  case ruleRollup =>
    refine foldlM_classify? (fun x : Rule => x.targets.counts) (fun x hx => ?_) ?_
    · have := sumOf_counts_sortTargets_le hx
      omega
    · rw [length_sortTargets]
      omega
  case targetRollup =>
    refine foldlM_classify? (fun t : Target => t.sortRules.counts) (fun t htm => ?_) ?_
    · have := h.rows t htm
      rw [sumOf_counts_sortRules]
      omega
    · omega
  case totals =>
    exact ⟨CategoryTally.total?_eq (by omega), CategoryTally.total?_eq (by omega)⟩
  case slices =>
    exact ⟨CategoryTally.slices?_eq (by omega), CategoryTally.slices?_eq (by omega)⟩

end

/-- Whatever a document declares and whichever passes were run, the counters of a rule are at most
twice the number of targets. With fewer than 60 bits for the numbers of rules and of targets nothing
that is counted for a report, or for a list of reports, goes past the words. -/
theorem reached_inWords :
    (∀ d r, Reached d r →
      (r.rules.length = d.ruleCount ∧ r.targets.length = d.targetCount) ∧
      (∀ x ∈ r.rules, ∀ o, x.totals.get o ≤ 2 * d.targetCount) ∧
      (d.ruleCount < 0x800000000000000 → d.targetCount < 0x800000000000000 → r.InWords)) ∧
    ∀ es : List Entry, (∀ e ∈ es, ∃ d, Reached d e.report) →
      sumOf (es.map fun e => e.report.rules.length) < 0x800000000000000 →
      sumOf (es.map fun e => e.report.targets.length) < 0x800000000000000 → Results.InWords es := by
  refine ⟨fun d r h => ⟨⟨h.bounded.ruleCount, h.bounded.targetCount⟩, h.bounded.counters,
    h.bounded.inWords⟩, fun es hes hr ht => ?_⟩
  have hmax : 2 * 0x800000000000000 ≤ counterMax := by decide
  have hrules : (Results.ruleTotals es).total ≤ sumOf (es.map fun e => e.report.rules.length) := by
    rw [Results.ruleTotals_eq, Results.total_sumTally]
    refine sumOf_map_mono fun e he => ?_
    obtain ⟨d, hd⟩ := hes e he
    exact hd.bounded.ruleCount ▸ hd.bounded.ruleTotals
  have htargets :
      (Results.targetTotals es).total ≤ sumOf (es.map fun e => e.report.targets.length) := by
    rw [Results.targetTotals_eq, Results.total_sumTally]
    refine sumOf_map_mono fun e he => ?_
    obtain ⟨d, hd⟩ := hes e he
    exact hd.bounded.targetCount ▸ hd.bounded.targetTotals
  exact Results.inWords_of_total_le (by omega)

/-- The declared counters are cut off at three, and the target that was not evaluated is added, so
before any pass a rule has a counter of four. -/
theorem reached_inWords_threeTargets :
    ∃ o, (ofDocument (threeTargets "web") .default).result = .ok o ∧
      o.rules.map (fun x => x.totals.toList) = [[3, 3, 1, 0, 0, 0, 0, 0], [0, 0, 1, 0, 0, 0, 0, 0]] ∧
      o.InWords ∧ (o.run ([.targets, .both].map .pass)).InWords ∧
      Results.InWords [⟨"a.json", o⟩, ⟨"b.json", o.run ([.targets, .both].map .pass)⟩] := by
  have ho : ∃ o, (ofDocument (threeTargets "web") .default).result = .ok o := ⟨_, rfl⟩
  obtain ⟨o, ho⟩ := ho
  have hreached : ∀ passes : List Pass, Reached (threeTargets "web") (o.run (passes.map .pass)) :=
    fun passes => ⟨_, o, passes, ho, rfl⟩
  refine ⟨o, ho, ?_, ((reached_inWords.1 _ _ (hreached [])).2.2 (by decide) (by decide)),
    ((reached_inWords.1 _ _ (hreached [.targets, .both])).2.2 (by decide) (by decide)),
    reached_inWords.2 _ ?_ ?_ ?_⟩
  · cases ho
    rfl
  · intro e he
    rcases List.mem_pair.mp he with rfl | rfl
    · exact ⟨_, hreached []⟩
    · exact ⟨_, hreached [.targets, .both]⟩
  · cases ho
    decide
  · cases ho
    decide

end Report
end Compliance
