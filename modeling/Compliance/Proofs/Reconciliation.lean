import Compliance.Proofs.ClosedForm
import Compliance.Proofs.RulePass
import Compliance.Proofs.Severity
import Compliance.Proofs.Stages

/-! What the log says about declared totals. A rule is warned about when its declaration is read, or
when its targets are counted, or both times, exactly when the declaration is not what the evaluated
targets wrote. Neither the clamp nor the errors of targets without results hide a difference or make
one up. -/
namespace Compliance

namespace Outcome

private theorem getElem?_all {i : Nat} {o : Outcome} : all[i]? = some o ↔ i = o.index := by
  constructor
  · intro h
    rcases i with _ | _ | _ | _ | _ | _ | _ | _ | i <;> cases h <;> rfl
  · rintro rfl
    cases o <;> rfl

/-- Values by outcome: each outcome comes with the value at its position, if there is one. -/
private theorem mem_zip_all {α : Type} {xs : List α} {o : Outcome} {a : α} :
    (o, a) ∈ all.zip xs ↔ xs[o.index]? = some a := by
  rw [List.mem_iff_getElem?]
  constructor
  · rintro ⟨i, hi⟩
    obtain ⟨ho, ha⟩ := List.getElem?_zip_eq_some.mp hi
    rwa [← getElem?_all.mp ho]
  · intro h
    exact ⟨o.index, List.getElem?_zip_eq_some.mpr ⟨getElem?_all.mpr rfl, h⟩⟩

end Outcome

/-- How often the targets with results wrote each outcome for the rule at a position. -/
def Tally.writtenAt (ts : List TargetRecord) (i : Nat) : Tally :=
  .ofFn fun o => ts.countP fun t => t.results.bind (·[i]?) = some (Json.ofOutcome o)

/-- The errors that targets without results add to every rule. -/
def Tally.missingErrors (ts : List TargetRecord) : Tally :=
  .single .error (ts.countP fun t => t.results.isNone)

/-- What is counted for the rule at a position once all targets are completed. -/
def Tally.completedAt (ts : List TargetRecord) (i : Nat) : Tally :=
  .zipWith (· + ·) (writtenAt ts i) (missingErrors ts)

namespace RuleRecord

/-- The declared totals, with zeros for those that are left out. -/
def padded (y : RuleRecord) : Tally := .ofFn fun o => y.declared[o.index]?.getD 0

def opened (y : RuleRecord) (ts : List TargetRecord) : Tally :=
  (y.declaredTally ts.length).add (.missingErrors ts)

/-- What is said when the targets of a rule are counted: nothing, if its counters were right. -/
def recountEvents (y : RuleRecord) (ts : List TargetRecord) (i : Nat) : List Event :=
  if Tally.completedAt ts i ≠ y.opened ts then
    [.totalsMismatch i y.id (y.opened ts) (.completedAt ts i)]
  else []

def warnings (y : RuleRecord) (ts : List TargetRecord) (i : Nat) : List Event :=
  y.declaredEvents ts.length ++ y.recountEvents ts i

private theorem get_opened (y : RuleRecord) (ts : List TargetRecord) (o : Outcome) :
    (y.opened ts).get o
      = capped (min (y.padded.get o) ts.length + (Tally.missingErrors ts).get o) := by
  rw [opened, Tally.get_add, declaredTally, PerOutcome.get_ofFn, padded, PerOutcome.get_ofFn]

/-- Reading a declaration is quiet when it has no more entries than there are outcomes, and none that
is larger than the number of targets. -/
private theorem declaredEvents_eq_nil_iff (y : RuleRecord) (targets : Nat) :
    y.declaredEvents targets = [] ↔ y.declared.length ≤ 8 ∧ ∀ o, y.padded.get o ≤ targets := by
  have hextra : (if 8 < y.declared.length then [Event.extraTotals y.id y.declared.length] else [])
      = [] ↔ y.declared.length ≤ 8 := by
    split <;> simp_all
  have hclamped : (∀ d ∈ Outcome.all.zip y.declared, ¬ targets < d.2) ↔
      ∀ o, y.padded.get o ≤ targets := by
    constructor
    · intro h o
      rw [padded, PerOutcome.get_ofFn]
      cases hd : y.declared[o.index]? with
      | none => exact Nat.zero_le targets
      | some n => exact Nat.le_of_not_lt (h (o, n) (Outcome.mem_zip_all.mpr hd))
    · rintro h ⟨o, n⟩ hd
      have ho := h o
      rw [padded, PerOutcome.get_ofFn, Outcome.mem_zip_all.mp hd] at ho
      exact Nat.not_lt_of_le ho
  rw [declaredEvents, List.append_eq_nil_iff, List.map_eq_nil_iff, List.filter_eq_nil_iff, hextra,
    ← hclamped]
  simp

private theorem level_of_mem_warnings {y : RuleRecord} {ts : List TargetRecord} {i : Nat}
    {e : Event} (h : e ∈ y.warnings ts i) : e.level = .warn := by
  rcases List.mem_append.mp h with h | h
  · rcases List.mem_append.mp h with h | h
    · split at h
      · rw [List.mem_singleton.mp h]
        rfl
      · cases h
    · obtain ⟨_, _, rfl⟩ := List.mem_map.mp h
      rfl
  · rw [recountEvents] at h
    split at h
    · rw [List.mem_singleton.mp h]
      rfl
    · cases h

/-- Whatever the evaluated targets wrote, as long as no counter is full: a rule is warned about exactly
when it does not declare that. -/
private theorem warnings_ne_nil_iff {y : RuleRecord} {ts : List TargetRecord} {i : Nat}
    (hfits : ∀ o, (Tally.completedAt ts i).get o ≤ ts.length) (hcount : ts.length < counterMax) :
    y.warnings ts i ≠ [] ↔ 8 < y.declared.length ∨ y.padded ≠ .writtenAt ts i := by
  have hadd : ∀ o, (Tally.completedAt ts i).get o
      = (Tally.writtenAt ts i).get o + (Tally.missingErrors ts).get o :=
    fun o => PerOutcome.get_zipWith ..
  have hrecount : y.recountEvents ts i = [] ↔ Tally.completedAt ts i = y.opened ts := by
    rw [recountEvents]
    split <;> simp_all
  have hquiet : y.warnings ts i = [] ↔
      y.declared.length ≤ 8 ∧ y.padded = .writtenAt ts i := by
    rw [warnings, List.append_eq_nil_iff, declaredEvents_eq_nil_iff, hrecount, and_assoc]
    refine and_congr_right fun _ => ⟨?_, ?_⟩
    · rintro ⟨hclamp, hsame⟩
      refine PerOutcome.ext_get fun o => ?_
      -- The counter that was counted is not full, so neither clamp nor cap took part in the other.
      have ho := congrArg (·.get o) hsame
      have := hfits o
      have := hclamp o
      simp only [hadd, get_opened, capped] at *
      omega
    · intro hsame
      refine ⟨fun o => ?_, PerOutcome.ext_get fun o => ?_⟩
      · have := hfits o
        rw [hadd] at this
        rw [hsame]
        omega
      · have := hfits o
        rw [get_opened, hsame, capped]
        rw [hadd] at this ⊢
        omega
  rw [ne_eq, hquiet, not_and_or, Nat.not_le]

end RuleRecord

/-- A target that can be completed has an outcome where it wrote it, and errors if it wrote none. -/
private theorem TargetRecord.getElem?_outcomes {rules : List RuleRecord} {t : TargetRecord}
    (h : ¬ t.Defective rules) {i : Nat} (hi : i < rules.length) {o : Outcome} :
    (t.outcomes rules.length)[i]? = some o ↔
      t.results.bind (·[i]?) = some (Json.ofOutcome o) ∨ t.results = none ∧ o = .error := by
  obtain ⟨os, ho⟩ := ResultMatrix.exists_completes_iff.mpr h
  rw [ho.outcomes_eq]
  cases ho with
  | evaluated given fits =>
    rw [given]
    simp only [Option.bind_some, List.getElem?_map, Option.map_eq_some_iff, reduceCtorEq, false_and,
      or_false]
    constructor
    · intro hp
      exact ⟨o, hp, rfl⟩
    · rintro ⟨p, hp, he⟩
      have hpo := (Json.outcome?_eq_some.mpr he.symm).symm.trans (Json.outcome?_eq_some.mpr rfl)
      rw [hp, Option.some.inj hpo]
  | unevaluated missing =>
    rw [missing, List.getElem?_replicate, if_pos hi]
    simp [eq_comm]

/-- The errors of the targets without results come on top of what the others wrote. -/
theorem Tally.get_completedAt {rules : List RuleRecord} {ts : List TargetRecord}
    (hs : ∀ t ∈ ts, ¬ t.Defective rules) {i : Nat} (hi : i < rules.length) (o : Outcome) :
    (completedAt ts i).get o
      = ts.countP fun t => (t.outcomes rules.length)[i]? = some o := by
  rw [completedAt, PerOutcome.get_zipWith, writtenAt, PerOutcome.get_ofFn, missingErrors,
    get_single]
  induction ts with
  | nil => simp
  | cons t ts ih =>
    have ht := TargetRecord.getElem?_outcomes (hs t List.mem_cons_self) hi (o := o)
    have hrest := ih fun u hu => hs u (List.mem_cons_of_mem t hu)
    simp only [List.countP_cons, ht] at hrest ⊢
    rw [← hrest]
    by_cases he : o = .error
    · cases hr : t.results with
      | none => simp [he]; omega
      | some vs => simp [he]; omega
    · simp [he]

namespace Report

private theorem zipIdx_mapIdx {α β : Type} (f : Nat → α → β) (xs : List α) :
    (xs.mapIdx f).zipIdx = xs.zipIdx.map fun e => (f e.2 e.1, e.2) := by
  apply List.ext_getElem?
  intro i
  simp [List.getElem?_zipIdx, Function.comp_def]

/-- A list of what is said about some members, put together from what is said about each. -/
private theorem flatMap_if {α β : Type} (p : α → Prop) [DecidablePred p] (f : α → β) (xs : List α) :
    xs.flatMap (fun x => if p x then [f x] else []) = (xs.filter fun x => p x).map f := by
  induction xs with
  | nil => rfl
  | cons x xs ih =>
    by_cases h : p x <;> simp [h, ih]

section
variable {d : Document} {s : Settings} {b : Benchmark} {rules : List RuleRecord}
  {ts : List TargetRecord} {m : ResultMatrix} {x : NameIndex}

private theorem OpenedOn.sound (h : OpenedOn d s b rules ts m x) : ∀ t ∈ ts, ¬ t.Defective rules :=
  ResultMatrix.exists_ofRecords_iff.mp ⟨m, h.matrix⟩

/-- The opened targets have at the position of a rule what their records are completed to. -/
private theorem OpenedOn.counts_column (h : OpenedOn d s b rules ts m x) {i : Nat}
    (hi : i < rules.length) :
    (Partition.sort ((opening b rules ts m x).column i)).counts = .completedAt ts i := by
  refine PerOutcome.ext_get fun o => ?_
  rw [Partition.counts_sort, column, columnOf_map_fst, outcomesAt, h.opening_targets,
    List.filterMap_map, Tally.get_ofOutcomes, List.count_filterMap, Tally.get_completedAt h.sound hi]
  refine List.countP_congr fun t _ => ?_
  simp [Target.ofRecord]

/-- The pass over the opened rules speaks about each of them in turn. -/
private theorem OpenedOn.ruleEvents_opening (h : OpenedOn d s b rules ts m x) :
    (opening b rules ts m x).ruleEvents
      = rules.zipIdx.flatMap (fun e => e.1.recountEvents ts e.2)
        ++ [.ruleRollup (opening b rules ts m x).aggregate.ruleTotals] := by
  have hopened : ∀ y : RuleRecord, (Rule.ofRecord y
      (.single .error (ResultMatrix.unevaluatedIn ts).length) ts.length).totals = y.opened ts := by
    intro y
    rw [ResultMatrix.length_unevaluatedIn]
    rfl
  have hsorted : (opening b rules ts m x).sortTargets.zipIdx = rules.zipIdx.map fun e =>
      ({ Rule.ofRecord e.1 (.single .error (ResultMatrix.unevaluatedIn ts).length) ts.length with
          targets := .sort ((opening b rules ts m x).column e.2) }, e.2) := by
    rw [sortTargets_eq, zipIdx_mapIdx, h.opening_rules, List.zipIdx_map, List.map_map]
    rfl
  rw [Report.ruleEvents, ← flatMap_if, hsorted, List.flatMap_map]
  congr 1
  refine List.flatMap_congr fun e he => ?_
  rw [RuleRecord.recountEvents, ← h.counts_column (List.snd_lt_of_mem_zipIdx he), ← hopened]
  rfl

/-- Opening tells of the targets without results, of names that are taken over, and of declarations
that cannot be right by themselves. -/
private theorem OpenedOn.events_ofDocument (h : OpenedOn d s b rules ts m x) :
    (ofDocument d s).events
    = ResultMatrix.missing rules ts
      ++ (NameIndex.build s.duplicateNames (ts.map (·.name))).events
      ++ rules.flatMap (fun y => y.declaredEvents ts.length) := by
  have hmissing : (ResultMatrix.ofRecords rules ts).events = ResultMatrix.missing rules ts :=
    calc (ResultMatrix.ofRecords rules ts).events
        = (ResultMatrix.rowsOf rules (ts ++ [])).events := by
          rw [ResultMatrix.events_ofRecords, List.append_nil]
      _ = ResultMatrix.missing rules ts ++ [] := ResultMatrix.events_rowsOf_append h.sound
      _ = ResultMatrix.missing rules ts := List.append_nil _
  have hparts : (Traced.ofExcept d.parts).result = .ok (b, rules, ts) :=
    Document.parts_eq_ok.mpr h.parts
  rw [ofDocument, Traced.bind_of_ok hparts]
  simp only [Traced.bind_of_ok h.matrix, Traced.bind_of_ok h.names, hmissing]
  simp [Traced.events_bind]

/-- The log of a build in full. -/
private theorem OpenedOn.events_build (h : OpenedOn d s b rules ts m x) : (build d s).events
    = ResultMatrix.missing rules ts
      ++ (NameIndex.build s.duplicateNames (ts.map (·.name))).events
      ++ rules.flatMap (fun y => y.declaredEvents ts.length)
      ++ rules.zipIdx.flatMap (fun e => e.1.recountEvents ts e.2)
      ++ [.ruleRollup (opening b rules ts m x).aggregate.ruleTotals,
        .targetRollup (opening b rules ts m x).aggregate.targetTotals] := by
  rw [build_ok s (ofDocument_eq_ok.mpr ⟨b, rules, ts, m, x, h, rfl⟩), h.events_ofDocument,
    h.ruleEvents_opening]
  simp only [List.append_assoc]
  rfl

end

private theorem recounted_self (xs : List Rule) : recounted xs xs = [] := by
  rw [recounted, List.map_eq_nil_iff, List.filter_eq_nil_iff]
  rintro ⟨⟨x, y⟩, i⟩ he
  obtain ⟨hx, hy⟩ := List.getElem?_zip_eq_some.mp (List.mem_zipIdx_iff_getElem?.mp he)
  obtain rfl : x = y := Option.some.inj (hx.symm.trans hy)
  simp

/-- Aggregating once more finds nothing to warn about. -/
private theorem aggregateEvents_aggregate (r : Report) : r.aggregate.aggregateEvents
    = [.ruleRollup r.aggregate.ruleTotals, .targetRollup r.aggregate.targetTotals] := by
  rw [aggregateEvents, ruleEvents_eq, aggregateRules_aggregate, recounted_self, targetEvents,
    aggregateTargets_aggregate]
  rfl

/-- Each rule is spoken about twice, and either time only to warn. It is warned about at least once
exactly when it declares more totals than there are outcomes or others than its evaluated targets
wrote, however many targets there are besides, and aggregating once more adds no warning. The bound is
no restriction, since no list in memory is as long as a counter can count. -/
theorem build_warns_misdeclared {d : Document} {s : Settings} {r : Report}
    (h : (build d s).result = .ok r) :
    ∃ rules ts, d.rules = some rules ∧ d.targets = some ts ∧
      (build d s).events = ResultMatrix.missing rules ts
        ++ (NameIndex.build s.duplicateNames (ts.map (·.name))).events
        ++ rules.flatMap (fun y => y.declaredEvents ts.length)
        ++ rules.zipIdx.flatMap (fun e => e.1.recountEvents ts e.2)
        ++ [.ruleRollup r.ruleTotals, .targetRollup r.targetTotals] ∧
      (∀ (i : Nat) (y : RuleRecord), rules[i]? = some y →
        (∀ e ∈ y.warnings ts i, e.level = .warn) ∧
        (ts.length < counterMax → (y.warnings ts i ≠ [] ↔
          8 < y.declared.length ∨ y.padded ≠ .writtenAt ts i))) ∧
      r.aggregateEvents = [.ruleRollup r.ruleTotals, .targetRollup r.targetTotals] := by
  obtain ⟨b, rules, ts, m, x, ho, rfl⟩ := build_opened h
  have hlog := ho.events_build
  obtain rfl := ho.parts
  refine ⟨rules, ts, rfl, rfl, hlog, fun i y hy => ?_, aggregateEvents_aggregate _⟩
  refine ⟨fun e he => RuleRecord.level_of_mem_warnings he, RuleRecord.warnings_ne_nil_iff ?_⟩
  intro o
  rw [Tally.get_completedAt ho.sound (List.getElem?_eq_some_iff.mp hy).1]
  exact List.countP_le_length

/-- Two evaluated targets and one without results. The first rule declares what the two wrote, the
second more than there are targets, and the third one total too many. -/
def partlyDeclared : Document where
  benchmark := some .empty
  rules := some [⟨"a", "A", "", [], [1, 1]⟩, ⟨"b", "B", "", [], [5]⟩,
    ⟨"c", "C", "", [], [2, 0, 0, 0, 0, 0, 0, 0, 0]⟩]
  targets := some [⟨"host", none, none, some [.ofNat 1, .ofNat 1, .ofNat 1]⟩,
    ⟨"web", none, none, some [.ofNat 2, .ofNat 1, .ofNat 1]⟩, ⟨"down", none, none, none⟩]

theorem build_warns_misdeclared_partly :
    ∃ r rules ts, (build partlyDeclared .default).result = .ok r ∧
      partlyDeclared.rules = some rules ∧ partlyDeclared.targets = some ts ∧
      (∀ y, rules[0]? = some y → y.warnings ts 0 = []) ∧
      (∀ y, rules[1]? = some y → y.warnings ts 1 = [.clampedTotal "b" 5 .pass 3,
        .totalsMismatch 1 "b" ⟨3, 0, 1, 0, 0, 0, 0, 0⟩ ⟨2, 0, 1, 0, 0, 0, 0, 0⟩]) ∧
      (∀ y, rules[2]? = some y → y.warnings ts 2 ≠ []) ∧
      (build partlyDeclared .default).events = [.missingResults "down" 3 none,
        .clampedTotal "b" 5 .pass 3, .extraTotals "c" 9,
        .totalsMismatch 1 "b" ⟨3, 0, 1, 0, 0, 0, 0, 0⟩ ⟨2, 0, 1, 0, 0, 0, 0, 0⟩,
        .ruleRollup r.ruleTotals, .targetRollup r.targetTotals] := by
  have hb : ∃ r, (build partlyDeclared .default).result = .ok r := ⟨_, rfl⟩
  obtain ⟨r, h⟩ := hb
  obtain ⟨rules, ts, hr, ht, hlog, hwarn, _⟩ := build_warns_misdeclared h
  obtain rfl := Option.some.inj hr
  obtain rfl := Option.some.inj ht
  refine ⟨r, _, _, h, rfl, rfl, ?_, ?_, ?_, hlog⟩
  · intro y hy
    by_contra hne
    rcases ((hwarn 0 y hy).2 (by decide)).mp hne with hd | hd
    all_goals
      obtain rfl := Option.some.inj hy
      revert hd
      decide
  · intro y hy
    obtain rfl := Option.some.inj hy
    decide
  · intro y hy
    refine ((hwarn 2 y hy).2 (by decide)).mpr (.inl ?_)
    obtain rfl := Option.some.inj hy
    decide

end Report
end Compliance
