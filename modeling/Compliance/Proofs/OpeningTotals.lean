import Compliance.Proofs.Completion
import Compliance.Proofs.Opening
import Compliance.Proofs.Saturation

/-! The counters that rules are opened with. Opening a rule adds the delta at its position to what it
declares; the deltas may as well be added to all rules at once. Either way an error is added for each
target without results, and nothing else changes. -/
namespace Compliance

namespace RuleRecord

/-- The declared totals as one counter for each outcome: what is past them is dropped, zeros stand for
what is left out, and none is larger than the number of targets. -/
def fitted (y : RuleRecord) (targets : Nat) : List Nat :=
  ((y.declared.take 8).rightpad 8 0).map (min · targets)

private theorem rightpad_take {α : Type} (xs : List α) (n : Nat) (a : α) :
    (xs.take n).rightpad n a = (List.range n).map fun i => xs[i]?.getD a := by
  refine List.ext_getElem (by simp) fun i hi _ => ?_
  have hin : i < n := by simpa using hi
  rw [List.getElem_map, List.getElem_range]
  rcases Nat.lt_or_ge i xs.length with h | h
  · simp [List.rightpad, h, hin]
  · simp [List.rightpad, List.getElem_append, Nat.not_lt.mpr h]

private theorem toList_declaredTally (y : RuleRecord) (targets : Nat) :
    (y.declaredTally targets).toList = y.fitted targets := by
  rw [fitted, rightpad_take, List.map_map]
  rfl

end RuleRecord

namespace ResultMatrix
variable {rules : List RuleRecord} {ts : List TargetRecord} {m : ResultMatrix}

/-- Counters of some rules with the errors of targets without results. Counters past the rules, and
counters of other outcomes, are as they were. -/
structure ErrorsAdded (rules missing : Nat) (before after : List Tally) : Prop where
  length : after.length = before.length
  beyond : ∀ i, rules ≤ i → after[i]? = before[i]?
  within : ∀ i t, i < rules → before[i]? = some t → ∃ u, after[i]? = some u ∧
    ∀ o, u.get o = if o = .error then capped (t.get o + missing) else t.get o

private theorem length_addEach (ts ds : List Tally) : (addEach ts ds).length = ts.length := by
  induction ts, ds using addEach.induct with
  | case1 t ts d ds ih => rw [addEach, List.length_cons, ih, List.length_cons]
  | case2 ts => simp [addEach]
  | case3 d ds => rfl

private theorem getElem?_deltas (h : (ofRecords rules ts).result = .ok m) {i : Nat}
    (hi : i < rules.length) :
    m.deltas[i]? = some (.single .error (ts.countP fun t => t.results.isNone)) := by
  rw [(ofRecords_eq_ok.mp h).2.1, List.getElem?_replicate, if_pos hi, length_unevaluatedIn]

/-- The deltas add errors to the rules that there are. -/
private theorem applyDeltas_errorsAdded (h : (ofRecords rules ts).result = .ok m)
    {totals : List Tally} (hw : ∀ t ∈ totals, t.Words) :
    ErrorsAdded rules.length (ts.countP fun t => t.results.isNone) totals (m.applyDeltas totals) where
  length := length_addEach ..
  beyond i hi := by
    have hnone : m.deltas[i]? = none := by
      rw [(ofRecords_eq_ok.mp h).2.1]
      exact List.getElem?_eq_none (List.length_replicate ▸ hi)
    rw [applyDeltas, getElem?_addEach, hnone]
    exact Option.map_id'
  within i t hi ht := by
    rw [applyDeltas, getElem?_addEach, ht, getElem?_deltas h hi]
    refine ⟨_, rfl, fun o => ?_⟩
    have ho := hw t (List.mem_of_getElem? ht) o
    show (t.add _).get o = _
    rw [Tally.get_add, Tally.get_single]
    split
    · rfl
    · exact capped_of_le ho

end ResultMatrix

namespace Report

section
variable {d : Document} {s : Settings} {b : Benchmark} {rules : List RuleRecord}
  {ts : List TargetRecord} {m : ResultMatrix} {x : NameIndex}

/-- Each rule takes the delta at its position. -/
private theorem OpenedOn.totals_opening (h : OpenedOn d s b rules ts m x) :
    (opening b rules ts m x).rules.map Rule.totals = rules.mapIdx fun i y =>
      (m.deltas[i]?.map (y.declaredTally ts.length).add).getD (y.declaredTally ts.length) := by
  refine List.ext_getElem? fun i => ?_
  rw [h.opening_rules, List.map_map, List.getElem?_map, List.getElem?_mapIdx,
    ResultMatrix.length_unevaluatedIn]
  cases hy : rules[i]? with
  | none => rfl
  | some y =>
    have hi : i < rules.length := (List.getElem?_eq_some_iff.mp hy).1
    rw [ResultMatrix.getElem?_deltas h.matrix hi]
    rfl

/-- Adding the deltas rule by rule, or to all rules at once, comes to the same. -/
private theorem OpenedOn.totals_eq_applyDeltas (h : OpenedOn d s b rules ts m x) :
    (opening b rules ts m x).rules.map Rule.totals
      = m.applyDeltas (rules.map fun y => y.declaredTally ts.length) := by
  rw [h.totals_opening]
  refine List.ext_getElem? fun i => ?_
  rw [ResultMatrix.applyDeltas, ResultMatrix.getElem?_addEach, List.getElem?_mapIdx,
    List.getElem?_map, Option.map_map]
  rfl

/-- A rule is opened with what it declares, as far as there are targets for it, and with an error for each
target without results. Only more targets than a word can count could be too many for a counter. -/
private theorem OpenedOn.get_totals (h : OpenedOn d s b rules ts m x) {i : Nat} {y : RuleRecord}
    {z : Rule}
    (hy : rules[i]? = some y) (hz : (opening b rules ts m x).rules[i]? = some z) (o : Outcome) :
    z.totals.get o = capped (min (y.declared[o.index]?.getD 0) ts.length
      + if o = .error then ts.countP (fun t => t.results.isNone) else 0) := by
  rw [h.opening_rules, List.getElem?_map, hy] at hz
  obtain rfl := Option.some.inj hz
  have hdeclared : (y.declaredTally ts.length).get o
      = min (y.declared[o.index]?.getD 0) ts.length := PerOutcome.get_ofFn ..
  show ((y.declaredTally ts.length).add _).get o = _
  rw [Tally.get_add, hdeclared, Tally.get_single, ResultMatrix.length_unevaluatedIn]

end

/-- The rules of a report are opened with the counters that the deltas of its matrix give when they are
applied to the fitted declarations. These are the declared numbers, none larger than the number of
targets, with an error for each target without results. Applied to any other counters the deltas
change nothing but the errors of as many counters as there are rules. -/
theorem ofDocument_applies_deltas :
    (∀ (d : Document) (s : Settings) (r : Report), (ofDocument d s).result = .ok r →
      ∃ b rules ts m declared, d = ⟨some b, some rules, some ts⟩ ∧
        (ResultMatrix.ofRecords rules ts).result = .ok m ∧
        rules.map (fun y => PerOutcome.ofList? (y.fitted ts.length)) = declared.map some ∧
        r.rules.map Rule.totals = m.applyDeltas declared ∧
        ∀ (i : Nat) (y : RuleRecord) (z : Rule), rules[i]? = some y → r.rules[i]? = some z → ∀ o,
          z.totals.get o = capped (min (y.declared[o.index]?.getD 0) ts.length
            + if o = .error then ts.countP (fun t => t.results.isNone) else 0) ∧
          (2 * ts.length ≤ counterMax →
            z.totals.get o = min (y.declared[o.index]?.getD 0) ts.length
              + if o = .error then ts.countP (fun t => t.results.isNone) else 0)) ∧
    ∀ rules ts m, (ResultMatrix.ofRecords rules ts).result = .ok m →
      ∀ totals : List Tally, (∀ t ∈ totals, t.Words) →
        ResultMatrix.ErrorsAdded rules.length (ts.countP fun t => t.results.isNone) totals
          (m.applyDeltas totals) := by
  refine ⟨fun d s r hr => ?_, fun rules ts m hm totals => ResultMatrix.applyDeltas_errorsAdded hm⟩
  obtain ⟨b, rules, ts, m, x, h, rfl⟩ := ofDocument_eq_ok.mp hr
  refine ⟨b, rules, ts, m, rules.map fun y => y.declaredTally ts.length, h.parts, h.matrix, ?_,
    h.totals_eq_applyDeltas, fun i y z hy hz o => ?_⟩
  · rw [List.map_map]
    refine List.map_congr_left fun y _ => ?_
    rw [← y.toList_declaredTally, PerOutcome.ofList?_toList]
    rfl
  · have hget := h.get_totals hy hz o
    refine ⟨hget, fun hroom => hget.trans (capped_of_le ?_)⟩
    have hmissing := List.countP_le_length (p := fun t : TargetRecord => t.results.isNone) (l := ts)
    split <;> omega

/-- Rules with a declaration that is too long and too large, and with one that is too short. -/
def declaredOddly : List RuleRecord :=
  [⟨"a", "A", "", [], [7, 0, counterMax, 1, 0, 0, 0, 0, 5]⟩, ⟨"b", "B", "", [], [1]⟩]

def mostlyMissing : List TargetRecord :=
  [⟨"down", none, none, none⟩, ⟨"host", none, none, some [.ofNat 1, .ofNat 2]⟩,
    ⟨"gone", none, none, none⟩]

/-- The second list of counters is longer than the list of the rules, and one of its counters is full. -/
theorem ofDocument_applies_deltas_oddly :
    (∃ r, (ofDocument ⟨some .empty, some declaredOddly, some mostlyMissing⟩ .default).result = .ok r ∧
      r.rules.map (fun z => z.totals.toList) = [[3, 0, 5, 1, 0, 0, 0, 0], [1, 0, 2, 0, 0, 0, 0, 0]] ∧
      ∃ y z, declaredOddly[0]? = some y ∧ r.rules[0]? = some z ∧
        z.totals.get .error = min (y.declared[Outcome.error.index]?.getD 0) 3 + 2) ∧
    ∃ m, (ResultMatrix.ofRecords declaredOddly mostlyMissing).result = .ok m ∧
      ResultMatrix.ErrorsAdded 2 2
        [.single .error counterMax, .single .pass 1, .single .fail 1]
        (m.applyDeltas [.single .error counterMax, .single .pass 1, .single .fail 1]) := by
  constructor
  · have hr : ∃ r, (ofDocument ⟨some .empty, some declaredOddly, some mostlyMissing⟩ .default).result
        = .ok r := ⟨_, rfl⟩
    obtain ⟨r, hr⟩ := hr
    obtain ⟨b, rules, ts, m, declared, hd, _, _, _, hget⟩ := ofDocument_applies_deltas.1 _ _ _ hr
    cases hd
    have hz : ∃ z, r.rules[0]? = some z := by
      cases hr
      exact ⟨_, rfl⟩
    obtain ⟨z, hz⟩ := hz
    refine ⟨r, hr, ?_, _, z, rfl, hz, (hget 0 _ z rfl hz .error).2 (by decide)⟩
    cases hr
    rfl
  · have hm : ∃ m, (ResultMatrix.ofRecords declaredOddly mostlyMissing).result = .ok m := ⟨_, rfl⟩
    obtain ⟨m, hm⟩ := hm
    refine ⟨m, hm, ofDocument_applies_deltas.2 declaredOddly mostlyMissing m hm _ ?_⟩
    simp only [List.forall_mem_cons]
    refine ⟨fun o => ?_, fun o => ?_, fun o => ?_, nofun⟩
    all_goals cases o <;> decide

end Report
end Compliance
