import Compliance.Proofs.Normalization
import Mathlib.Data.List.Sort

/-! What completing a list of targets comes to. Rows, deltas, positions and log tell of the same
targets without results, and a target that is refused cuts the log after the warnings about those
before it. Completing all rows first and counting afterwards is the same as one loop that does both
for each target. -/
namespace Compliance.ResultMatrix

/-- The warnings about the targets without results, in the order of the targets. -/
def missing (rules : List RuleRecord) (ts : List TargetRecord) : List Event :=
  (ts.filter fun t => t.results.isNone).map fun t =>
    .missingResults t.name rules.length t.statusDetail

/-- A log that warns about the targets without results, in the order of the targets, and says of each
how many rules are errors for it and what its status is, if it has one. -/
structure Warns (rules : List RuleRecord) (ts : List TargetRecord) (log : List Event) : Prop where
  events : log = missing rules ts
  records : log.map (fun e => (e.level, e.message)) = (ts.filter fun t => t.results.isNone).map
    fun t => (.warn, "Target '" ++ t.name ++ "' has no rule results; recording ERROR for all "
      ++ toString rules.length ++ " rules" ++ (match t.statusDetail with
        | some detail => " (" ++ detail ++ ")"
        | none => ""))

private theorem warns_missing (rules : List RuleRecord) (ts : List TargetRecord) :
    Warns rules ts (missing rules ts) := ⟨rfl, List.map_map⟩

/-- A matrix in which every target is completed and the targets without results are accounted for. -/
structure Completed (rules : List RuleRecord) (ts : List TargetRecord) (m : ResultMatrix) :
    Prop where
  rows : List.Forall₂ (TargetRecord.Completes rules) ts m.rows
  increasing : m.unevaluated.Pairwise (· < ·)
  unevaluated : ∀ i, i ∈ m.unevaluated ↔ ∃ t, ts[i]? = some t ∧ t.results = none
  deltas : m.deltas.length = rules.length
  errors : ∀ d ∈ m.deltas, ∀ o,
    d.get o = if o = .error then ts.countP (fun t => t.results.isNone) else 0

theorem mem_unevaluatedIn {ts : List TargetRecord} {i : Nat} :
    i ∈ unevaluatedIn ts ↔ ∃ t, ts[i]? = some t ∧ t.results = none := by
  rw [unevaluatedIn, List.mem_map]
  constructor
  · rintro ⟨⟨t, j⟩, he, rfl⟩
    obtain ⟨he, hn⟩ := List.mem_filter.mp he
    exact ⟨t, List.mem_zipIdx_iff_getElem?.mp he, Option.isNone_iff_eq_none.mp hn⟩
  · rintro ⟨t, ht, hn⟩
    exact ⟨(t, i), List.mem_filter.mpr ⟨List.mem_zipIdx_iff_getElem?.mpr ht,
      Option.isNone_iff_eq_none.mpr hn⟩, rfl⟩

private theorem pairwise_unevaluatedIn (ts : List TargetRecord) :
    (unevaluatedIn ts).Pairwise (· < ·) := by
  have h : (ts.zipIdx.map (·.2)).Pairwise (· < ·) := by
    rw [List.zipIdx_map_snd]
    exact List.pairwise_lt_range'
  exact h.sublist (List.filter_sublist.map _)

theorem length_unevaluatedIn (ts : List TargetRecord) :
    (unevaluatedIn ts).length = ts.countP fun t => t.results.isNone := by
  rw [unevaluatedIn, List.length_map, ← List.countP_eq_length_filter]
  have h := List.countP_map (p := fun t : TargetRecord => t.results.isNone) (f := Prod.fst)
    (l := ts.zipIdx)
  rw [List.zipIdx_map_fst] at h
  exact h.symm

private theorem unevaluatedIn_concat (ts : List TargetRecord) (t : TargetRecord) :
    unevaluatedIn (ts ++ [t])
      = if t.results.isNone then unevaluatedIn ts ++ [ts.length] else unevaluatedIn ts := by
  rw [unevaluatedIn, List.zipIdx_append, List.filter_append, List.map_append]
  cases h : t.results <;> simp [unevaluatedIn, h]

/-- The counters and the positions of a completed matrix in closed form. -/
theorem completed_iff {rules : List RuleRecord} {ts : List TargetRecord} {m : ResultMatrix} :
    Completed rules ts m ↔ List.Forall₂ (TargetRecord.Completes rules) ts m.rows ∧
      m.deltas = List.replicate rules.length (.single .error (unevaluatedIn ts).length) ∧
      m.unevaluated = unevaluatedIn ts := by
  constructor
  · intro h
    refine ⟨h.rows, List.eq_replicate_iff.mpr ⟨h.deltas, fun d hd => ?_⟩, ?_⟩
    · refine PerOutcome.ext_get fun o => ?_
      rw [h.errors d hd, Tally.get_single, length_unevaluatedIn]
    · exact h.increasing.eq_of_mem_iff (pairwise_unevaluatedIn ts) fun i =>
        (h.unevaluated i).trans mem_unevaluatedIn.symm
  · rintro ⟨hrows, hdeltas, hunevaluated⟩
    refine ⟨hrows, ?_, fun i => ?_, ?_, fun d hd o => ?_⟩
    · rw [hunevaluated]
      exact pairwise_unevaluatedIn ts
    · rw [hunevaluated]
      exact mem_unevaluatedIn
    · rw [hdeltas, List.length_replicate]
    · rw [hdeltas] at hd
      rw [List.eq_of_mem_replicate hd, Tally.get_single, length_unevaluatedIn]

/-- A matrix is made exactly when it is the completed one. -/
theorem ofRecords_eq_ok_iff {rules : List RuleRecord} {ts : List TargetRecord} {m : ResultMatrix} :
    (ofRecords rules ts).result = .ok m ↔ Completed rules ts m :=
  ofRecords_eq_ok.trans completed_iff.symm

/-- Completing one target warns if it has no results, and else says nothing. -/
theorem events_completeRow (rules : List RuleRecord) (t : TargetRecord) :
    (completeRow rules t).events = missing rules [t] := by
  cases h : t.results with
  | none => simp [completeRow, missing, h, Traced.bind_of_ok]
  | some vs => simp [completeRow, missing, h]

private theorem missing_cons (rules : List RuleRecord) (t : TargetRecord) (ts : List TargetRecord) :
    missing rules (t :: ts) = missing rules [t] ++ missing rules ts := by
  rw [missing, missing, missing, ← List.map_append, ← List.filter_append, List.singleton_append]

/-- Targets without a defect are told about before all that follows. -/
theorem events_rowsOf_append {rules : List RuleRecord} {before after : List TargetRecord}
    (hb : ∀ t ∈ before, ¬ t.Defective rules) :
    (rowsOf rules (before ++ after)).events
      = missing rules before ++ (rowsOf rules after).events := by
  induction before with
  | nil => rfl
  | cons t before ih =>
    obtain ⟨os, hos⟩ := exists_completes_iff.mpr (hb t List.mem_cons_self)
    have hrest := ih fun u hu => hb u (List.mem_cons_of_mem t hu)
    have hevents : ∀ rs : List (List Outcome), (pure (os :: rs) : Traced _).events = [] :=
      fun _ => rfl
    rw [List.cons_append, rowsOf, Traced.bind_of_ok (completeRow_eq_ok.mpr hos), missing_cons,
      List.append_assoc, ← hrest, events_completeRow]
    cases hr : (rowsOf rules (before ++ after)).result with
    | ok rs => simp only [Traced.bind_of_ok hr, hevents, List.append_nil]
    | error e => simp only [Traced.bind_of_error hr]

theorem events_ofRecords (rules : List RuleRecord) (ts : List TargetRecord) :
    (ofRecords rules ts).events = (rowsOf rules ts).events := by
  rw [ofRecords]
  cases h : (rowsOf rules ts).result with
  | ok rows => rw [Traced.bind_of_ok h, Traced.events_pure, List.append_nil]
  | error e => rw [Traced.bind_of_error h]

/-- The target that is refused adds nothing to the log. -/
private theorem events_of_refused {rules : List RuleRecord} {before after : List TargetRecord}
    {t : TargetRecord} {e : Fault} (hb : ∀ u ∈ before, ¬ u.Defective rules)
    (ht : t.Refused rules e) :
    (ofRecords rules (before ++ t :: after)).events = missing rules before := by
  have hnone : missing rules [t] = [] := by
    obtain ⟨vs, hv, _⟩ := ht.defective
    simp [missing, hv]
  rw [events_ofRecords, events_rowsOf_append hb, rowsOf,
    Traced.bind_of_error (completeRow_eq_error.mpr ht), events_completeRow, hnone, List.append_nil]

/-- Targets are completed to one matrix, which accounts for every target without results in the rows,
the deltas, the positions and the log, or else the first target with a defect is refused and the log
ends before it. -/
theorem ofRecords_completes (rules : List RuleRecord) (ts : List TargetRecord) :
    (∀ m, (ofRecords rules ts).result = .ok m ↔ Completed rules ts m) ∧
    (∀ m, (ofRecords rules ts).result = .ok m →
      m.rows.length = ts.length ∧ (∀ os ∈ m.rows, os.length = rules.length) ∧
      (∀ i, m.isUnevaluated i = true ↔ ∃ t, ts[i]? = some t ∧ t.results = none) ∧
      Warns rules ts (ofRecords rules ts).events) ∧
    ∀ e, (ofRecords rules ts).result = .error e ↔
      ∃ before t after, ts = before ++ t :: after ∧ (∀ u ∈ before, ¬ u.Defective rules) ∧
        t.Refused rules e ∧ Warns rules before (ofRecords rules ts).events := by
  refine ⟨fun m => ofRecords_eq_ok_iff, ?_, ?_⟩
  · intro m hm
    have hc := ofRecords_eq_ok_iff.mp hm
    refine ⟨hc.rows.length_eq.symm, TargetRecord.length_of_completes hc.rows, ?_, ?_⟩
    · intro i
      rw [isUnevaluated, List.contains_iff_mem]
      exact hc.unevaluated i
    · have hs := exists_ofRecords_iff.mp ⟨m, hm⟩
      have hevents := calc (ofRecords rules ts).events
          = (rowsOf rules (ts ++ [])).events := by rw [events_ofRecords, List.append_nil]
        _ = missing rules ts ++ [] := events_rowsOf_append hs
        _ = missing rules ts := List.append_nil _
      rw [hevents]
      exact warns_missing rules ts
  · intro e
    rw [ofRecords_eq_error]
    constructor
    · rintro ⟨before, t, after, rfl, hb, ht⟩
      refine ⟨before, t, after, rfl, hb, ht, ?_⟩
      rw [events_of_refused hb ht]
      exact warns_missing rules before
    · rintro ⟨before, t, after, rfl, hb, ht, _⟩
      exact ⟨before, t, after, rfl, hb, ht⟩

/-- A matrix with one more target: its row, and where the target has no results, an error on the
counters of every rule and its position. -/
def add (m : ResultMatrix) (t : TargetRecord) (os : List Outcome) : ResultMatrix where
  rows := m.rows ++ [os]
  deltas := if t.results.isNone then m.deltas.map (·.increment .error) else m.deltas
  unevaluated := if t.results.isNone then m.unevaluated ++ [m.rows.length] else m.unevaluated

def addAll (rules : List RuleRecord) : List TargetRecord → ResultMatrix → Traced ResultMatrix
  | [], m => .ok m
  | t :: ts, m => do
    let os ← completeRow rules t
    addAll rules ts (m.add t os)

def blank (rules : List RuleRecord) : ResultMatrix := ⟨[], List.replicate rules.length .empty, []⟩

private theorem blank_completed (rules : List RuleRecord) : Completed rules [] (blank rules) := by
  refine completed_iff.mpr ⟨.nil, ?_, rfl⟩
  have h : Tally.single .error 0 = .empty := rfl
  rw [blank, ← h]
  rfl

/-- One more target keeps rows, counters and positions in step, as long as the counters can count. -/
private theorem Completed.add {rules : List RuleRecord} {ts : List TargetRecord} {m : ResultMatrix}
    (h : Completed rules ts m) {t : TargetRecord} {os : List Outcome} (ht : t.Completes rules os)
    (hc : (ts ++ [t]).countP (fun t => t.results.isNone) ≤ counterMax) :
    Completed rules (ts ++ [t]) (m.add t os) := by
  obtain ⟨hrows, hdeltas, hunevaluated⟩ := completed_iff.mp h
  refine completed_iff.mpr ⟨List.rel_append hrows (.cons ht .nil), ?_, ?_⟩
  · rw [← length_unevaluatedIn, unevaluatedIn_concat] at hc
    rw [ResultMatrix.add, unevaluatedIn_concat, hdeltas]
    split
    next hn =>
      rw [if_pos hn, List.length_append, List.length_singleton] at hc
      have hstep : (Tally.single .error (unevaluatedIn ts).length).increment .error
          = .single .error ((unevaluatedIn ts).length + 1) := by
        refine PerOutcome.ext_get fun o => ?_
        simp only [Tally.get_increment, Tally.get_single, capped]
        split <;> omega
      rw [List.map_replicate, List.length_append, List.length_singleton, hstep]
    next => rfl
  · rw [ResultMatrix.add, unevaluatedIn_concat, hunevaluated, ← hrows.length_eq]

/-- However many targets follow, the loop says what completing their rows says, stops where it stops,
and else ends with the matrix of all targets. -/
private theorem addAll_run {rules : List RuleRecord} {before ts : List TargetRecord}
    {m : ResultMatrix} (h : Completed rules before m)
    (hc : (before ++ ts).countP (fun t => t.results.isNone) ≤ counterMax) :
    (addAll rules ts m).events = (rowsOf rules ts).events ∧
    (∀ e, (addAll rules ts m).result = .error e → (rowsOf rules ts).result = .error e) ∧
    ∀ n, (addAll rules ts m).result = .ok n → Completed rules (before ++ ts) n := by
  -- On the targets that are left; `before` grows, and the matrix stays completed on it.
  induction ts generalizing before m with
  | nil =>
    refine ⟨rfl, fun _ he => ?_, fun n hn => ?_⟩
    · cases he
    · cases hn
      rwa [List.append_nil]
  | cons t ts ih =>
    rw [addAll, rowsOf]
    cases hr : (completeRow rules t).result with
    | error e =>
      rw [Traced.bind_of_error hr, Traced.bind_of_error hr]
      refine ⟨rfl, fun _ he => ?_, fun _ hn => ?_⟩
      · cases he
        rfl
      · cases hn
    | ok os =>
      rw [List.append_cons] at hc ⊢
      have hprefix : (before ++ [t]).countP (fun t => t.results.isNone) ≤ counterMax := by
        rw [List.countP_append] at hc
        omega
      obtain ⟨hevents, herror, hok⟩ := ih (h.add (completeRow_eq_ok.mp hr) hprefix) hc
      rw [Traced.bind_of_ok hr, Traced.bind_of_ok hr]
      refine ⟨?_, fun e he => ?_, hok⟩
      · rw [hevents]
        cases hrows : (rowsOf rules ts).result with
        | ok rows => rw [Traced.bind_of_ok hrows, Traced.events_pure, List.append_nil]
        | error e => rw [Traced.bind_of_error hrows]
      · rw [Traced.bind_of_error (herror e he)]

/-- The matrix, the log and the fault are those of one loop over the targets in which rows, counters
and positions grow together. -/
theorem addAll_blank {rules : List RuleRecord} {ts : List TargetRecord}
    (hc : ts.countP (fun t => t.results.isNone) ≤ counterMax) :
    addAll rules ts (blank rules) = ofRecords rules ts := by
  obtain ⟨hevents, herror, hok⟩ := addAll_run (blank_completed rules) hc
  have hresult : (addAll rules ts (blank rules)).result = (ofRecords rules ts).result := by
    cases hr : (addAll rules ts (blank rules)).result with
    | ok m => exact (ofRecords_eq_ok_iff.mpr (hok m hr)).symm
    | error e => exact (ofRecords_eq_error.mpr (rowsOf_eq_error.mp (herror e hr))).symm
  rw [← events_ofRecords] at hevents
  exact congrArg₂ Traced.mk hevents hresult

def twoRules : List RuleRecord := [⟨"a", "A", "", [], []⟩, ⟨"b", "B", "", [], []⟩]

/-- A target with results between two without. -/
def partlyEvaluated : List TargetRecord :=
  [⟨"down", some "timeout", none, none⟩, ⟨"host", none, none, some [.ofNat 1, .ofNat 8]⟩,
    ⟨"gone", none, none, none⟩]

/-- A target with a result that is no ordinal, and after it one more without results. -/
def defectiveEnd : List TargetRecord :=
  [⟨"odd", none, none, some [.ofNat 2, .ofNat 9]⟩, ⟨"late", none, none, none⟩]

theorem ofRecords_completes_partly :
    (∃ m, (ofRecords twoRules partlyEvaluated).result = .ok m ∧
      Completed twoRules partlyEvaluated m ∧ m.unevaluated = [0, 2] ∧
      m.rows = [[.error, .error], [.pass, .informational], [.error, .error]] ∧
      (ofRecords twoRules partlyEvaluated).events.map (fun e => (e.level, e.message))
        = [(.warn, "Target 'down' has no rule results; recording ERROR for all 2 rules (timeout)"),
          (.warn, "Target 'gone' has no rule results; recording ERROR for all 2 rules")]) ∧
    ∃ before t after, partlyEvaluated ++ defectiveEnd = before ++ t :: after ∧
      t.Refused twoRules (.malformedResult 1 "b" "odd" (.ofNat 9)) ∧
      Warns twoRules before (ofRecords twoRules (partlyEvaluated ++ defectiveEnd)).events := by
  obtain ⟨hok, hlog, _⟩ := ofRecords_completes twoRules partlyEvaluated
  obtain ⟨_, _, herror⟩ := ofRecords_completes twoRules (partlyEvaluated ++ defectiveEnd)
  obtain ⟨before, t, after, hts, _, ht, hwarns⟩ := (herror _).mp rfl
  have hrecords := (hlog _ rfl).2.2.2.records
  exact ⟨⟨_, rfl, (hok _).mp rfl, rfl, rfl, hrecords⟩, before, t, after, hts, ht, hwarns⟩

end Compliance.ResultMatrix
