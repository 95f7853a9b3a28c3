import Compliance.ResultMatrix
import Mathlib.Data.List.Forall2

/-! Which results can be completed, and what is said about the others. A row that is accepted is
what the target wrote, and a row that is refused is blamed on its first defect. -/
namespace Compliance

private theorem Outcome.exists_ordinal {n : Nat} (hn : 1 ≤ n) (hm : n ≤ 8) :
    ∃ o : Outcome, o.ordinal = n := by
  have h : ∀ i : Fin all.length, (all.get i).ordinal = i.val + 1 := by decide
  refine ⟨all.get ⟨n - 1, by simp only [all, List.length_cons, List.length_nil]; omega⟩, ?_⟩
  rw [h]
  exact Nat.sub_add_cancel hn

namespace Json

/-- A whole number that stands for an outcome. -/
def IsOrdinal (v : Json) : Prop := ∃ n, 1 ≤ n ∧ n ≤ 8 ∧ v = .ofNat n

/-- An outcome as documents write it. -/
def ofOutcome (o : Outcome) : Json := .ofNat o.ordinal

private theorem ofOutcome_isOrdinal (o : Outcome) : (ofOutcome o).IsOrdinal :=
  ⟨o.ordinal, by cases o <;> decide, by cases o <;> decide, rfl⟩

theorem outcome?_eq_some {v : Json} {o : Outcome} : v.outcome? = some o ↔ v = ofOutcome o := by
  constructor
  · intro h
    unfold outcome? at h
    split at h
    · rw [ofOutcome, Outcome.ofOrdinal?_eq_some h]
      rfl
    · cases h
  · rintro rfl
    exact o.ofOrdinal?_ordinal

private theorem isOrdinal_iff {v : Json} : v.IsOrdinal ↔ ∃ o, v = ofOutcome o := by
  constructor
  · rintro ⟨n, hn, hm, rfl⟩
    obtain ⟨o, ho⟩ := Outcome.exists_ordinal hn hm
    exact ⟨o, by rw [ofOutcome, ho]⟩
  · rintro ⟨o, rfl⟩
    exact ofOutcome_isOrdinal o

private theorem outcome?_eq_none {v : Json} : v.outcome? = none ↔ ¬ v.IsOrdinal := by
  rw [Option.eq_none_iff_forall_ne_some, isOrdinal_iff, not_exists]
  exact forall_congr' fun o => not_congr outcome?_eq_some

end Json

namespace TargetRecord

/-- The row that completes a target: its own results, or errors throughout when it has none. -/
inductive Completes (rules : List RuleRecord) (t : TargetRecord) : List Outcome → Prop where
  | evaluated {os : List Outcome} (given : t.results = some (os.map Json.ofOutcome))
      (fits : os.length = rules.length) : Completes rules t os
  | unevaluated (missing : t.results = none) :
      Completes rules t (List.replicate rules.length .error)

/-- The defect for which a target is refused: a wrong number of results, or else the first one
that is no ordinal. -/
inductive Refused (rules : List RuleRecord) (t : TargetRecord) : Fault → Prop where
  | length {vs : List Json} (given : t.results = some vs) (differs : vs.length ≠ rules.length) :
      Refused rules t (.wrongLength t.name rules.length vs.length)
  | value {vs : List Json} {i : Nat} {rule : RuleRecord} {v : Json} (given : t.results = some vs)
      (fits : vs.length = rules.length) (ruleAt : rules[i]? = some rule) (valueAt : vs[i]? = some v)
      (bad : ¬ v.IsOrdinal) (first : ∀ j < i, ∀ w, vs[j]? = some w → w.IsOrdinal) :
      Refused rules t (.malformedResult i rule.id t.name v)

/-- A target that has results, but too few, too many or one that is no ordinal. -/
def Defective (rules : List RuleRecord) (t : TargetRecord) : Prop :=
  ∃ vs, t.results = some vs ∧ (vs.length ≠ rules.length ∨ ∃ v ∈ vs, ¬ v.IsOrdinal)

theorem Refused.defective {rules : List RuleRecord} {t : TargetRecord} {e : Fault}
    (h : t.Refused rules e) : t.Defective rules := by
  cases h with
  | length given differs => exact ⟨_, given, .inl differs⟩
  | value given _ _ valueAt bad => exact ⟨_, given, .inr ⟨_, List.mem_of_getElem? valueAt, bad⟩⟩

private theorem Completes.not_defective {rules : List RuleRecord} {t : TargetRecord}
    {os : List Outcome} (h : t.Completes rules os) : ¬ t.Defective rules := by
  rintro ⟨vs, hv, hd⟩
  cases h with
  | unevaluated missing => cases missing.symm.trans hv
  | evaluated given fits =>
    obtain rfl := Option.some.inj (given.symm.trans hv)
    rcases hd with hd | ⟨v, hm, hbad⟩
    · exact hd (by rw [List.length_map, fits])
    · obtain ⟨o, _, rfl⟩ := List.mem_map.mp hm
      exact hbad (Json.ofOutcome_isOrdinal o)

/-- Of the targets with a defect, the first decides what is said. -/
def FirstRefused (rules : List RuleRecord) (ts : List TargetRecord) (e : Fault) : Prop :=
  ∃ before t after, ts = before ++ t :: after ∧ (∀ u ∈ before, ¬ u.Defective rules) ∧
    t.Refused rules e

private theorem FirstRefused.exists_defective {rules : List RuleRecord} {ts : List TargetRecord}
    {e : Fault} (h : FirstRefused rules ts e) : ∃ t ∈ ts, t.Defective rules := by
  obtain ⟨before, t, after, rfl, _, ht⟩ := h
  exact ⟨t, List.mem_append_right before List.mem_cons_self, ht.defective⟩

theorem Completes.length {rules : List RuleRecord} {t : TargetRecord} {os : List Outcome}
    (h : t.Completes rules os) : os.length = rules.length := by
  cases h with
  | evaluated _ fits => exact fits
  | unevaluated _ => exact List.length_replicate

theorem length_of_completes {rules : List RuleRecord} {ts : List TargetRecord}
    {rows : List (List Outcome)} (h : List.Forall₂ (Completes rules) ts rows) :
    ∀ os ∈ rows, os.length = rules.length := by
  induction h with
  | nil => simp
  | cons hos _ ih =>
    intro ps hp
    rcases List.mem_cons.mp hp with rfl | hp
    · exact hos.length
    · exact ih ps hp

end TargetRecord

namespace ResultMatrix

private theorem map_eq_ok {α β : Type} {x : Except Fault α} {f : α → β} {b : β} :
    x.map f = .ok b ↔ ∃ a, x = .ok a ∧ b = f a := by
  cases x <;> simp [Except.map, eq_comm]

private theorem map_eq_error {α β : Type} {x : Except Fault α} {f : α → β} {e : Fault} :
    x.map f = .error e ↔ x = .error e := by
  cases x <;> simp [Except.map]

private theorem cells_cons_ordinal (target : String) (i : Nat) (rule : RuleRecord)
    (rules : List RuleRecord) (o : Outcome) (vs : List Json) :
    cells target i (rule :: rules) (Json.ofOutcome o :: vs)
      = (cells target (i + 1) rules vs).map (o :: ·) := by
  rw [cells, Json.outcome?_eq_some.mpr rfl]

private theorem cells_cons_other {v : Json} (hv : ¬ v.IsOrdinal) (target : String) (i : Nat)
    (rule : RuleRecord) (rules : List RuleRecord) (vs : List Json) :
    cells target i (rule :: rules) (v :: vs) = .error (.malformedResult i rule.id target v) := by
  rw [cells, Json.outcome?_eq_none.mpr hv]

private theorem cells_eq_ok {target : String} {i : Nat} {rules : List RuleRecord}
    {vs : List Json} {os : List Outcome} (h : vs.length = rules.length) :
    cells target i rules vs = .ok os ↔ vs = os.map Json.ofOutcome := by
  induction rules generalizing i vs os with
  | nil =>
    obtain rfl := List.eq_nil_of_length_eq_zero h
    cases os <;> simp [cells]
  | cons rule rules ih =>
    obtain ⟨v, vs, rfl⟩ := List.exists_cons_of_length_eq_add_one h
    have hl : vs.length = rules.length := by simpa using h
    by_cases hv : v.IsOrdinal
    · obtain ⟨o, rfl⟩ := Json.isOrdinal_iff.mp hv
      rw [cells_cons_ordinal, map_eq_ok]
      constructor
      · rintro ⟨ps, hp, rfl⟩
        rw [List.map_cons, (ih hl).mp hp]
      · intro he
        obtain ⟨p, ps, rfl, hp, hps⟩ := List.map_eq_cons_iff.mp he.symm
        have ho : some p = some o := by
          rw [← Json.outcome?_eq_some.mpr hp.symm, Json.outcome?_eq_some.mpr rfl]
        exact ⟨ps, (ih hl).mpr hps.symm, by rw [Option.some.inj ho]⟩
    · rw [cells_cons_other hv]
      constructor
      · intro he
        cases he
      · intro he
        obtain ⟨p, ps, rfl, hp, hps⟩ := List.map_eq_cons_iff.mp he.symm
        exact absurd (hp ▸ Json.ofOutcome_isOrdinal p) hv

/-- The first value that is no ordinal, with its rule. -/
private def FirstDefect (target : String) (start : Nat) (rules : List RuleRecord)
    (vs : List Json) (e : Fault) : Prop :=
  ∃ i rule v, rules[i]? = some rule ∧ vs[i]? = some v ∧ ¬ v.IsOrdinal ∧
    (∀ j < i, ∀ w, vs[j]? = some w → w.IsOrdinal) ∧
    e = .malformedResult (start + i) rule.id target v

private theorem cells_eq_error {target : String} {start : Nat} {rules : List RuleRecord}
    {vs : List Json} {e : Fault} (h : vs.length = rules.length) :
    cells target start rules vs = .error e ↔ FirstDefect target start rules vs e := by
  induction rules generalizing start vs with
  | nil =>
    obtain rfl := List.eq_nil_of_length_eq_zero h
    simp [cells, FirstDefect]
  | cons rule rules ih =>
    obtain ⟨v, vs, rfl⟩ := List.exists_cons_of_length_eq_add_one h
    have hl : vs.length = rules.length := by simpa using h
    by_cases hv : v.IsOrdinal
    · obtain ⟨o, rfl⟩ := Json.isOrdinal_iff.mp hv
      rw [cells_cons_ordinal, map_eq_error, ih hl]
      constructor
      · rintro ⟨i, r, w, hr, hw, hbad, hfirst, rfl⟩
        refine ⟨i + 1, r, w, hr, hw, hbad, ?_, by rw [Nat.add_right_comm, Nat.add_assoc]⟩
        intro j hj u hu
        cases j with
        | zero => exact Option.some.inj hu ▸ hv
        | succ j => exact hfirst j (by omega) u hu
      · rintro ⟨i, r, w, hr, hw, hbad, hfirst, rfl⟩
        cases i with
        | zero => exact absurd (Option.some.inj hw ▸ hv) hbad
        | succ i =>
          refine ⟨i, r, w, hr, hw, hbad, ?_, by rw [Nat.add_right_comm, Nat.add_assoc]⟩
          intro j hj u hu
          exact hfirst (j + 1) (by omega) u hu
    · rw [cells_cons_other hv]
      constructor
      · intro he
        cases he
        exact ⟨0, rule, v, rfl, rfl, hv, by omega, rfl⟩
      · rintro ⟨i, r, w, hr, hw, hbad, hfirst, rfl⟩
        cases i with
        | zero =>
          cases hr
          cases hw
          rfl
        | succ i => exact absurd (hfirst 0 (by omega) v rfl) hv

/-- A target is completed to one row, and only by a row that completes it. -/
theorem completeRow_eq_ok {rules : List RuleRecord} {t : TargetRecord} {os : List Outcome} :
    (completeRow rules t).result = .ok os ↔ t.Completes rules os := by
  rw [completeRow]
  split
  next vs given =>
    rw [Traced.result_ofExcept, row]
    split
    next fits =>
      rw [cells_eq_ok fits]
      constructor
      · rintro rfl
        exact .evaluated given (by simpa using fits)
      · intro h
        cases h with
        | evaluated he _ => exact Option.some.inj (given.symm.trans he)
        | unevaluated hm => cases given.symm.trans hm
    next differs =>
      constructor
      · intro h
        cases h
      · intro h
        cases h with
        | evaluated he hl =>
          rw [Option.some.inj (given.symm.trans he), List.length_map] at differs
          exact absurd hl differs
        | unevaluated hm => cases given.symm.trans hm
  next missing =>
    rw [Traced.bind_eq_ok]
    constructor
    · rintro ⟨_, _, h⟩
      cases h
      exact .unevaluated missing
    · intro h
      cases h with
      | evaluated he _ => cases missing.symm.trans he
      | unevaluated _ => exact ⟨(), rfl, rfl⟩

/-- What is said of a target that cannot be completed. -/
theorem completeRow_eq_error {rules : List RuleRecord} {t : TargetRecord} {e : Fault} :
    (completeRow rules t).result = .error e ↔ t.Refused rules e := by
  rw [completeRow]
  split
  next vs given =>
    rw [Traced.result_ofExcept, row]
    split
    next fits =>
      rw [cells_eq_error fits]
      constructor
      · rintro ⟨i, rule, v, hr, hv, hbad, hfirst, rfl⟩
        rw [Nat.zero_add]
        exact .value given fits hr hv hbad hfirst
      · intro h
        cases h with
        | length he hd => exact absurd (Option.some.inj (given.symm.trans he) ▸ fits) hd
        | value he _ hr hv hbad hfirst =>
          obtain rfl := Option.some.inj (given.symm.trans he)
          exact ⟨_, _, _, hr, hv, hbad, hfirst, by rw [Nat.zero_add]⟩
    next differs =>
      constructor
      · intro h
        cases h
        exact .length given differs
      · intro h
        cases h with
        | length he _ =>
          obtain rfl := Option.some.inj (given.symm.trans he)
          rfl
        | value he hf => exact absurd (Option.some.inj (given.symm.trans he) ▸ hf) differs
  next missing =>
    rw [Traced.bind_eq_error]
    constructor
    · rintro (h | ⟨_, _, h⟩) <;> cases h
    · intro h
      cases h with
      | length he _ => cases missing.symm.trans he
      | value he => cases missing.symm.trans he

/-- What can be completed is what has no defect. -/
theorem exists_completes_iff {rules : List RuleRecord} {t : TargetRecord} :
    (∃ os, t.Completes rules os) ↔ ¬ t.Defective rules := by
  constructor
  · rintro ⟨os, h⟩
    exact h.not_defective
  · intro h
    cases hr : (completeRow rules t).result with
    | ok os => exact ⟨os, completeRow_eq_ok.mp hr⟩
    | error e => exact absurd (completeRow_eq_error.mp hr).defective h

private theorem rowsOf_eq_ok {rules : List RuleRecord} {ts : List TargetRecord}
    {rows : List (List Outcome)} :
    (rowsOf rules ts).result = .ok rows ↔ List.Forall₂ (TargetRecord.Completes rules) ts rows := by
  induction ts generalizing rows with
  | nil =>
    rw [List.forall₂_nil_left_iff, rowsOf, Traced.result_ok, Except.ok.injEq]
    exact eq_comm
  | cons t ts ih =>
    rw [rowsOf, List.forall₂_cons_left_iff]
    constructor
    · intro h
      obtain ⟨os, ho, h⟩ := Traced.bind_eq_ok.mp h
      obtain ⟨rest, hr, h⟩ := Traced.bind_eq_ok.mp h
      cases h
      exact ⟨os, rest, completeRow_eq_ok.mp ho, ih.mp hr, rfl⟩
    · rintro ⟨os, rest, ho, hr, rfl⟩
      exact Traced.bind_eq_ok.mpr ⟨os, completeRow_eq_ok.mpr ho,
        Traced.bind_eq_ok.mpr ⟨rest, ih.mpr hr, rfl⟩⟩

theorem rowsOf_eq_error {rules : List RuleRecord} {ts : List TargetRecord} {e : Fault} :
    (rowsOf rules ts).result = .error e ↔ TargetRecord.FirstRefused rules ts e := by
  induction ts with
  | nil => simp [rowsOf, TargetRecord.FirstRefused]
  | cons t ts ih =>
    rw [rowsOf]
    constructor
    · intro h
      rcases Traced.bind_eq_error.mp h with h | ⟨os, ho, h⟩
      · exact ⟨[], t, ts, rfl, by simp, completeRow_eq_error.mp h⟩
      · rcases Traced.bind_eq_error.mp h with h | ⟨_, _, h⟩
        · obtain ⟨before, u, after, rfl, hb, hu⟩ := ih.mp h
          refine ⟨t :: before, u, after, rfl, ?_, hu⟩
          intro w hw
          rcases List.mem_cons.mp hw with rfl | hw
          · exact (completeRow_eq_ok.mp ho).not_defective
          · exact hb w hw
        · cases h
    · rintro ⟨before, u, after, he, hb, hu⟩
      cases before with
      | nil =>
        obtain ⟨rfl, rfl⟩ := List.cons.inj he
        exact Traced.bind_eq_error.mpr (.inl (completeRow_eq_error.mpr hu))
      | cons w before =>
        obtain ⟨rfl, rfl⟩ := List.cons.inj he
        obtain ⟨os, ho⟩ := exists_completes_iff.mpr (hb t List.mem_cons_self)
        have hr := ih.mpr ⟨before, u, after, rfl, fun w hw => hb w (List.mem_cons_of_mem t hw), hu⟩
        exact Traced.bind_eq_error.mpr (.inr ⟨os, completeRow_eq_ok.mpr ho,
          Traced.bind_eq_error.mpr (.inl hr)⟩)

theorem ofRecords_eq_ok {rules : List RuleRecord} {ts : List TargetRecord} {m : ResultMatrix} :
    (ofRecords rules ts).result = .ok m ↔
      List.Forall₂ (TargetRecord.Completes rules) ts m.rows ∧
        m.deltas = List.replicate rules.length (.single .error (unevaluatedIn ts).length) ∧
        m.unevaluated = unevaluatedIn ts := by
  rw [ofRecords, Traced.bind_eq_ok]
  constructor
  · rintro ⟨rows, hr, h⟩
    cases h
    exact ⟨rowsOf_eq_ok.mp hr, rfl, rfl⟩
  · rintro ⟨hr, hd, hu⟩
    obtain ⟨rows, deltas, unevaluated⟩ := m
    obtain rfl : deltas = _ := hd
    obtain rfl : unevaluated = _ := hu
    exact ⟨rows, rowsOf_eq_ok.mpr hr, rfl⟩

theorem ofRecords_eq_error {rules : List RuleRecord} {ts : List TargetRecord} {e : Fault} :
    (ofRecords rules ts).result = .error e ↔ TargetRecord.FirstRefused rules ts e := by
  rw [ofRecords, Traced.bind_eq_error, rowsOf_eq_error]
  exact or_iff_left (by rintro ⟨_, _, h⟩; cases h)

/-- There is a matrix exactly when no target has a defect. -/
theorem exists_ofRecords_iff {rules : List RuleRecord} {ts : List TargetRecord} :
    (∃ m, (ofRecords rules ts).result = .ok m) ↔ ∀ t ∈ ts, ¬ t.Defective rules := by
  constructor
  · rintro ⟨m, hm⟩ t ht
    obtain ⟨i, hi⟩ := List.mem_iff_getElem?.mp ht
    have hrows := (ofRecords_eq_ok.mp hm).1
    obtain ⟨hlt, rfl⟩ := List.getElem?_eq_some_iff.mp hi
    exact (hrows.get hlt (hrows.length_eq ▸ hlt)).not_defective
  · intro h
    cases hr : (ofRecords rules ts).result with
    | ok m => exact ⟨m, rfl⟩
    | error e =>
      obtain ⟨t, ht, hd⟩ := (ofRecords_eq_error.mp hr).exists_defective
      exact absurd hd (h t ht)

end ResultMatrix
end Compliance
