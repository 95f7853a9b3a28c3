import Compliance.Proofs.NameResolution
import Compliance.Proofs.Normalization
import Compliance.Report.Build

/-! From a document to the report before the passes: its records in their order, each target with
the row that completes it, and the index of the names. -/
namespace Compliance

theorem Document.parts_eq_ok {d : Document} {b : Benchmark} {rules : List RuleRecord}
    {ts : List TargetRecord} :
    d.parts = .ok (b, rules, ts) ↔ d = ⟨some b, some rules, some ts⟩ := by
  obtain ⟨_ | b', _ | rules', _ | ts'⟩ := d <;> simp [parts]

namespace Report

/-- The report that is opened on the records of a document, a matrix and an index. -/
def opening (b : Benchmark) (rules : List RuleRecord) (ts : List TargetRecord) (m : ResultMatrix)
    (x : NameIndex) : Report where
  benchmark := b
  rules := (rules.zip m.deltas).map fun r => .ofRecord r.1 r.2 ts.length
  targets := (ts.zip m.rows).zipIdx.map fun t => .ofRecord t.1.1 t.1.2 (m.isUnevaluated t.2)
  ruleTotals := .empty
  targetTotals := .empty
  names := x

/-- What a report was opened on. -/
structure OpenedOn (d : Document) (s : Settings) (b : Benchmark) (rules : List RuleRecord)
    (ts : List TargetRecord) (m : ResultMatrix) (x : NameIndex) : Prop where
  parts : d = ⟨some b, some rules, some ts⟩
  matrix : (ResultMatrix.ofRecords rules ts).result = .ok m
  names : (NameIndex.build s.duplicateNames (ts.map (·.name))).result = .ok x

section
variable {d : Document} {s : Settings} {b : Benchmark} {rules : List RuleRecord}
  {ts : List TargetRecord} {m : ResultMatrix} {x : NameIndex}

theorem OpenedOn.rows (h : OpenedOn d s b rules ts m x) :
    List.Forall₂ (TargetRecord.Completes rules) ts m.rows :=
  (ResultMatrix.ofRecords_eq_ok.mp h.matrix).1

/-- Every rule is opened with the same delta, an error for each target without results. -/
theorem OpenedOn.opening_rules (h : OpenedOn d s b rules ts m x) :
    (opening b rules ts m x).rules = rules.map fun r =>
      .ofRecord r (.single .error (ResultMatrix.unevaluatedIn ts).length) ts.length := by
  rw [opening, (ResultMatrix.ofRecords_eq_ok.mp h.matrix).2.1, ← List.map_const',
    ← List.map_prod_left_eq_zip, List.map_map]
  rfl

/-- What a target takes from its record is opened in the order of the records. -/
theorem OpenedOn.opening_targets_map {α : Type} (h : OpenedOn d s b rules ts m x)
    {f : Target → α} {g : TargetRecord → α} (hf : ∀ t os u, f (.ofRecord t os u) = g t) :
    (opening b rules ts m x).targets.map f = ts.map g := by
  have hl : ts.length ≤ m.rows.length := Nat.le_of_eq h.rows.length_eq
  calc (opening b rules ts m x).targets.map f
      = (ts.zip m.rows).zipIdx.map fun t => g t.1.1 := by
        rw [opening, List.map_map]
        exact List.map_congr_left fun t _ => hf ..
    _ = ((ts.zip m.rows).zipIdx.map Prod.fst).map fun t => g t.1 := by rw [List.map_map]; rfl
    _ = ((ts.zip m.rows).map Prod.fst).map g := by rw [List.zipIdx_map_fst, List.map_map]; rfl
    _ = ts.map g := by rw [List.map_fst_zip hl]

/-- The rows of the matrix are the results of the targets. -/
theorem OpenedOn.opening_results (h : OpenedOn d s b rules ts m x) :
    (opening b rules ts m x).targets.map Target.results = m.rows := by
  have hl : m.rows.length ≤ ts.length := Nat.le_of_eq h.rows.length_eq.symm
  calc (opening b rules ts m x).targets.map Target.results
      = (ts.zip m.rows).zipIdx.map fun t => t.1.2 := by
        rw [opening, List.map_map]
        rfl
    _ = ((ts.zip m.rows).zipIdx.map Prod.fst).map Prod.snd := by rw [List.map_map]; rfl
    _ = m.rows := by rw [List.zipIdx_map_fst, List.map_snd_zip hl]

end

theorem ofDocument_eq_ok {d : Document} {s : Settings} {r : Report} :
    (ofDocument d s).result = .ok r ↔
      ∃ b rules ts m x, OpenedOn d s b rules ts m x ∧ r = opening b rules ts m x := by
  rw [ofDocument]
  constructor
  · intro h
    obtain ⟨⟨b, rules, ts⟩, hp, h⟩ := Traced.bind_eq_ok.mp h
    obtain ⟨m, hm, h⟩ := Traced.bind_eq_ok.mp h
    obtain ⟨x, hx, h⟩ := Traced.bind_eq_ok.mp h
    obtain ⟨_, _, h⟩ := Traced.bind_eq_ok.mp h
    cases h
    exact ⟨b, rules, ts, m, x, ⟨Document.parts_eq_ok.mp hp, hm, hx⟩, rfl⟩
  · rintro ⟨b, rules, ts, m, x, ⟨hp, hm, hx⟩, rfl⟩
    exact Traced.bind_eq_ok.mpr ⟨(b, rules, ts), Document.parts_eq_ok.mpr hp,
      Traced.bind_eq_ok.mpr ⟨m, hm, Traced.bind_eq_ok.mpr ⟨x, hx,
        Traced.bind_eq_ok.mpr ⟨(), rfl, rfl⟩⟩⟩⟩

/-- A document fails for its parts, else for its results, else for its names. -/
theorem ofDocument_eq_error {d : Document} {s : Settings} {e : Fault} :
    (ofDocument d s).result = .error e ↔
      d.parts = .error e ∨ ∃ b rules ts, d = ⟨some b, some rules, some ts⟩ ∧
        ((ResultMatrix.ofRecords rules ts).result = .error e ∨
          (∃ m, (ResultMatrix.ofRecords rules ts).result = .ok m) ∧
            (NameIndex.build s.duplicateNames (ts.map (·.name))).result = .error e) := by
  rw [ofDocument]
  constructor
  · intro h
    rcases Traced.bind_eq_error.mp h with h | ⟨⟨b, rules, ts⟩, hp, h⟩
    · exact .inl h
    refine .inr ⟨b, rules, ts, Document.parts_eq_ok.mp hp, ?_⟩
    rcases Traced.bind_eq_error.mp h with h | ⟨m, hm, h⟩
    · exact .inl h
    rcases Traced.bind_eq_error.mp h with h | ⟨x, _, h⟩
    · exact .inr ⟨⟨m, hm⟩, h⟩
    · rcases Traced.bind_eq_error.mp h with h | ⟨_, _, h⟩ <;> cases h
  · rintro (h | ⟨b, rules, ts, hp, h⟩)
    · exact Traced.bind_eq_error.mpr (.inl h)
    refine Traced.bind_eq_error.mpr (.inr ⟨_, Document.parts_eq_ok.mpr hp, ?_⟩)
    rcases h with h | ⟨⟨m, hm⟩, h⟩
    · exact Traced.bind_eq_error.mpr (.inl h)
    · exact Traced.bind_eq_error.mpr (.inr ⟨m, hm, Traced.bind_eq_error.mpr (.inl h)⟩)

/-- A report is built exactly by opening it and running both passes. -/
theorem build_eq_ok {d : Document} {s : Settings} {r : Report} :
    (build d s).result = .ok r ↔ ∃ o, (ofDocument d s).result = .ok o ∧ r = o.aggregate := by
  rw [build, Traced.bind_eq_ok]
  constructor
  · rintro ⟨o, ho, h⟩
    obtain ⟨_, _, h⟩ := Traced.bind_eq_ok.mp h
    cases h
    exact ⟨o, ho, rfl⟩
  · rintro ⟨o, ho, rfl⟩
    exact ⟨o, ho, Traced.bind_eq_ok.mpr ⟨(), rfl, rfl⟩⟩

/-- A finished report was opened on the parts of its document and put through both passes. -/
theorem build_opened {d : Document} {s : Settings} {r : Report}
    (h : (build d s).result = .ok r) :
    ∃ b rules ts m x, OpenedOn d s b rules ts m x ∧ r = (opening b rules ts m x).aggregate := by
  obtain ⟨o, ho, rfl⟩ := build_eq_ok.mp h
  obtain ⟨b, rules, ts, m, x, hp, rfl⟩ := ofDocument_eq_ok.mp ho
  exact ⟨b, rules, ts, m, x, hp, rfl⟩

theorem build_eq_error {d : Document} {s : Settings} {e : Fault} :
    (build d s).result = .error e ↔ (ofDocument d s).result = .error e := by
  rw [build, Traced.bind_eq_error]
  apply or_iff_left
  rintro ⟨o, _, h⟩
  rcases Traced.bind_eq_error.mp h with h | ⟨_, _, h⟩ <;> cases h

end Report
end Compliance
