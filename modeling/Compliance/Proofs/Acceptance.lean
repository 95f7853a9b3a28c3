import Compliance.Proofs.Opening

/-! Which documents become a report, and what is said of the others. A document is refused for its
first missing part, else for its first defective target, else, under the strict policy, for its
first repeated name. -/
namespace Compliance

namespace TargetRecord

/-- What can be held against a target. -/
def evaluation (t : TargetRecord) : String × Option (List Json) := (t.name, t.results)

private theorem Refused.congr {rules rules' : List RuleRecord} {t t' : TargetRecord} {f : Fault}
    (hr : rules.map RuleRecord.id = rules'.map RuleRecord.id) (ht : t.evaluation = t'.evaluation)
    (h : t.Refused rules f) : t'.Refused rules' f := by
  have hl : rules.length = rules'.length := by simpa using congrArg List.length hr
  obtain ⟨hname, hresults⟩ := Prod.mk.inj ht
  cases h with
  | length given differs =>
    rw [hname, hl]
    exact .length (hresults ▸ given) (hl ▸ differs)
  | @value vs i rule v given fits ruleAt valueAt bad first =>
    have hid : (rules'.map RuleRecord.id)[i]? = some rule.id := by
      rw [← hr, List.getElem?_map, ruleAt]
      rfl
    rw [List.getElem?_map] at hid
    obtain ⟨rule', hrule', hid⟩ := Option.map_eq_some_iff.mp hid
    rw [hname, ← hid]
    exact .value (hresults ▸ given) (hl ▸ fits) hrule' valueAt bad first

private theorem Defective.congr {rules rules' : List RuleRecord} {t t' : TargetRecord}
    (hr : rules.map RuleRecord.id = rules'.map RuleRecord.id) (ht : t.evaluation = t'.evaluation)
    (h : t.Defective rules) : t'.Defective rules' := by
  have hl : rules.length = rules'.length := by simpa using congrArg List.length hr
  obtain ⟨vs, hv, hd⟩ := h
  exact ⟨vs, (Prod.mk.inj ht).2 ▸ hv, hl ▸ hd⟩

private theorem defective_of_mem {rules rules' : List RuleRecord} {ts ts' : List TargetRecord}
    (hr : rules.map RuleRecord.id = rules'.map RuleRecord.id)
    (ht : ts.map evaluation = ts'.map evaluation) (h : ∀ t ∈ ts, ¬ t.Defective rules) :
    ∀ t ∈ ts', ¬ t.Defective rules' := by
  intro t' ht' hd
  have hm : t'.evaluation ∈ ts.map evaluation := ht ▸ List.mem_map_of_mem ht'
  obtain ⟨t, hmem, he⟩ := List.mem_map.mp hm
  exact h t hmem (hd.congr hr.symm he.symm)

private theorem FirstRefused.congr {rules rules' : List RuleRecord} {ts ts' : List TargetRecord}
    {f : Fault} (hr : rules.map RuleRecord.id = rules'.map RuleRecord.id)
    (ht : ts.map evaluation = ts'.map evaluation) (h : FirstRefused rules ts f) :
    FirstRefused rules' ts' f := by
  obtain ⟨before, t, after, rfl, hb, hf⟩ := h
  rw [List.map_append, List.map_cons] at ht
  obtain ⟨before', rest', rfl, hbefore, hrest⟩ := List.map_eq_append_iff.mp ht.symm
  obtain ⟨t', after', rfl, hte, _⟩ := List.map_eq_cons_iff.mp hrest
  exact ⟨before', t', after', rfl, defective_of_mem hr hbefore.symm hb, hf.congr hr hte.symm⟩

end TargetRecord

namespace Document

/-- Why a document is refused under a policy. -/
inductive Rejected (d : Document) (policy : DuplicateNames) : Fault → Prop where
  | noBenchmark (absent : d.benchmark = none) : Rejected d policy (.missingPart .benchmark)
  | noRules (present : d.benchmark ≠ none) (absent : d.rules = none) :
      Rejected d policy (.missingPart .rules)
  | noTargets (present : d.benchmark ≠ none) (rules : d.rules ≠ none) (absent : d.targets = none) :
      Rejected d policy (.missingPart .targets)
  | results {b : Benchmark} {rules : List RuleRecord} {ts : List TargetRecord} {f : Fault}
      (parts : d = ⟨some b, some rules, some ts⟩)
      (refused : TargetRecord.FirstRefused rules ts f) : Rejected d policy f
  | names {b : Benchmark} {rules : List RuleRecord} {ts : List TargetRecord} {name : String}
      {first second : Nat} (parts : d = ⟨some b, some rules, some ts⟩)
      (sound : ∀ t ∈ ts, ¬ t.Defective rules) (strict : policy = .reject)
      (repeats : NameIndex.Repeats (ts.map TargetRecord.name) name first second) :
      Rejected d policy (.duplicateName name first second)

/-- What a document has to be to be accepted under a policy. -/
def Accepted (d : Document) (policy : DuplicateNames) : Prop :=
  ∃ b rules ts, d = ⟨some b, some rules, some ts⟩ ∧ (∀ t ∈ ts, ¬ t.Defective rules) ∧
    (policy = .reject → (ts.map TargetRecord.name).Nodup)

/-- The data of a document that decide whether it is accepted: which parts are there, the
identifiers of the rules, and the names and results of the targets. -/
def decisive (d : Document) :
    Bool × Option (List String) × Option (List (String × Option (List Json))) :=
  (d.benchmark.isSome, d.rules.map (·.map RuleRecord.id),
    d.targets.map (·.map TargetRecord.evaluation))

private theorem parts_eq_error {d : Document} {e : Fault} :
    d.parts = .error e ↔
      d.benchmark = none ∧ e = .missingPart .benchmark ∨
      d.benchmark ≠ none ∧ d.rules = none ∧ e = .missingPart .rules ∨
      d.benchmark ≠ none ∧ d.rules ≠ none ∧ d.targets = none ∧ e = .missingPart .targets := by
  obtain ⟨_ | b, _ | rules, _ | ts⟩ := d <;> simp [parts, eq_comm]

/-- Only a repeated name is forgiven when the policy is switched. -/
private theorem Rejected.of_reject {d : Document} {f : Fault} (h : d.Rejected .reject f) :
    (∃ name i j, f = .duplicateName name i j) ∧ d.Accepted .lastWins ∨
      (∀ name i j, f ≠ .duplicateName name i j) ∧ d.Rejected .lastWins f := by
  cases h with
  | noBenchmark absent => exact .inr ⟨nofun, .noBenchmark absent⟩
  | noRules present absent => exact .inr ⟨nofun, .noRules present absent⟩
  | noTargets present rules absent => exact .inr ⟨nofun, .noTargets present rules absent⟩
  | results parts refused =>
    refine .inr ⟨?_, .results parts refused⟩
    obtain ⟨_, t, _, _, _, ht⟩ := refused
    cases ht <;> exact nofun
  | names parts sound _ _ => exact .inl ⟨⟨_, _, _, rfl⟩, _, _, _, parts, sound, nofun⟩

section
variable {d d' : Document} (he : d.decisive = d'.decisive)
include he

private theorem absent_of_decisive :
    (d.benchmark = none ↔ d'.benchmark = none) ∧ (d.rules = none ↔ d'.rules = none) ∧
      (d.targets = none ↔ d'.targets = none) := by
  obtain ⟨hb, he⟩ := Prod.mk.inj he
  obtain ⟨hr, ht⟩ := Prod.mk.inj he
  refine ⟨?_, ?_, ?_⟩
  · rw [← Option.not_isSome_iff_eq_none, hb, Option.not_isSome_iff_eq_none]
  · rw [← Option.map_eq_none_iff, hr, Option.map_eq_none_iff]
  · rw [← Option.map_eq_none_iff, ht, Option.map_eq_none_iff]

private theorem parts_of_decisive {b : Benchmark} {rules : List RuleRecord}
    {ts : List TargetRecord} (hd : d = ⟨some b, some rules, some ts⟩) :
    ∃ b' rules' ts', d' = ⟨some b', some rules', some ts'⟩ ∧
      rules.map RuleRecord.id = rules'.map RuleRecord.id ∧
      ts.map TargetRecord.evaluation = ts'.map TargetRecord.evaluation := by
  subst hd
  obtain ⟨hb, hr, ht⟩ := absent_of_decisive he
  obtain ⟨b', hb'⟩ := Option.ne_none_iff_exists'.mp (mt hb.mpr nofun)
  obtain ⟨rules', hr'⟩ := Option.ne_none_iff_exists'.mp (mt hr.mpr nofun)
  obtain ⟨ts', ht'⟩ := Option.ne_none_iff_exists'.mp (mt ht.mpr nofun)
  obtain ⟨_, _, _⟩ := d'
  obtain rfl : _ = some b' := hb'
  obtain rfl : _ = some rules' := hr'
  obtain rfl : _ = some ts' := ht'
  obtain ⟨_, he⟩ := Prod.mk.inj he
  obtain ⟨hr, ht⟩ := Prod.mk.inj he
  exact ⟨b', rules', ts', rfl, Option.some.inj hr, Option.some.inj ht⟩

private theorem Rejected.congr {policy : DuplicateNames} {f : Fault} (h : d.Rejected policy f) :
    d'.Rejected policy f := by
  obtain ⟨hb, hr, ht⟩ := absent_of_decisive he
  cases h with
  | noBenchmark absent => exact .noBenchmark (hb.mp absent)
  | noRules present absent => exact .noRules (mt hb.mpr present) (hr.mp absent)
  | noTargets present rules absent =>
    exact .noTargets (mt hb.mpr present) (mt hr.mpr rules) (ht.mp absent)
  | results parts refused =>
    obtain ⟨b', rules', ts', parts', hids, hts⟩ := parts_of_decisive he parts
    exact .results parts' (refused.congr hids hts)
  | names parts sound strict repeats =>
    obtain ⟨b', rules', ts', parts', hids, hts⟩ := parts_of_decisive he parts
    have hnames := congrArg (List.map Prod.fst) hts
    rw [List.map_map, List.map_map] at hnames
    exact .names parts' (TargetRecord.defective_of_mem hids hts sound) strict (hnames ▸ repeats)

end
end Document

namespace Report

/-- Of all defects of a document, building reports the one for which it is rejected. -/
private theorem build_eq_error_iff {d : Document} {s : Settings} {f : Fault} :
    (build d s).result = .error f ↔ d.Rejected s.duplicateNames f := by
  rw [build_eq_error, ofDocument_eq_error, Document.parts_eq_error]
  constructor
  · rintro ((⟨hb, rfl⟩ | ⟨hb, hr, rfl⟩ | ⟨hb, hr, ht, rfl⟩) | ⟨b, rules, ts, hp, hm | ⟨hm, hn⟩⟩)
    · exact .noBenchmark hb
    · exact .noRules hb hr
    · exact .noTargets hb hr ht
    · exact .results hp (ResultMatrix.ofRecords_eq_error.mp hm)
    · obtain ⟨strict, name, i, j, repeats, rfl⟩ := NameIndex.build_eq_error.mp hn
      exact .names hp (ResultMatrix.exists_ofRecords_iff.mp hm) strict repeats
  · intro h
    cases h with
    | noBenchmark absent => exact .inl (.inl ⟨absent, rfl⟩)
    | noRules present absent => exact .inl (.inr (.inl ⟨present, absent, rfl⟩))
    | noTargets present rules absent =>
      exact .inl (.inr (.inr ⟨present, rules, absent, rfl⟩))
    | results parts refused =>
      exact .inr ⟨_, _, _, parts, .inl (ResultMatrix.ofRecords_eq_error.mpr refused)⟩
    | names parts sound strict repeats =>
      exact .inr ⟨_, _, _, parts, .inr ⟨ResultMatrix.exists_ofRecords_iff.mpr sound,
        NameIndex.build_eq_error.mpr ⟨strict, _, _, _, repeats, rfl⟩⟩⟩

theorem exists_build_iff {d : Document} {s : Settings} :
    (∃ r, (build d s).result = .ok r) ↔ d.Accepted s.duplicateNames := by
  constructor
  · rintro ⟨r, h⟩
    obtain ⟨b, rules, ts, m, x, ho, _⟩ := build_opened h
    exact ⟨b, rules, ts, ho.parts, ResultMatrix.exists_ofRecords_iff.mp ⟨m, ho.matrix⟩,
      NameIndex.exists_build_iff.mp ⟨x, ho.names⟩⟩
  · rintro ⟨b, rules, ts, hp, hsound, hnames⟩
    obtain ⟨m, hm⟩ := ResultMatrix.exists_ofRecords_iff.mpr hsound
    obtain ⟨x, hx⟩ := NameIndex.exists_build_iff.mpr hnames
    have ho := ofDocument_eq_ok.mpr ⟨b, rules, ts, m, x, ⟨hp, hm, hx⟩, rfl⟩
    exact ⟨_, build_eq_ok.mpr ⟨_, ho, rfl⟩⟩

/-- A report under the strict policy is the report under every other one. -/
private theorem build_of_reject {d : Document} {s : Settings} {r : Report}
    (h : (build d (s.withDuplicateNames .reject)).result = .ok r) (policy : DuplicateNames) :
    (build d (s.withDuplicateNames policy)).result = .ok r := by
  obtain ⟨b, rules, ts, m, x, ho, rfl⟩ := build_opened h
  have hx := NameIndex.build_reject_eq_ok ho.names policy
  have hd : (ofDocument d (s.withDuplicateNames policy)).result = .ok (opening b rules ts m x) :=
    ofDocument_eq_ok.mpr ⟨b, rules, ts, m, x, ⟨ho.parts, ho.matrix, hx⟩, rfl⟩
  exact build_eq_ok.mpr ⟨_, hd, rfl⟩

/-- The outcome of building is decided by the parts, the results and the names, and it is the first
defect that is reported. Switching to the lenient policy changes only what failed for a name. -/
theorem build_decided (d : Document) (s : Settings) :
    (∀ f, (build d s).result = .error f ↔ d.Rejected s.duplicateNames f) ∧
    ((∃ r, (build d s).result = .ok r) ↔ d.Accepted s.duplicateNames) ∧
    (∀ d' : Document, d'.decisive = d.decisive → ∀ f,
      (build d' s).result = .error f ↔ (build d s).result = .error f) ∧
    (∀ r, (build d (s.withDuplicateNames .reject)).result = .ok r →
      (build d (s.withDuplicateNames .lastWins)).result = .ok r) ∧
    ∀ f, (build d (s.withDuplicateNames .reject)).result = .error f →
      (∃ name i j, f = .duplicateName name i j) ∧
        (∃ r, (build d (s.withDuplicateNames .lastWins)).result = .ok r) ∨
      (∀ name i j, f ≠ .duplicateName name i j) ∧
        (build d (s.withDuplicateNames .lastWins)).result = .error f := by
  refine ⟨fun f => build_eq_error_iff, exists_build_iff, ?_, fun r h => build_of_reject h .lastWins,
    ?_⟩
  · intro d' he f
    rw [build_eq_error_iff, build_eq_error_iff]
    exact ⟨.congr he, .congr he.symm⟩
  · intro f h
    rw [exists_build_iff, build_eq_error_iff]
    exact (build_eq_error_iff.mp h).of_reject

/-- A repeated name, a target with too few results and, before both, a result that is no ordinal. -/
def severalDefects : Document where
  benchmark := some .empty
  rules := some [⟨"a", "A", "", [], []⟩, ⟨"b", "B", "", [], []⟩]
  targets := some [⟨"host", none, none, none⟩,
    ⟨"host", none, none, some [.ofNat 1, .string "pass"]⟩, ⟨"web", none, none, some [.ofNat 9]⟩]

theorem build_decided_severalDefects :
    (build severalDefects ⟨.reject, []⟩).result
      = .error (.malformedResult 1 "b" "host" (.string "pass")) ∧
    (build severalDefects ⟨.lastWins, []⟩).result
      = .error (.malformedResult 1 "b" "host" (.string "pass")) := by
  obtain ⟨_, _, _, _, h⟩ := build_decided severalDefects ⟨.reject, []⟩
  rcases h _ rfl with ⟨⟨_, _, _, hf⟩, _⟩ | ⟨_, h⟩
  · cases hf
  · exact ⟨rfl, h⟩

end Report
end Compliance
