import Compliance.Proofs.Derivation
import Compliance.Report.Build

/-! A build in stages beside the plain one. Both end alike; the records about data are the log of the
plain build, and the others tell which stages were reached and why no further one was. -/
namespace Compliance

/-- Whether a record is about what is in a document, and not about the progress of its build. -/
def Event.aboutData (e : Event) : Bool := e.level = .warn || e.level = .debug

namespace Traced
variable {α β : Type} {p : Event → Bool}

private theorem result_bind (x : Traced α) (f : α → Traced β) :
    (x >>= f).result = x.result.bind fun a => (f a).result := by
  cases h : x.result with
  | ok a => rw [bind_of_ok h]; rfl
  | error e => rw [bind_of_error h]; rfl

private theorem result_onFail (x : Traced α) (record : Fault → Event) :
    (x.onFail record).result = x.result := by
  rw [onFail]
  split <;> rfl

theorem events_bind (x : Traced α) (f : α → Traced β) :
    (x >>= f).events = x.events ++ match x.result with
      | .ok a => (f a).events
      | .error _ => [] := by
  cases h : x.result with
  | ok a => rw [bind_of_ok h]
  | error e => rw [bind_of_error h, List.append_nil]

private theorem events_onFail (x : Traced α) (record : Fault → Event) :
    (x.onFail record).events = x.events ++ match x.result with
      | .ok _ => []
      | .error f => [record f] := by
  cases h : x.result with
  | ok a => rw [onFail, h, List.append_nil]
  | error f => rw [onFail, h]

/-- Whether all records of a computation are of one kind. -/
def Tells (p : Event → Bool) (x : Traced α) : Prop := ∀ e ∈ x.events, p e

private theorem tells_of_nil {x : Traced α} (h : x.events = []) : x.Tells p := by
  rw [Tells, h]
  nofun

private theorem tells_emit {e : Event} (h : p e) : (emit e).Tells p := by
  rintro e he
  rwa [List.mem_singleton.mp he]

theorem Tells.bind {x : Traced α} {f : α → Traced β} (hx : x.Tells p) (hf : ∀ a, (f a).Tells p) :
    (x >>= f).Tells p := by
  cases h : x.result with
  | ok a =>
    rw [bind_of_ok h]
    exact fun e he => (List.mem_append.mp he).elim (hx e) (hf a e)
  | error e =>
    rw [bind_of_error h]
    exact hx

end Traced

open Traced (Tells tells_of_nil tells_emit)

private theorem ResultMatrix.completeRow_aboutData (rules : List RuleRecord) (t : TargetRecord) :
    (completeRow rules t).Tells Event.aboutData := by
  unfold completeRow
  split
  · exact tells_of_nil rfl
  · exact (tells_emit rfl).bind fun _ => tells_of_nil rfl

private theorem ResultMatrix.rowsOf_aboutData (rules : List RuleRecord) (ts : List TargetRecord) :
    (rowsOf rules ts).Tells Event.aboutData := by
  induction ts with
  | nil => exact tells_of_nil rfl
  | cons t ts ih =>
    exact (completeRow_aboutData rules t).bind fun _ => ih.bind fun _ => tells_of_nil rfl

private theorem ResultMatrix.ofRecords_aboutData (rules : List RuleRecord)
    (ts : List TargetRecord) :
    (ofRecords rules ts).Tells Event.aboutData :=
  (rowsOf_aboutData rules ts).bind fun _ => tells_of_nil rfl

private theorem NameIndex.extend_aboutData (policy : DuplicateNames) (i : Nat) (names : List String)
    (x : NameIndex) : (extend policy i names x).Tells Event.aboutData := by
  fun_induction extend policy i names x with
  | case1 => exact tells_of_nil rfl
  | case2 i name names x fresh ih => exact ih
  | case3 => exact tells_of_nil rfl
  | case4 i name names x previous last taken ih =>
    subst last
    exact (tells_emit rfl).bind fun _ => ih

private theorem RuleRecord.declaredEvents_aboutData (r : RuleRecord) (targets : Nat) :
    ∀ e ∈ r.declaredEvents targets, e.aboutData := by
  intro e he
  rcases List.mem_append.mp he with he | he
  · split at he
    · rw [List.mem_singleton.mp he]
      rfl
    · cases he
  · obtain ⟨_, _, rfl⟩ := List.mem_map.mp he
    rfl

namespace Report

/-- Whatever a document is like, opening a report on it only tells about its data. -/
theorem ofDocument_aboutData (d : Document) (s : Settings) :
    (ofDocument d s).Tells Event.aboutData := by
  refine Tells.bind (tells_of_nil rfl) fun ⟨_, rules, ts⟩ => ?_
  refine (ResultMatrix.ofRecords_aboutData rules ts).bind fun m => ?_
  refine Tells.bind (NameIndex.extend_aboutData _ _ _ _) fun _ => ?_
  refine Tells.bind ?_ fun _ => tells_of_nil rfl
  intro e he
  obtain ⟨r, _, he⟩ := List.mem_flatMap.mp he
  exact r.declaredEvents_aboutData ts.length e he

private theorem ruleEvents_aboutData (r : Report) : ∀ e ∈ r.ruleEvents, e.aboutData := by
  intro e he
  rcases List.mem_append.mp he with he | he
  · obtain ⟨_, _, rfl⟩ := List.mem_map.mp he
    rfl
  · rw [List.mem_singleton.mp he]
    rfl

private theorem targetEvents_aboutData (r : Report) : ∀ e ∈ r.targetEvents, e.aboutData :=
  List.forall_mem_singleton.mpr rfl

/-- Stages aside, a file is built in the one way. -/
theorem result_buildFileInStages (path : String) (content : Except FileError String)
    (s : Settings) :
    (buildFileInStages path content s).result = (buildFile path content s).result := by
  simp only [buildFileInStages, buildFile, buildText, build, Traced.result_bind,
    Traced.result_onFail, Traced.result_emit, Traced.result_emitAll, Traced.result_pure,
    Except.bind]
  rfl

/-- The records of the stages of a build that ends with a report. -/
def stages (path : String) (r : Report) : List Event :=
  [.reading path, .normalizing,
    .normalized r.rules.length r.targets.length r.unevaluatedTargets.length,
    .aggregatingByRule, .aggregatedByRule r.ruleTotals,
    .aggregatingByTarget, .aggregatedByTarget r.targetTotals]

/-- What both passes leave of a report is what the records between them tell. -/
private theorem stages_aggregate (path : String) (o : Report) : stages path o.aggregate =
    [.reading path, .normalizing,
      .normalized o.rules.length o.targets.length (o.targets.filter (·.unevaluated)).length,
      .aggregatingByRule, .aggregatedByRule o.aggregateRules.ruleTotals,
      .aggregatingByTarget, .aggregatedByTarget o.aggregate.targetTotals] := by
  have hr : o.aggregate.rules.length = o.rules.length := by
    have h := congrArg List.length (aggregate_rules_map (f := Rule.id) (fun _ _ => rfl) o)
    rwa [List.length_map, List.length_map] at h
  have ht : o.aggregate.targets.length = o.targets.length := by
    rw [aggregate_targets, List.length_map]
  have hu : o.aggregate.unevaluatedTargets.length
      = (o.targets.filter (·.unevaluated)).length := by
    rw [unevaluatedTargets, length_positioned, aggregate_targets, List.countP_map,
      ← List.countP_eq_length_filter]
    rfl
  rw [stages, hr, ht, hu]
  rfl

section
variable (path : String) (s : Settings) {text : String} {d : Document}

private theorem events_staged_notDocument {e : Json.Error} (h : Document.parse text = .error e) :
    (buildFileInStages path (.ok text) s).events
      = [.reading path, .parsingFailed (.notDocument e)] := by
  simp [buildFileInStages, Traced.events_bind, Traced.events_onFail, Traced.result_onFail, readInput,
    Except.mapError, h]

private theorem events_staged_failed {f : Fault} (hd : Document.parse text = .ok d)
    (h : (ofDocument d s).result = .error f) : (buildFileInStages path (.ok text) s).events
      = [.reading path, .normalizing] ++ ((ofDocument d s).events ++ [.normalizingFailed f]) := by
  simp [buildFileInStages, Traced.events_bind, Traced.events_onFail, Traced.result_onFail, readInput,
    Except.mapError, hd, h]

private theorem events_staged_ok {o : Report} (hd : Document.parse text = .ok d)
    (h : (ofDocument d s).result = .ok o) : (buildFileInStages path (.ok text) s).events
      = [.reading path, .normalizing] ++ ((ofDocument d s).events
        ++ ([.normalized o.rules.length o.targets.length (o.targets.filter (·.unevaluated)).length,
          .aggregatingByRule] ++ (o.ruleEvents
        ++ ([.aggregatedByRule o.aggregateRules.ruleTotals, .aggregatingByTarget]
        ++ (o.aggregateRules.targetEvents ++ [.aggregatedByTarget o.aggregate.targetTotals]))))) := by
  simp [buildFileInStages, Traced.events_bind, Traced.events_onFail, Traced.result_onFail, readInput,
    Except.mapError, hd, h, aggregate]

private theorem buildText_notDocument {e : Json.Error} (h : Document.parse text = .error e) :
    buildText text s = ⟨[], .error (.notDocument e)⟩ := by
  rw [buildText, h]
  rfl

private theorem buildText_ok (h : Document.parse text = .ok d) : buildText text s = build d s := by
  rw [buildText, h]
  rfl

private theorem build_failed {f : Fault} (h : (ofDocument d s).result = .error f) :
    build d s = ⟨(ofDocument d s).events, .error f⟩ := by
  rw [build, Traced.bind_of_error h]

theorem build_ok {o : Report} (h : (ofDocument d s).result = .ok o) :
    build d s = ⟨(ofDocument d s).events ++ (o.ruleEvents ++ o.aggregateRules.targetEvents),
      .ok o.aggregate⟩ := by
  have hpasses : (Traced.emitAll o.aggregateEvents >>= fun _ => pure o.aggregate)
      = ⟨o.aggregateEvents ++ [], .ok o.aggregate⟩ := rfl
  rw [build, Traced.bind_of_ok h, hpasses, List.append_nil, aggregateEvents]

/-- Among records of stages, those about data can be told apart. -/
private theorem filter_not_aboutData {es : List Event} (h : ∀ e ∈ es, e.aboutData) :
    es.filter (!Event.aboutData ·) = [] :=
  List.filter_eq_nil_iff.mpr fun e he => by rw [h e he]; exact Bool.false_ne_true

/-- A build that stops at the data of its document has told what it saw before that. -/
private theorem filter_staged_failed {f : Fault} (hd : Document.parse text = .ok d)
    (h : (ofDocument d s).result = .error f) :
    (buildFileInStages path (.ok text) s).events.filter Event.aboutData = (buildText text s).events ∧
    (buildFileInStages path (.ok text) s).events.filter (!Event.aboutData ·)
      = [.reading path, .normalizing, .normalizingFailed f] := by
  have hdata := ofDocument_aboutData d s
  rw [events_staged_failed path s hd h, buildText_ok s hd, build_failed s h]
  simp only [List.filter_append, List.filter_eq_self.mpr hdata, filter_not_aboutData hdata]
  exact ⟨List.append_nil _, rfl⟩

private theorem filter_staged_ok {o : Report} (hd : Document.parse text = .ok d)
    (h : (ofDocument d s).result = .ok o) :
    (buildFileInStages path (.ok text) s).events.filter Event.aboutData = (buildText text s).events ∧
    (buildFileInStages path (.ok text) s).events.filter (!Event.aboutData ·)
      = stages path o.aggregate := by
  have hdata := ofDocument_aboutData d s
  have hrules := o.ruleEvents_aboutData
  have htargets := o.aggregateRules.targetEvents_aboutData
  rw [events_staged_ok path s hd h, buildText_ok s hd, build_ok s h, stages_aggregate]
  simp only [List.filter_append, List.filter_eq_self.mpr hdata, filter_not_aboutData hdata,
    List.filter_eq_self.mpr hrules, filter_not_aboutData hrules,
    List.filter_eq_self.mpr htargets, filter_not_aboutData htargets]
  exact ⟨rfl, rfl⟩

end

private theorem level_of_mem_stages {path : String} {r : Report} {e : Event}
    (h : e ∈ stages path r) :
    e.level = .info := by
  simp only [stages, List.mem_cons, List.not_mem_nil, or_false] at h
  rcases h with rfl | rfl | rfl | rfl | rfl | rfl | rfl <;> rfl

/-- A file is built in stages with the end and the log of the plain build. Beside that log there is a
record for each stage, up to the one that failed, whose fault is the last thing that is told. -/
theorem buildFileInStages_narrates (path : String) (content : Except FileError String)
    (s : Settings) :
    let staged := buildFileInStages path content s
    let plain := buildFile path content s
    let milestones := staged.events.filter (!Event.aboutData ·)
    staged.result = plain.result ∧
    staged.events.filter Event.aboutData = plain.events ∧
    (∀ r, ∀ e ∈ stages path r, e.level = .info) ∧
    match staged.result with
    | .ok r => milestones = stages path r
    | .error f => ∃ reached last, milestones = reached ++ [last] ∧ (∀ r, reached <+: stages path r) ∧
        staged.events.getLast? = some last ∧ last.level = .error ∧
        last ∈ [.readingFailed f, .parsingFailed f, .normalizingFailed f] := by
  intro staged plain milestones
  have hlevel : ∀ r, ∀ e ∈ stages path r, e.level = .info := fun _ _ => level_of_mem_stages
  have hend : staged.result = plain.result := result_buildFileInStages path content s
  refine ⟨hend, ?_⟩
  rw [hend]
  cases content with
  | error e =>
    refine ⟨rfl, hlevel, [.reading path], _, rfl, fun r => ⟨_, rfl⟩, rfl, rfl, ?_⟩
    exact List.mem_cons_self
  | ok text =>
    cases hd : Document.parse text with
    | error e =>
      have he : staged.events = _ := events_staged_notDocument path s hd
      have hp : plain = _ := buildText_notDocument s hd
      have hm : milestones = _ := congrArg (List.filter _) he
      rw [he, hp, hm]
      refine ⟨rfl, hlevel, [.reading path], _, rfl, fun r => ⟨_, rfl⟩, rfl, rfl, ?_⟩
      exact List.mem_cons_of_mem _ List.mem_cons_self
    | ok d =>
      cases ho : (ofDocument d s).result with
      | error f =>
        obtain ⟨hlog, hmilestones⟩ := filter_staged_failed path s hd ho
        have hresult : plain.result = .error f :=
          congrArg Traced.result ((buildText_ok s hd).trans (build_failed s ho))
        rw [hresult]
        refine ⟨hlog, hlevel, [.reading path, .normalizing], .normalizingFailed f, hmilestones,
          fun r => ⟨_, rfl⟩, ?_, rfl, ?_⟩
        · rw [show staged.events = _ from events_staged_failed path s hd ho, ← List.append_assoc,
            List.getLast?_concat]
        · exact List.mem_cons_of_mem _ (List.mem_cons_of_mem _ List.mem_cons_self)
      | ok o =>
        obtain ⟨hlog, hmilestones⟩ := filter_staged_ok path s hd ho
        have hresult : plain.result = .ok o.aggregate :=
          congrArg Traced.result ((buildText_ok s hd).trans (build_ok s ho))
        rw [hresult]
        exact ⟨hlog, hlevel, hmilestones⟩

end Report
end Compliance
