import Compliance.Proofs.Opening
import Compliance.Proofs.Rereading
import Compliance.Proofs.UniqueText
import Compliance.Results.Full

/-! What the hashed text of a results file says. It determines every report in the file but for its
index of names, which is not written. -/
namespace Compliance

namespace Json

private theorem ofNat_injective {m n : Nat} (h : ofNat m = ofNat n) : m = n := by
  have := Number.integer.inj (Json.number.inj h)
  omega

private theorem array_map_injective {α : Type} {f : α → Json} (hf : ∀ a b, f a = f b → a = b)
    {as bs : List α} (h : array (as.map f) = array (bs.map f)) : as = bs :=
  (List.map_inj_right hf).mp (array.inj h)

/-- A member that may be left out can be told from one with another key. -/
theorem optionalMember_append_injective {α : Type} {key : String} {encode : α → Json}
    (hencode : ∀ a b, encode a = encode b → a = b) {o p : Option α}
    {ms ns : List (String × Json)} (hm : ∀ m ∈ ms.head?, m.1 ≠ key) (hn : ∀ m ∈ ns.head?, m.1 ≠ key)
    (h : optionalMember key encode o ++ ms = optionalMember key encode p ++ ns) :
    o = p ∧ ms = ns := by
  cases o with
  | none =>
    cases p with
    | none => exact ⟨rfl, h⟩
    | some b =>
      obtain rfl : ms = _ := h
      exact absurd rfl (hm _ rfl)
  | some a =>
    cases p with
    | none =>
      obtain rfl : _ = ns := h
      exact absurd rfl (hn _ rfl)
    | some b =>
      obtain ⟨hhead, htail⟩ := List.cons.inj h
      exact ⟨congrArg some (hencode a b (Prod.mk.inj hhead).2), htail⟩

end Json

open Json (optionalMember_append_injective)

private theorem PerOutcome.toList_injective {α : Type} {t u : PerOutcome α}
    (h : t.toList = u.toList) :
    t = u := by
  have := ofList?_toList t
  rw [h, ofList?_toList] at this
  exact (Option.some.inj this).symm

private theorem PerCategory.toList_injective {α : Type} {t u : PerCategory α}
    (h : t.toList = u.toList) :
    t = u := by
  have := ofList?_toList t
  rw [h, ofList?_toList] at this
  exact (Option.some.inj this).symm

private theorem Tally.toJson_injective {t u : Tally} (h : t.toJson = u.toJson) : t = u :=
  PerOutcome.toList_injective (Json.array_map_injective (fun _ _ => Json.ofNat_injective) h)

private theorem CategoryTally.toJson_injective {t u : CategoryTally} (h : t.toJson = u.toJson) :
    t = u :=
  PerCategory.toList_injective (Json.array_map_injective (fun _ _ => Json.ofNat_injective) h)

private theorem Partition.toJson_injective {α : Type} {encode : α → Json}
    (hencode : ∀ a b, encode a = encode b → a = b) {p q : Partition α}
    (h : p.toJson encode = q.toJson encode) : p = q :=
  PerOutcome.toList_injective
    (Json.array_map_injective (fun _ _ => Json.array_map_injective hencode) h)

private theorem Outcome.name_injective : ∀ o p : Outcome, o.name = p.name → o = p := by
  intro o p
  cases o <;> cases p <;> decide

private theorem Category.name_injective : ∀ c d : Category, c.name = d.name → c = d := by
  intro c d
  cases c <;> cases d <;> decide

private theorem Benchmark.toJson_injective {b c : Benchmark} (h : b.toJson = c.toJson) : b = c := by
  obtain ⟨title, version, id, profile, extra⟩ := b
  obtain ⟨title', version', id', profile', extra'⟩ := c
  obtain ⟨htitle, hrest⟩ := List.cons.inj (Json.object.inj h)
  obtain ⟨rfl, hrest⟩ := optionalMember_append_injective (fun _ _ he => he) (by simp) (by simp) hrest
  simp only [List.cons.injEq, Prod.mk.injEq, Json.string.injEq, true_and] at htitle hrest
  obtain ⟨rfl, rfl, rfl⟩ := hrest
  rw [htitle]

private theorem Reference.toJson_injective (r s : Reference) (h : r.toJson = s.toJson) : r = s := by
  obtain ⟨system, value⟩ := r
  obtain ⟨system', value'⟩ := s
  simp only [toJson, Json.object.injEq, List.cons.injEq, Prod.mk.injEq, Json.string.injEq, true_and,
    and_true] at h
  rw [h.1, h.2]

private theorem categoryMember_injective {c d : Option Category}
    (h : categoryMember c = categoryMember d) :
    c = d :=
  (optionalMember_append_injective (fun c d he => Category.name_injective c d (Json.string.inj he))
    (by simp) (by simp) (congrArg (· ++ []) h)).1

private theorem Rule.toJson_injective (r s : Rule) (h : r.toJson = s.toJson) : r = s := by
  obtain ⟨id, title, description, references, totals, targets, category⟩ := r
  obtain ⟨id', title', description', references', totals', targets', category'⟩ := s
  simp only [toJson, Json.object.injEq, List.cons_append, List.nil_append, List.cons.injEq,
    Prod.mk.injEq, Json.string.injEq, true_and] at h
  obtain ⟨rfl, rfl, rfl, hreferences, htotals, htargets, hcategory⟩ := h
  rw [Json.array_map_injective Reference.toJson_injective hreferences,
    Tally.toJson_injective htotals, Partition.toJson_injective (fun _ _ => Json.string.inj) htargets,
    categoryMember_injective hcategory]

private theorem Target.toJson_injective (t u : Target) (h : t.toJson = u.toJson) : t = u := by
  obtain ⟨name, status, trace, results, rules, unevaluated, category⟩ := t
  obtain ⟨name', status', trace', results', rules', unevaluated', category'⟩ := u
  simp only [toJson, Json.object.injEq, List.cons_append, List.append_assoc, List.nil_append,
    List.cons.injEq, Prod.mk.injEq, Json.string.injEq, true_and] at h
  obtain ⟨rfl, hdiagnostics⟩ := h
  obtain ⟨hstatus, htail⟩ := optionalMember_append_injective (fun _ _ => Json.string.inj)
    (by cases trace <;> simp [Json.optionalMember]) (by cases trace' <;> simp [Json.optionalMember])
    hdiagnostics
  obtain ⟨htrace, hrest⟩ := optionalMember_append_injective (fun _ _ => Json.string.inj) (by simp)
    (by simp) htail
  simp only [List.cons.injEq, Prod.mk.injEq, Json.bool.injEq, true_and] at hrest
  obtain ⟨hresults, hrules, rfl, hcategory⟩ := hrest
  have houtcome := fun o p (ho : Json.string o.name = .string p.name) =>
    Outcome.name_injective o p (Json.string.inj ho)
  rw [hstatus, htrace, Json.array_map_injective houtcome hresults,
    Partition.toJson_injective (fun _ _ => Json.ofNat_injective) hrules,
    categoryMember_injective hcategory]

namespace Results

/-- Everything that a results file says about a report. -/
structure SameReport (systems systems' : List LinkSystem) (e e' : Entry) : Prop where
  source : e.source = e'.source
  benchmark : e.report.benchmark = e'.report.benchmark
  rules : e.report.rules = e'.report.rules
  targets : e.report.targets = e'.report.targets
  ruleTotals : e.report.ruleTotals = e'.report.ruleTotals
  targetTotals : e.report.targetTotals = e'.report.targetTotals
  links : (e.report.rules.map fun rule => rule.references.map (Link.display systems))
    = e'.report.rules.map fun rule => rule.references.map (Link.display systems')

private theorem displayJson_injective (d d' : ReferenceDisplay)
    (h : displayJson d = displayJson d') :
    d = d' := by
  obtain ⟨text, url⟩ := d
  obtain ⟨text', url'⟩ := d'
  obtain ⟨htext, hrest⟩ := List.cons.inj (Json.object.inj h)
  obtain ⟨hurl, _⟩ := optionalMember_append_injective (fun _ _ => Json.string.inj) (by simp)
    (by simp) (congrArg (· ++ []) hrest)
  obtain rfl : text = text' := Json.string.inj (Prod.mk.inj htext).2
  obtain rfl : url = url' := hurl
  rfl

private theorem linksJson_injective {systems systems' : List LinkSystem} {r r' : Report}
    (h : linksJson systems r = linksJson systems' r') :
    (r.rules.map fun rule => rule.references.map (Link.display systems))
      = r'.rules.map fun rule => rule.references.map (Link.display systems') := by
  have hdisplays : ∀ (systems : List LinkSystem) (r : Report), linksJson systems r =
      .array ((r.rules.map fun rule => rule.references.map (Link.display systems)).map fun ds =>
        .array (ds.map displayJson)) := by
    intro systems r
    simp only [linksJson, List.map_map, Function.comp_def]
  rw [hdisplays, hdisplays] at h
  exact Json.array_map_injective (fun _ _ => Json.array_map_injective displayJson_injective) h

private theorem sameReport_of_entryJson {systems systems' : List LinkSystem} {e e' : Entry}
    (h : entryJson systems e = entryJson systems' e') : SameReport systems systems' e e' := by
  simp only [entryJson, Report.members, Json.object.injEq, List.cons_append, List.nil_append,
    List.cons.injEq, Prod.mk.injEq, Json.string.injEq, true_and, and_true] at h
  obtain ⟨hsource, hbenchmark, hrules, htargets, hruleTotals, htargetTotals, hlinks⟩ := h
  exact {
    source := hsource
    benchmark := Benchmark.toJson_injective hbenchmark
    rules := Json.array_map_injective Rule.toJson_injective hrules
    targets := Json.array_map_injective Target.toJson_injective htargets
    ruleTotals := CategoryTally.toJson_injective hruleTotals
    targetTotals := CategoryTally.toJson_injective htargetTotals
    links := linksJson_injective hlinks }

end Results

/-- Whether the numbers in a benchmark are whole or doubles that exist. -/
def Benchmark.Exact (b : Benchmark) : Prop := ∀ n ∈ b.freeNumbers, n.Exact

private theorem Benchmark.Exact.toJson {b : Benchmark} (h : b.Exact) : b.toJson.Exact := by
  have hnumbers := List.forall_mem_append.mp h
  refine Json.exact_object ?_
  simp only [List.cons_append, List.forall_mem_cons, List.forall_mem_append]
  refine ⟨Json.exact_string _, Json.exact_optionalMember fun v hv => ?_, Json.exact_string _,
    Json.exact_string _, fun m hm n hn => hnumbers.2 n ?_⟩
  · have hversion := hnumbers.1
    rwa [hv] at hversion
  · rw [Json.memberNumbers_eq_flatMap]
    exact List.mem_flatMap.mpr ⟨m, hm, hn⟩

private theorem Benchmark.Sound.exact {depth : Nat} {b : Benchmark} (h : b.Sound depth) :
    b.Exact := by
  refine List.forall_mem_append.mpr ⟨fun n hn => ?_, fun n hn => ?_⟩
  · cases hv : b.version with
    | none =>
      rw [hv] at hn
      cases hn
    | some v =>
      rw [hv] at hn
      exact (h.version v hv).2.exact n hn
  · rw [Json.memberNumbers_eq_flatMap] at hn
    obtain ⟨m, hm, hn⟩ := List.mem_flatMap.mp hn
    exact (h.readable m hm).exact n hn

/-- The numbers in the report of a file have been read, so they exist. -/
private theorem Report.benchmark_exact {path : String} {content : Except FileError String}
    {s : Settings}
    {r : Report} (h : (buildFile path content s).result = .ok r) : r.benchmark.Exact := by
  obtain ⟨text, _, h⟩ := Traced.bind_eq_ok.mp h
  obtain ⟨d, hd, h⟩ := Traced.bind_eq_ok.mp h
  obtain ⟨b, rules, ts, m, x, hopened, rfl⟩ := build_opened h
  have hparse : Document.parse text = .ok d := by
    rw [Traced.result_ofExcept] at hd
    cases hp : Document.parse text with
    | error e => rw [hp] at hd; cases hd
    | ok d' =>
      rw [hp] at hd
      exact congrArg Except.ok (Except.ok.inj hd)
  have hbenchmark : b.Sound 125 :=
    (Document.parse_sound hparse).benchmark b (by rw [hopened.parts])
  exact hbenchmark.exact

private theorem Reference.exact_toJson (r : Reference) : r.toJson.Exact := by
  refine Json.exact_object ?_
  simp only [List.forall_mem_cons]
  exact ⟨Json.exact_string _, Json.exact_string _, nofun⟩

private theorem exact_categoryMember (c : Option Category) : ∀ m ∈ categoryMember c, m.2.Exact :=
  Json.exact_optionalMember fun _ _ => Json.exact_string _

private theorem Partition.exact_toJson {α : Type} {encode : α → Json} (h : ∀ a, (encode a).Exact)
    (p : Partition α) : (p.toJson encode).Exact :=
  Json.exact_map fun _ => Json.exact_map h

private theorem Rule.exact_toJson (r : Rule) : r.toJson.Exact := by
  refine Json.exact_object ?_
  simp only [List.forall_mem_cons, List.forall_mem_append]
  exact ⟨⟨Json.exact_string _, Json.exact_string _, Json.exact_string _,
    Json.exact_map Reference.exact_toJson, Json.exact_map Json.exact_ofNat,
    Partition.exact_toJson Json.exact_string _, nofun⟩, exact_categoryMember _⟩

private theorem Target.exact_toJson (t : Target) : t.toJson.Exact := by
  refine Json.exact_object ?_
  simp only [List.cons_append, List.forall_mem_cons, List.forall_mem_append]
  exact ⟨Json.exact_string _,
    ⟨⟨Json.exact_optionalMember fun _ _ => Json.exact_string _,
      Json.exact_optionalMember fun _ _ => Json.exact_string _⟩,
      Json.exact_map fun _ => Json.exact_string _, Partition.exact_toJson Json.exact_ofNat _,
      Json.exact_bool _, nofun⟩, exact_categoryMember _⟩

namespace Results

private theorem exact_displayJson (d : ReferenceDisplay) : (displayJson d).Exact := by
  refine Json.exact_object ?_
  simp only [List.forall_mem_cons]
  exact ⟨Json.exact_string _, Json.exact_optionalMember fun _ _ => Json.exact_string _⟩

private theorem exact_entryJson (systems : List LinkSystem) {e : Entry}
    (h : e.report.benchmark.Exact) :
    (entryJson systems e).Exact := by
  refine Json.exact_object ?_
  simp only [Report.members, List.cons_append, List.nil_append, List.forall_mem_cons]
  exact ⟨Json.exact_string _, h.toJson, Json.exact_map Rule.exact_toJson,
    Json.exact_map Target.exact_toJson, Json.exact_map Json.exact_ofNat,
    Json.exact_map Json.exact_ofNat, Json.exact_map fun _ => Json.exact_map fun _ =>
      exact_displayJson _, nofun⟩

private theorem exact_reportsJson (systems : List LinkSystem) {es : List Entry}
    (h : ∀ e ∈ es, e.report.benchmark.Exact) : (reportsJson systems es).Exact :=
  Json.exact_array (List.forall_mem_map.mpr fun e he => exact_entryJson systems (h e he))

/-- Results files with the same hashed text hold the same reports, in the same order, with the same
links. The text of a number does not have to be assumed to determine it. -/
theorem same_reports_of_same_text {systems systems' : List LinkSystem} {es es' : List Entry}
    (hes : ∀ e ∈ es, e.report.benchmark.Exact) (hes' : ∀ e ∈ es', e.report.benchmark.Exact)
    (h : (reportsJson systems es).compact = (reportsJson systems' es').compact) :
    List.Forall₂ (SameReport systems systems') es es' := by
  have hjson : reportsJson systems es = reportsJson systems' es' :=
    Json.compact_injective (exact_reportsJson systems hes) (exact_reportsJson systems' hes') h
  have hentries : List.Forall₂ (· = ·) (es.map (entryJson systems))
      (es'.map (entryJson systems')) := by
    rw [Json.array.inj hjson]
    exact List.forall₂_refl _
  exact (List.forall₂_map_right_iff.mp (List.forall₂_map_left_iff.mp hentries)).imp
    fun _ _ => sameReport_of_entryJson

/-- Two files with the same report. The second one names its fields as written documents do. -/
def freeForm : String :=
  "\x7b\"benchmark\":\x7b\"version\":15e-1\x7d,\"rules\":[[\"r\",\"R\",null,[[\"cve\",7]]]],"
    ++ "\"targets\":[[\"host\",null,null,[1]]]\x7d"

def writtenForm : String :=
  "\x7b\"benchmark\":\x7b\"xccdf_version\":1.5\x7d,"
    ++ "\"rules\":[\x7b\"id\":\"r\",\"title\":\"R\",\"references\":[[\"cve\",\"7\"]]\x7d],"
    ++ "\"targets\":[\x7b\"friendly_name\":\"host\",\"rule_results\":[1]\x7d]\x7d"

theorem same_reports_of_same_text_twoForms :
    ∃ r r', (Report.buildFile "a.json" (.ok freeForm) .default).result = .ok r ∧
      (Report.buildFile "a.json" (.ok writtenForm) ⟨.lastWins, []⟩).result = .ok r' ∧
      List.Forall₂ (SameReport [] [⟨"other", "http://", ""⟩]) [⟨"a.json", r⟩] [⟨"a.json", r'⟩] := by
  have hboth : ((Report.buildFile "a.json" (.ok freeForm) .default).result.toOption.any fun r =>
      (Report.buildFile "a.json" (.ok writtenForm) ⟨.lastWins, []⟩).result.toOption.any fun r' =>
        (reportsJson [] [⟨"a.json", r⟩]).compact
          = (reportsJson [⟨"other", "http://", ""⟩] [⟨"a.json", r'⟩]).compact) = true := by
    decide +kernel
  obtain ⟨r, hr, hboth⟩ := (Option.any_eq_true _ _).mp hboth
  obtain ⟨r', hr', hsame⟩ := (Option.any_eq_true _ _).mp hboth
  have hbuilt := Json.ok_of_toOption hr
  have hbuilt' := Json.ok_of_toOption hr'
  exact ⟨r, r', hbuilt, hbuilt', same_reports_of_same_text
    (List.forall_mem_singleton.mpr (Report.benchmark_exact hbuilt))
    (List.forall_mem_singleton.mpr (Report.benchmark_exact hbuilt')) (of_decide_eq_true hsame)⟩

end Results
end Compliance
