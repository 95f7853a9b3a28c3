import Compliance.Proofs.ClosedForm
import Compliance.Proofs.TableRows
import Compliance.Proofs.WorstCategory

/-! The panel of a finished report. A panel goes by categories, classes and totals, which different code
derives; what it prints is what the results and the records of the targets say, and the line of
progress agrees with it. -/
namespace Compliance

namespace Text

def Begins (start line : String) : Prop := start.toList <+: line.toList

instance (start line : String) : Decidable (Begins start line) :=
  inferInstanceAs (Decidable (start.toList <+: line.toList))

private theorem begins_append (p a : String) : Begins p (p ++ a) := by
  rw [Begins, String.toList_append]
  exact List.prefix_append ..

private theorem Begins.append {p q : String} (h : Begins p q) (a : String) : Begins p (q ++ a) := by
  rw [Begins, String.toList_append]
  exact List.IsPrefix.trans h (List.prefix_append ..)

/-- Of two texts that begin a line, one begins with the other. -/
theorem Begins.not {p q l : String} (h : Begins q l) (hapart : ¬ Begins p q ∧ ¬ Begins q p) :
    ¬ Begins p l := by
  intro hp
  rcases List.prefix_or_prefix_of_prefix hp h with hpq | hqp
  · exact hapart.1 hpq
  · exact hapart.2 hqp

end Text

namespace Console

def linkText (systems : List LinkSystem) (ref : Reference) : String :=
  match Link.url systems ref with
  | some url => ref.value ++ " <" ++ url ++ ">"
  | none => ref.value

/-- The rules that some target failed, with their positions. -/
def failedRules (r : Report) : List (Rule × Nat) :=
  r.rules.zipIdx.filter fun e => ∃ t ∈ r.targets, t.results[e.2]? = some .fail

def failedRuleLines (systems : List LinkSystem) (r : Report) (e : Rule × Nat) : List String :=
  ["│   • " ++ e.1.title,
   "│       Failed on: " ++ ", ".intercalate (Report.namesAt r.targets e.2 .fail)]
    ++ match e.1.references with
      | [] => []
      | refs => ["│       References: " ++ ", ".intercalate (refs.map (linkText systems))]

/-- The targets that something is said about. -/
def troubledTargets (ts : List TargetRecord) : List TargetRecord :=
  ts.filter fun t => t.statusDetail.isSome || t.errorTrace.isSome

def troubledTargetLines (t : TargetRecord) : List String :=
  ("│   • " ++ t.name ++ match t.results with
    | some _ => ""
    | none => " (not evaluated)")
    :: ((t.statusDetail.toList ++ t.errorTrace.toList).flatMap detail).map ("│       " ++ ·)

/-- The lines of a panel before its parts. -/
def frontLines (source : String) (r : Report) (number total : Nat) : List String :=
  [ruler '┌' '─' '┐',
   "│ Report " ++ toString number ++ "/" ++ toString total ++ ": " ++ source,
   ruler '├' '─' '┤',
   "│ Benchmark:   " ++ r.benchmark.title ++ (match r.benchmark.displayVersion with
    | some version => " " ++ version
    | none => "")]
    ++ (if r.benchmark.profile = "" then [] else ["│ Profile:     " ++ r.benchmark.profile])
    ++ ["│ Rules:       " ++ distribution r.rules.length r.ruleTotals,
      "│ Targets:     " ++ distribution r.targets.length r.targetTotals]

/-- A part of a panel under a heading with a count. Without items there is no part. -/
def countedPart (heading : String) (count : Nat) (items : List String) : List String :=
  if count = 0 then [] else ruler '├' '─' '┤' :: (heading ++ toString count ++ "):") :: items

/-- A panel, and a line of progress, that say what the results of a report and the records of its
targets say. -/
structure Agrees (systems : List LinkSystem) (source : String) (r : Report) (ts : List TargetRecord)
    (number total : Nat) : Prop where
  lines : (panel systems ⟨source, r⟩).lines number total = frontLines source r number total
    ++ countedPart "│ Failing Rules (" (r.ruleTotals.get .fail)
      ((failedRules r).flatMap (failedRuleLines systems r))
    ++ countedPart "│ Target Diagnostics (" (troubledTargets ts).length
      ((troubledTargets ts).flatMap troubledTargetLines)
    ++ [ruler '└' '─' '┘', ""]
  headings : ((panel systems ⟨source, r⟩).lines number total).filter
      (fun l => Text.Begins "│ Failing Rules (" l)
    = if r.ruleTotals.get .fail = 0 then []
      else ["│ Failing Rules (" ++ toString (r.ruleTotals.get .fail) ++ "):"]
  count : (failedRules r).length = r.ruleTotals.get .fail
  names : ∀ e ∈ failedRules r, Report.namesAt r.targets e.2 .fail ≠ []
  progress : Text.Begins ("[" ++ toString number ++ "/" ++ toString total ++ "] ✗ ")
      (String.ofList (unpainted false (progressLine number total ⟨source, r⟩).toList))
    ↔ 0 < r.ruleTotals.get .fail

theorem panelPart_eq {α : Type} (heading : String) (items : List α) (lines : α → List String) :
    panelPart heading items lines
      = countedPart ("│ " ++ heading ++ " (") items.length (items.flatMap lines) := by
  cases items <;> rfl

private theorem icon_eq_cross_iff {c : Category} : c.icon = "✗" ↔ c = .fail := by
  cases c <;> decide

private theorem worstCategory_eq_fail_iff {t : CategoryTally} :
    worstCategory t = .fail ↔ 0 < t.get .fail := by
  rw [worstCategory_eq]
  split_ifs <;> simp [*]

/-- The numbers of a line of progress do not switch colours. -/
private theorem plain_numbers (number total : Nat) :
    '\x1b' ∉ ("[" ++ toString number ++ "/" ++ toString total ++ "] ").toList := by
  have hdigits : ∀ n : Nat, '\x1b' ∉ (toString n).toList := by
    intro n h
    cases Nat.isDigit_of_mem_toDigits (by decide) (by decide) (Nat.toList_repr ▸ h)
  simp only [String.toList_append, List.mem_append, not_or]
  exact ⟨⟨⟨⟨by decide, hdigits number⟩, by decide⟩, hdigits total⟩, by decide⟩

/-- Without colours the mark stands between the numbers and a blank. -/
private theorem unpainted_progressLine (r : Report) (source : String) (number total : Nat) :
    ∃ rest, unpainted false (progressLine number total ⟨source, r⟩).toList
      = ("[" ++ toString number ++ "/" ++ toString total ++ "] ").toList
        ++ ((worstCategory r.ruleTotals).icon.toList ++ ' ' :: rest) := by
  obtain ⟨rest, hrest⟩ : ∃ rest, progressLine number total ⟨source, r⟩
      = ("[" ++ toString number ++ "/" ++ toString total ++ "] ")
        ++ ((worstCategory r.ruleTotals).colour ++ ((worstCategory r.ruleTotals).icon
          ++ (plain ++ (" " ++ rest)))) := by
    unfold progressLine
    simp only [String.append_assoc]
    exact ⟨_, rfl⟩
  have hicon : '\x1b' ∉ (worstCategory r.ruleTotals).icon.toList := by
    cases worstCategory r.ruleTotals <;> decide
  have hnumbers := plain_numbers number total
  generalize "[" ++ toString number ++ "/" ++ toString total ++ "] " = numbers at hrest hnumbers ⊢
  refine ⟨unpainted false rest.toList, ?_⟩
  rw [hrest, String.toList_append, unpainted_append hnumbers, String.toList_append, switches_colour,
    String.toList_append, unpainted_append hicon, String.toList_append, switches_plain,
    String.toList_append, unpainted_append (by decide)]
  rfl

private theorem begins_progressLine (r : Report) (source : String) (number total : Nat) :
    Text.Begins ("[" ++ toString number ++ "/" ++ toString total ++ "] ✗ ")
      (String.ofList (unpainted false (progressLine number total ⟨source, r⟩).toList))
      ↔ 0 < r.ruleTotals.get .fail := by
  obtain ⟨rest, hrest⟩ := unpainted_progressLine r source number total
  have hstart : ∀ numbers : String, numbers ++ "] ✗ " = numbers ++ "] " ++ "✗ " := by
    intro numbers
    rw [String.append_assoc]
    rfl
  rw [← worstCategory_eq_fail_iff, Text.Begins, String.toList_ofList, hrest, hstart,
    String.toList_append, List.prefix_append_right_inj]
  cases worstCategory r.ruleTotals with
  | fail => exact iff_of_true ⟨rest, rfl⟩ rfl
  | pass | unknown | notApplicable =>
    refine iff_of_false (fun h => ?_) Category.noConfusion
    cases (List.cons_prefix_cons.mp h).1

/-- Lines about an item are indented. -/
private theorem begins_failedRuleLines {systems : List LinkSystem} {r : Report} {e : Rule × Nat}
    {l : String} (hl : l ∈ failedRuleLines systems r e) : Text.Begins "│   " l := by
  rw [failedRuleLines, List.mem_append, List.mem_pair] at hl
  obtain (rfl | rfl) | hl := hl
  · exact Text.Begins.append (by decide) _
  · exact Text.Begins.append (by decide) _
  · split at hl
    · cases hl
    · obtain rfl := List.mem_singleton.mp hl
      exact Text.Begins.append (by decide) _

private theorem begins_troubledTargetLines {t : TargetRecord} {l : String}
    (hl : l ∈ troubledTargetLines t) : Text.Begins "│   " l := by
  rw [troubledTargetLines, List.mem_cons, List.mem_map] at hl
  obtain rfl | ⟨line, _, rfl⟩ := hl
  · exact (Text.Begins.append (by decide) _).append _
  · exact Text.Begins.append (by decide) _

private theorem not_begins_ruler (left fill right : Char) (h : '│' ≠ left) :
    ¬ Text.Begins "│ Failing Rules (" (ruler left fill right) := by
  intro hp
  rw [Text.Begins, ruler, String.toList_ofList, String.toList_ofList, List.cons_append] at hp
  exact h (List.cons_prefix_cons.mp hp).1

private theorem not_begins_frontLines {source : String} {r : Report} {number total : Nat}
    {l : String}
    (hl : l ∈ frontLines source r number total) : ¬ Text.Begins "│ Failing Rules (" l := by
  simp only [frontLines, String.append_assoc, List.mem_append, List.mem_cons, List.not_mem_nil,
    or_false] at hl
  obtain ((rfl | rfl | rfl | rfl) | hl) | rfl | rfl := hl
  · exact not_begins_ruler _ _ _ (by decide)
  · exact (Text.begins_append "│ Report " _).not (by decide)
  · exact not_begins_ruler _ _ _ (by decide)
  · exact (Text.begins_append "│ Benchmark:   " _).not (by decide)
  · split at hl
    · cases hl
    · obtain rfl := List.mem_singleton.mp hl
      exact (Text.begins_append "│ Profile:     " _).not (by decide)
  · exact (Text.begins_append "│ Rules:       " _).not (by decide)
  · exact (Text.begins_append "│ Targets:     " _).not (by decide)

/-- Of a part with indented items only the heading can begin like a heading. -/
private theorem filter_countedPart (heading : String) (count : Nat) {items : List String}
    (h : ∀ l ∈ items, Text.Begins "│   " l) :
    (countedPart heading count items).filter (fun l => Text.Begins "│ Failing Rules (" l)
      = if count = 0 then [] else
        [heading ++ toString count ++ "):"].filter fun l => Text.Begins "│ Failing Rules (" l := by
  have hitems : items.filter (fun l => Text.Begins "│ Failing Rules (" l) = [] := by
    rw [List.filter_eq_nil_iff]
    intro l hl
    rw [decide_eq_true_eq]
    exact (h l hl).not (by decide)
  have hruler := not_begins_ruler '├' '─' '┤' (by decide)
  rw [countedPart]
  split
  · rfl
  · simp only [List.filter_cons, List.filter_nil, hruler, hitems, decide_false, if_false,
      Bool.false_eq_true]

/-- A panel has no other heading of failing rules than that of its part. -/
private theorem filter_heading (systems : List LinkSystem) (source : String) (r : Report)
    (ts : List TargetRecord) (number total count troubled : Nat) :
    (frontLines source r number total
      ++ countedPart "│ Failing Rules (" count
        ((failedRules r).flatMap (failedRuleLines systems r))
      ++ countedPart "│ Target Diagnostics (" troubled
        ((troubledTargets ts).flatMap troubledTargetLines)
      ++ [ruler '└' '─' '┘', ""]).filter (fun l => Text.Begins "│ Failing Rules (" l)
    = if count = 0 then [] else ["│ Failing Rules (" ++ toString count ++ "):"] := by
  have hfront : (frontLines source r number total).filter
      (fun l => Text.Begins "│ Failing Rules (" l) = [] := by
    rw [List.filter_eq_nil_iff]
    intro l hl
    rw [decide_eq_true_eq]
    exact not_begins_frontLines hl
  have hrules : ∀ l ∈ (failedRules r).flatMap (failedRuleLines systems r), Text.Begins "│   " l := by
    intro l hl
    obtain ⟨e, _, hl⟩ := List.mem_flatMap.mp hl
    exact begins_failedRuleLines hl
  have htargets : ∀ l ∈ (troubledTargets ts).flatMap troubledTargetLines, Text.Begins "│   " l := by
    intro l hl
    obtain ⟨t, _, hl⟩ := List.mem_flatMap.mp hl
    exact begins_troubledTargetLines hl
  have hheading := (Text.begins_append "│ Failing Rules (" (toString count)).append "):"
  have hother := ((Text.begins_append "│ Target Diagnostics (" (toString troubled)).append "):").not
    (p := "│ Failing Rules (") (by decide)
  have hend : ¬ Text.Begins "│ Failing Rules (" "" := by decide
  have hruler := not_begins_ruler '└' '─' '┘' (by decide)
  rw [List.filter_append, List.filter_append, List.filter_append, hfront, filter_countedPart _ _ hrules,
    filter_countedPart _ _ htargets]
  simp only [List.filter_cons, List.filter_nil, hheading, hother, hruler, hend, decide_true,
    decide_false, if_true, if_false, ite_self, List.append_nil, List.nil_append, Bool.false_eq_true]

end Console

namespace Report
open Console

/-- A rule fails exactly when some target failed it. -/
private theorem category_eq_fail_iff {r : Report} {i : Nat} {x : Rule}
    (hx : r.aggregate.rules[i]? = some x) :
    x.category = some .fail ↔ ∃ t ∈ r.aggregate.targets, t.results[i]? = some .fail := by
  obtain ⟨htotals, hcategory⟩ := aggregate_rule_settled (List.mem_of_getElem? hx)
  have hfail : x.totals.classify = .fail ↔ 0 < x.totals.get .fail := Tally.classify_eq_iff
  rw [hcategory, Option.some_inj, hfail, htotals, Partition.get_counts, List.length_pos_iff,
    get_aggregate_rule hx]
  exact namesAt_ne_nil_iff

private theorem rulesIn_fail (r : Report) :
    r.aggregate.rulesIn .fail = (failedRules r.aggregate).map Prod.swap := by
  rw [rulesIn, positioned, failedRules]
  congr 1
  refine List.filter_congr fun e he => ?_
  rw [decide_eq_decide]
  exact category_eq_fail_iff (List.mem_zipIdx_iff_getElem?.mp he)

private theorem length_failedRules (r : Report) :
    (failedRules r.aggregate).length = r.aggregate.ruleTotals.get .fail := by
  rw [get_aggregate_ruleTotals, rulesIn_fail, List.length_map]

private theorem lines_failingRules (systems : List LinkSystem) {r : Report}
    (hr : r.aggregate.Rectangular) :
    (failingRules systems r.aggregate).flatMap FailingRule.lines
      = (failedRules r.aggregate).flatMap (failedRuleLines systems r.aggregate) := by
  rw [failingRules, rulesIn_fail, List.map_map, List.flatMap_map]
  refine List.flatMap_congr fun e _ => ?_
  show FailingRule.lines ⟨e.1.title, (r.aggregate.targetsFor e.2 .fail).map (·.name), _⟩ = _
  rw [names_targetsFor hr, FailingRule.lines, failedRuleLines]
  cases e.1.references with
  | nil => rfl
  | cons ref refs =>
    have htexts : ((ref :: refs).map (Link.display systems)).map referenceText
        = (ref :: refs).map (linkText systems) := List.map_map
    simp only [htexts]
    rfl

section
variable {d : Document} {s : Settings} {b : Benchmark} {rules : List RuleRecord}
  {ts : List TargetRecord} {m : ResultMatrix} {x : NameIndex}

private theorem OpenedOn.diagnostics_finished (h : OpenedOn d s b rules ts m x) :
    diagnostics (opening b rules ts m x).aggregate = (troubledTargets ts).map fun t =>
      ⟨t.name, t.results.isNone, (t.statusDetail.toList ++ t.errorTrace.toList).flatMap detail⟩ := by
  rw [h.aggregate_opening]
  show ((ts.map (TargetRecord.finished rules.length)).filter Target.hasDiagnostics).map _ = _
  rw [List.filter_map, List.map_map]
  rfl

private theorem OpenedOn.lines_diagnostics (h : OpenedOn d s b rules ts m x) :
    (diagnostics (opening b rules ts m x).aggregate).flatMap Diagnostic.render
      = (troubledTargets ts).flatMap troubledTargetLines := by
  rw [h.diagnostics_finished, List.flatMap_map]
  refine List.flatMap_congr fun t _ => ?_
  rw [Diagnostic.render, troubledTargetLines]
  cases t.results <;> rfl

private theorem OpenedOn.lines_panel (h : OpenedOn d s b rules ts m x) (systems : List LinkSystem)
    (source : String) (number total : Nat) {r : Report} (hr : r = (opening b rules ts m x).aggregate) :
    (panel systems ⟨source, r⟩).lines number total = frontLines source r number total
      ++ countedPart "│ Failing Rules (" (r.ruleTotals.get .fail)
        ((failedRules r).flatMap (failedRuleLines systems r))
      ++ countedPart "│ Target Diagnostics (" (troubledTargets ts).length
        ((troubledTargets ts).flatMap troubledTargetLines)
      ++ [ruler '└' '─' '┘', ""] := by
  have hparts : (panel systems ⟨source, r⟩).lines number total = frontLines source r number total
      ++ panelPart "Failing Rules" (failingRules systems r) FailingRule.lines
      ++ panelPart "Target Diagnostics" (diagnostics r) Diagnostic.render
      ++ [ruler '└' '─' '┘', ""] := rfl
  have hfailing : (failingRules systems r).length = r.ruleTotals.get .fail := by
    rw [hr, get_aggregate_ruleTotals]
    exact List.length_map _
  have hdiagnostics : (diagnostics r).length = (troubledTargets ts).length := by
    rw [hr, h.diagnostics_finished, List.length_map]
  rw [hparts, panelPart_eq, panelPart_eq, hfailing, hdiagnostics]
  subst hr
  rw [lines_failingRules systems h.finished_rectangular, h.lines_diagnostics]
  rfl

end

/-- The console view of a finished report agrees with the report, whatever the systems of the links are
and whatever number the report has. There is a part about failing rules exactly when the totals have
such rules, and then its heading has their number; it lists the rules that some target failed, each with
the names of these targets, of which there is one at least, and with its references. The other part lists
the targets with a status or a trace, and says of which the document has no results. The line of progress
has a cross after its numbers exactly when there is the first part; no other category is marked so. -/
theorem build_panel_agrees {d : Document} {s : Settings} {r : Report} (h : (build d s).result = .ok r)
    (systems : List LinkSystem) (source : String) (number total : Nat) :
    (∃ ts, d.targets = some ts ∧ Agrees systems source r ts number total) ∧
    ∀ c : Category, c.icon = "✗" ↔ c = .fail := by
  obtain ⟨b, rules, ts, m, x, ho, rfl⟩ := build_opened h
  have hlines := ho.lines_panel systems source number total rfl
  refine ⟨⟨ts, by rw [ho.parts], hlines, ?_, length_failedRules _, ?_, begins_progressLine ..⟩,
    fun _ => icon_eq_cross_iff⟩
  · rw [hlines]
    exact filter_heading ..
  · intro e he
    rw [namesAt_ne_nil_iff]
    exact of_decide_eq_true (List.mem_filter.mp he).2

/-- Three targets, of which one fails a rule with a reference and one was not evaluated. -/
def linkedTargets : Document where
  benchmark := some .empty
  rules := some [⟨"a", "A", "", [], []⟩,
    ⟨"b", "B", "", [⟨"https://example.org/advisories", "A-1"⟩, ⟨"none", "8"⟩], []⟩]
  targets := some [⟨"host", none, none, some [.ofNat 1, .ofNat 2]⟩,
    ⟨"down", some "timeout", none, none⟩, ⟨"web", none, none, some [.ofNat 6, .ofNat 2]⟩]

def advisories : LinkSystem :=
  ⟨"https://example.org/advisories", "https://example.org/advisories/", ".html"⟩

theorem build_panel_agrees_linkedTargets :
    ∃ r ts, (build linkedTargets .default).result = .ok r ∧
      Agrees [advisories] "host.json" r ts 1 2 ∧ r.ruleTotals.get .fail = 1 ∧
      (failedRules r).flatMap (failedRuleLines [advisories] r)
        = ["│   • B", "│       Failed on: host, web",
          "│       References: A-1 <https://example.org/advisories/A-1.html>, 8"] ∧
      (troubledTargets ts).flatMap troubledTargetLines
        = ["│   • down (not evaluated)", "│       timeout"] ∧
      progressLine 1 2 ⟨"host.json", r⟩
        = "[1/2] \x1b[31m✗\x1b[0m host.json (2 rules, 3 targets)" := by
  have hb : ∃ r, (build linkedTargets .default).result = .ok r := ⟨_, rfl⟩
  obtain ⟨r, h⟩ := hb
  obtain ⟨⟨ts, hts, ha⟩, _⟩ := build_panel_agrees h [advisories] "host.json" 1 2
  refine ⟨r, ts, h, ha, ?_, ?_, ?_, ?_⟩
  · cases h
    rfl
  · cases h
    decide
  · obtain rfl := Option.some.inj hts
    decide
  · cases h
    decide +kernel

end Report
end Compliance
