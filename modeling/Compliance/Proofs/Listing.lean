import Compliance.Proofs.CrossLinks
import Compliance.Report.Text

/-! The listing of a finished report. Each rule and each target has one block of lines, and a block says
more than its head exactly when its category is a bad one: what the listing picks out and what the
categories weigh are the same outcomes. -/
namespace Compliance

/-- The counts of a bad category have an outcome that needs attention, and those of a good one have
none. -/
private theorem Tally.bad_classify_iff (t : Tally) : t.classify = .fail ∨ t.classify = .unknown ↔
    ∃ o ∈ Outcome.needsAttention, 0 < t.get o := by
  rw [classify_eq_iff, classify_eq_iff]
  simp only [RollsUpTo, Outcome.needsAttention, List.mem_cons, List.not_mem_nil, or_false,
    exists_eq_or_imp, exists_eq_left]
  omega

namespace Report

/-- Titles of the rules for which a target has an outcome, in the order of the rules. -/
def titlesAt (rules : List Rule) (t : Target) (o : Outcome) : List String :=
  (rules.zipIdx.filter fun e => t.results[e.2]? = some o).map fun e => e.1.title

/-- A block of a listing: its head, and one line for each outcome that needs attention and has items. -/
structure Shows (block head : List String) (items : Outcome → List String) (c : Category) :
    Prop where
  lines : block = head
    ++ (([.fail, .error, .unknown, .notChecked] : List Outcome).filter fun o => items o ≠ []).map
      fun o => "    " ++ o.label ++ ": " ++ ", ".intercalate (items o)
  bad : head.length < block.length ↔ c = .fail ∨ c = .unknown

private theorem attentionLines_eq (items : Outcome → List String) : attentionLines items
    = (Outcome.needsAttention.filter fun o => items o ≠ []).map fun o =>
      "    " ++ o.label ++ ": " ++ ", ".intercalate (items o) := by
  rw [attentionLines]
  induction Outcome.needsAttention with
  | nil => rfl
  | cons o os ih => by_cases h : items o = [] <;> simp [h, ih]

/-- Where the items of an outcome are missing exactly when its class is empty, the category of the
classes tells whether there is a line. -/
theorem attentionLines_shows {α : Type} {p : Partition α} {items : Outcome → List String}
    (h : ∀ o, items o = [] ↔ p.get o = []) (head : List String) :
    Shows (head ++ attentionLines items) head items p.counts.classify where
  lines := by rw [attentionLines_eq, Outcome.needsAttention]
  bad := by
    rw [attentionLines_eq, List.length_append, List.length_map, Nat.lt_add_right_iff_pos,
      List.length_filter_pos_iff, p.counts.bad_classify_iff]
    refine exists_congr fun o => and_congr_right fun _ => ?_
    rw [Partition.get_counts, List.length_pos_iff, decide_eq_true_eq, ne_eq, h]

private theorem categoryMark_some (c : Category) :
    categoryMark (some c) ++ " " = "[" ++ c.label ++ "] " := by
  rw [categoryMark, String.append_assoc]
  rfl

section
variable {r : Report} (hr : r.aggregate.Rectangular)
include hr

/-- The positions under a target, read off the list of the rules. -/
theorem get_sorted_zipIdx {j : Nat} {t : Target} (ht : r.aggregate.targets[j]? = some t)
    (o : Outcome) : t.rules.get o
      = (r.aggregate.rules.zipIdx.filter fun e => t.results[e.2]? = some o).map Prod.snd := by
  have hm := List.mem_of_getElem? ht
  rw [get_aggregate_target hm, hr t hm, List.range_eq_range', ← List.zipIdx_map_snd, List.filter_map]
  rfl

private theorem rulesFor_zipIdx {j : Nat} {t : Target} (ht : r.aggregate.targets[j]? = some t)
    (o : Outcome) : r.aggregate.rulesFor j o
      = (r.aggregate.rules.zipIdx.filter fun e => t.results[e.2]? = some o).map fun e =>
        ⟨e.2, e.1.title⟩ := by
  rw [rulesFor, ht]
  show List.filterMap _ _ = _
  rw [get_sorted_zipIdx hr ht, List.filterMap_map, ← List.filterMap_eq_map]
  refine List.filterMap_congr fun e he => ?_
  have hrule := List.mem_zipIdx_iff_getElem?.mp (List.mem_filter.mp he).1
  simp only [Function.comp_apply, hrule]
  rfl

private theorem titles_rulesFor {j : Nat} {t : Target} (ht : r.aggregate.targets[j]? = some t)
    (o : Outcome) :
    (r.aggregate.rulesFor j o).map RuleLink.title = titlesAt r.aggregate.rules t o := by
  rw [rulesFor_zipIdx hr ht, List.map_map, titlesAt]
  rfl

/-- The block of a rule. -/
private theorem ruleLines_shows {i : Nat} {x : Rule} (hx : r.aggregate.rules[i]? = some x) :
    ∃ c, x.category = some c ∧ Shows (r.aggregate.ruleLines i x)
      ["[" ++ c.label ++ "] " ++ x.id ++ ": " ++ x.title] (namesAt r.aggregate.targets i) c := by
  obtain ⟨htotals, hcategory⟩ := aggregate_rule_settled (List.mem_of_getElem? hx)
  rw [htotals] at hcategory
  have hitems : (fun o => (r.aggregate.targetsFor i o).map (·.name)) = namesAt r.aggregate.targets i := by
    funext o
    exact names_targetsFor hr i o
  have hclass : ∀ o, namesAt r.aggregate.targets i o = [] ↔ x.targets.get o = [] := by
    intro o
    rw [get_aggregate_rule hx, namesAt]
  refine ⟨_, hcategory, ?_⟩
  rw [ruleLines, hcategory, hitems, categoryMark_some]
  exact attentionLines_shows hclass [_]

/-- The block of a target. -/
private theorem targetLines_shows {j : Nat} {t : Target} (ht : r.aggregate.targets[j]? = some t) :
    ∃ c, t.category = some c ∧ Shows (r.aggregate.targetLines j t)
      (("[" ++ c.label ++ "] " ++ t.name) :: t.statusDetail.toList.map ("    Status: " ++ ·))
      (titlesAt r.aggregate.rules t) c := by
  have hcategory := aggregate_target_settled (List.mem_of_getElem? ht)
  have hitems : (fun o => (r.aggregate.rulesFor j o).map (·.title)) = titlesAt r.aggregate.rules t := by
    funext o
    exact titles_rulesFor hr ht o
  have hclass : ∀ o, titlesAt r.aggregate.rules t o = [] ↔ t.rules.get o = [] := by
    intro o
    rw [get_sorted_zipIdx hr ht, titlesAt, List.map_eq_nil_iff, List.map_eq_nil_iff]
  refine ⟨_, hcategory, ?_⟩
  rw [targetLines, hcategory, hitems, categoryMark_some]
  exact attentionLines_shows hclass (_ :: t.statusDetail.toList.map _)

end

/-- The listing of a finished report hides no failure and invents none. After its heads it consists of
one block for each rule and one for each target, in their order. A rule lists the names of the targets
with an outcome, a target its status and the titles of the rules, for each outcome that needs attention
and that there is; and a block has such a line exactly when its category is a failure or in doubt. -/
theorem build_reportText {d : Document} {s : Settings} {r : Report}
    (h : (build d s).result = .ok r) :
    ∃ ruleBlocks targetBlocks : List (List String),
      r.reportText = String.join ((r.headLines
        ++ "" :: "=== Results by Rule ===" :: ruleBlocks.flatten
        ++ "" :: "=== Results by Target ===" :: targetBlocks.flatten).map (· ++ "\n")) ∧
      ruleBlocks.length = r.rules.length ∧ targetBlocks.length = r.targets.length ∧
      (∀ (i : Nat) (x : Rule) (block : List String), r.rules[i]? = some x →
        ruleBlocks[i]? = some block → ∃ c, x.category = some c ∧
          Shows block ["[" ++ c.label ++ "] " ++ x.id ++ ": " ++ x.title] (namesAt r.targets i) c) ∧
      ∀ (j : Nat) (t : Target) (block : List String), r.targets[j]? = some t →
        targetBlocks[j]? = some block → ∃ c, t.category = some c ∧
          Shows block (("[" ++ c.label ++ "] " ++ t.name)
            :: t.statusDetail.toList.map ("    Status: " ++ ·)) (titlesAt r.rules t) c := by
  obtain ⟨b, rules, ts, m, x, ho, rfl⟩ := build_opened h
  have hr := ho.finished_rectangular
  refine ⟨_, _, rfl, ?_, ?_, ?_, ?_⟩
  · rw [List.length_map, List.length_zipIdx]
  · rw [List.length_map, List.length_zipIdx]
  · intro i y block hy hblock
    rw [List.getElem?_map, List.getElem?_zipIdx, hy] at hblock
    obtain rfl := Option.some.inj hblock
    rw [Nat.zero_add]
    exact ruleLines_shows hr hy
  · intro j t block ht hblock
    rw [List.getElem?_map, List.getElem?_zipIdx, ht] at hblock
    obtain rfl := Option.some.inj hblock
    rw [Nat.zero_add]
    exact targetLines_shows hr ht

theorem build_reportText_threeTargets :
    ∃ r, ∃ ruleBlocks targetBlocks : List (List String),
      (build (threeTargets "web") ⟨.reject, []⟩).result = .ok r ∧
      r.reportText = String.join ((r.headLines
        ++ "" :: "=== Results by Rule ===" :: ruleBlocks.flatten
        ++ "" :: "=== Results by Target ===" :: targetBlocks.flatten).map (· ++ "\n")) ∧
      ruleBlocks = [["[Unknown] a: A", "    ERROR: down"],
        ["[Fail] b: B", "    FAIL: host", "    ERROR: down"]] ∧
      targetBlocks[1]? = some ["[Unknown] down", "    Status: timeout", "    ERROR: A, B"] := by
  have hb : ∃ r, (build (threeTargets "web") ⟨.reject, []⟩).result = .ok r := ⟨_, rfl⟩
  obtain ⟨r, h⟩ := hb
  obtain ⟨ruleBlocks, targetBlocks, htext, hrules, htargets, hrule, htarget⟩ := build_reportText h
  refine ⟨r, ruleBlocks, targetBlocks, h, htext, ?_, ?_⟩
  · cases h
    obtain ⟨y, z, rfl⟩ := List.length_eq_two.mp hrules
    obtain ⟨c, hc, hy⟩ := hrule 0 _ y rfl rfl
    obtain ⟨e, he, hz⟩ := hrule 1 _ z rfl rfl
    rw [hy.lines, hz.lines]
    cases hc
    cases he
    decide
  · cases h
    obtain ⟨y, z, w, rfl⟩ := List.length_eq_three.mp htargets
    obtain ⟨c, hc, hz⟩ := htarget 1 _ z rfl rfl
    cases hc
    rw [List.getElem?_cons_succ, List.getElem?_cons_zero, hz.lines]
    decide

end Report
end Compliance
