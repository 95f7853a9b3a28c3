import Compliance.Proofs.Panels
import Compliance.Proofs.TextLines
import Mathlib.Data.List.Forall2

/-! What the console says about the trouble with targets: under the name of a target the first lines of
its status and then those of its trace, as many of each and as much of a line as the console has room
for. -/
namespace Compliance.Console

/-- What is shown of a text: its first three lines, each in seventy characters. -/
structure Excerpt (text : String) (shown : List String) : Prop where
  first : ∃ lines, Text.HasLines text.toList lines ∧
    List.Forall₂ (Text.Clipped 70) (lines.take 3) (shown.map String.toList)
  few : shown.length ≤ 3
  narrow : ∀ line ∈ shown, line.length ≤ 70

/-- What is shown of a text, if there is one. -/
inductive ExcerptOf : Option String → List String → Prop where
  | absent : ExcerptOf none []
  | present {text : String} {shown : List String} (excerpt : Excerpt text shown) :
      ExcerptOf (some text) shown

/-- The lines about a target. -/
inductive Describes (t : Target) : List String → Prop where
  | intro {status trace : List String} (statusShown : ExcerptOf t.statusDetail status)
      (traceShown : ExcerptOf t.errorTrace trace) :
      Describes t (("│   • " ++ t.name ++ if t.unevaluated then " (not evaluated)" else "")
        :: (status ++ trace).map ("│       " ++ ·))

private theorem clipped_detail (text : String) :
    List.Forall₂ (Text.Clipped 70) ((Text.linesAfter [] text.toList).take 3)
      ((detail text).map String.toList) := by
  have hdetail : (detail text).map String.toList
      = ((Text.linesAfter [] text.toList).take 3).map
        fun line => (Text.clip (String.ofList line) 70).toList := by
    rw [detail, Text.lines, ← List.map_take, List.map_map, List.map_map]
    rfl
  rw [hdetail, List.forall₂_map_right_iff, List.forall₂_same]
  intro line _
  have hroom : 3 ≤ 70 := by decide
  have hclip := Text.clip_clipped (String.ofList line) hroom
  rwa [String.toList_ofList] at hclip

private theorem excerpt_detail (text : String) : Excerpt text (detail text) where
  first := ⟨_, Text.hasLines_linesAfter List.not_mem_nil text.toList, clipped_detail text⟩
  few := by
    rw [detail, List.length_map]
    exact List.length_take_le _ _
  narrow line hline := by
    obtain ⟨l, _, rfl⟩ := List.mem_map.mp hline
    exact Text.length_clip_le l (by decide)

example : detail "\nat\rport\nmore\r\nlast\n" = ["", "at\rport", "more"] := by decide

private theorem excerptOf_details (text : Option String) :
    ExcerptOf text (text.toList.flatMap detail) := by
  cases text with
  | none => exact .absent
  | some text =>
    rw [Option.toList_some, List.flatMap_singleton]
    exact .present (excerpt_detail text)

/-- What is known about the trouble with a target, as it is shown. -/
def diagnosticLines (t : Target) : List String :=
  Diagnostic.render
    ⟨t.name, t.unevaluated, (t.statusDetail.toList ++ t.errorTrace.toList).flatMap detail⟩

private theorem describes_diagnosticLines (t : Target) : Describes t (diagnosticLines t) := by
  rw [diagnosticLines, List.flatMap_append]
  exact .intro (excerptOf_details t.statusDetail) (excerptOf_details t.errorTrace)

private theorem panelPart_diagnostics (r : Report) :
    panelPart "Target Diagnostics" (diagnostics r) Diagnostic.render
      = countedPart "│ Target Diagnostics (" (r.targets.filter Target.hasDiagnostics).length
        ((r.targets.filter Target.hasDiagnostics).flatMap diagnosticLines) := by
  rw [panelPart_eq, diagnostics, List.length_map, List.flatMap_map]
  rfl

/-- A panel describes the targets with a status or a trace, in their order, and has no such part without
them. A text has one list of lines, at either kind of line end. In any width that has room for the dots
no more than the width is shown of a line, and a line that is too long is cut between characters. -/
theorem panel_describes (systems : List LinkSystem) (source : String) (r : Report)
    (number total : Nat) :
    (∃ blocks, List.Forall₂ Describes (r.targets.filter Target.hasDiagnostics) blocks ∧
      (panel systems ⟨source, r⟩).lines number total = frontLines source r number total
        ++ panelPart "Failing Rules" (failingRules systems r) FailingRule.lines
        ++ countedPart "│ Target Diagnostics (" blocks.length blocks.flatten
        ++ [ruler '└' '─' '┘', ""]) ∧
    (∀ text, ∃! lines, Text.HasLines text lines) ∧
    ∀ line width, 3 ≤ width → (Text.clip line width).length ≤ width ∧
      ∀ shown, Text.clip line width = shown ↔ Text.Clipped width line.toList shown.toList := by
  refine ⟨⟨(r.targets.filter Target.hasDiagnostics).map diagnosticLines, ?_, ?_⟩, fun text => ?_,
    fun line width hwidth => ⟨Text.length_clip_le line hwidth, fun shown => Text.clip_eq_iff hwidth⟩⟩
  · rw [List.forall₂_map_right_iff, List.forall₂_same]
    exact fun t _ => describes_diagnosticLines t
  · rw [List.length_map, ← List.flatMap_def, ← panelPart_diagnostics]
    rfl
  · exact ⟨_, Text.linesAfter_eq_iff.mp rfl, fun lines hlines => hlines.eq.symm⟩

/-- A target with lines that end in both ways, and with a line too many. -/
def down : Target where
  name := "down"
  statusDetail := some "no route\r\nto host"
  errorTrace := some "\nat\rport\nmore\r\nlast\n"
  results := []
  rules := .empty
  unevaluated := true
  category := none

theorem panel_describes_wideLetters :
    (∃ blocks, List.Forall₂ Describes [down] blocks ∧
      (panel [] ⟨"down.json", ⟨.empty, [], [down], .empty, .empty, .empty⟩⟩).lines 1 2
        = frontLines "down.json" ⟨.empty, [], [down], .empty, .empty, .empty⟩ 1 2
          ++ countedPart "│ Target Diagnostics (" blocks.length blocks.flatten
          ++ [ruler '└' '─' '┘', ""]) ∧
    3 ≤ 8 ∧ Text.clip "Größenmaß" 8 = "Größe..." ∧
    Text.Clipped 8 "Größenmaß".toList "Größe...".toList := by
  obtain ⟨⟨blocks, hblocks, hlines⟩, -, hclip⟩ :=
    panel_describes [] "down.json" ⟨.empty, [], [down], .empty, .empty, .empty⟩ 1 2
  have hshown : Text.clip "Größenmaß" 8 = "Größe..." := by decide
  refine ⟨⟨blocks, hblocks, ?_⟩, by decide, hshown, ((hclip _ 8 (by decide)).2 _).mp hshown⟩
  rw [hlines]
  rfl

end Compliance.Console
