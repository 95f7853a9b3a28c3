import Compliance.Document.Basic
import Compliance.Report.Navigate
import Compliance.Results.Summary
import Compliance.Text.Basic

/-!
Reports on the console: a line of progress for each file, a panel for each report, and a table
of the totals. A panel is first put together as data and then laid out.
-/
namespace Compliance

namespace Category

def colour : Category → String
  | .pass => "\x1b[32m"
  | .fail => "\x1b[31m"
  | .unknown => "\x1b[33m"
  | .notApplicable => "\x1b[36m"

def icon : Category → String
  | .pass => "✓"
  | .fail => "✗"
  | .unknown => "?"
  | .notApplicable => "-"

end Category

namespace Console

def plain : String := "\x1b[0m"

def detailWidth : Nat := 70

def detailLines : Nat := 3

structure FailingRule where
  title : String
  targets : List String
  references : List ReferenceDisplay
  deriving DecidableEq

structure Diagnostic where
  target : String
  unevaluated : Bool
  lines : List String
  deriving DecidableEq

structure Panel where
  source : String
  title : String
  version : Option String
  profile : String
  rules : Nat
  ruleTotals : CategoryTally
  targets : Nat
  targetTotals : CategoryTally
  failing : List FailingRule
  diagnostics : List Diagnostic
  deriving DecidableEq

def failingRules (systems : List LinkSystem) (r : Report) : List FailingRule :=
  (r.rulesIn .fail).map fun (i, rule) =>
    ⟨rule.title, (r.targetsFor i .fail).map (·.name), rule.references.map (Link.display systems)⟩

def detail (text : String) : List String :=
  ((Text.lines text).take detailLines).map (Text.clip · detailWidth)

def diagnostics (r : Report) : List Diagnostic :=
  (r.targets.filter Target.hasDiagnostics).map fun t =>
    ⟨t.name, t.unevaluated, (t.statusDetail.toList ++ t.errorTrace.toList).flatMap detail⟩

def panel (systems : List LinkSystem) (e : Entry) : Panel where
  source := e.source
  title := e.report.benchmark.title
  version := e.report.benchmark.displayVersion
  profile := e.report.benchmark.profile
  rules := e.report.rules.length
  ruleTotals := e.report.ruleTotals
  targets := e.report.targets.length
  targetTotals := e.report.targetTotals
  failing := failingRules systems e.report
  diagnostics := diagnostics e.report

def distribution (count : Nat) (t : CategoryTally) : String :=
  match Category.all.filter fun c => 0 < t.get c with
  | [] => toString count
  | cs => toString count ++ " (" ++ ", ".intercalate (cs.map fun c =>
      c.colour ++ toString (t.get c) ++ " " ++ c.phrase ++ plain) ++ ")"

def ruler (left fill right : Char) : String :=
  String.ofList (left :: List.replicate 79 fill ++ [right])

def framed (s : String) : String := "║" ++ s ++ "║"

/-- A line of that width between the sides of a double frame. -/
def boxed (s : String) : String := framed (Text.padRight s 79)

def referenceText (d : ReferenceDisplay) : String :=
  match d.url with
  | some url => d.text ++ " <" ++ url ++ ">"
  | none => d.text

def FailingRule.lines (f : FailingRule) : List String :=
  ["│   • " ++ f.title, "│       Failed on: " ++ ", ".intercalate f.targets]
    ++ if f.references = [] then []
      else ["│       References: " ++ ", ".intercalate (f.references.map referenceText)]

def Diagnostic.render (d : Diagnostic) : List String :=
  ("│   • " ++ d.target ++ if d.unevaluated then " (not evaluated)" else "")
    :: d.lines.map ("│       " ++ ·)

/-- A part of a panel with a heading that counts its items; there is none without items. -/
def panelPart {α : Type} (heading : String) (items : List α) (lines : α → List String) :
    List String :=
  if items.isEmpty then []
  else ruler '├' '─' '┤' :: ("│ " ++ heading ++ " (" ++ toString items.length ++ "):")
    :: items.flatMap lines

def Panel.lines (p : Panel) (number total : Nat) : List String :=
  [ruler '┌' '─' '┐',
   "│ Report " ++ toString number ++ "/" ++ toString total ++ ": " ++ p.source,
   ruler '├' '─' '┤',
   "│ Benchmark:   " ++ p.title ++ (match p.version with
    | some v => " " ++ v
    | none => "")]
    ++ (if p.profile = "" then [] else ["│ Profile:     " ++ p.profile])
    ++ ["│ Rules:       " ++ distribution p.rules p.ruleTotals,
      "│ Targets:     " ++ distribution p.targets p.targetTotals]
    ++ panelPart "Failing Rules" p.failing FailingRule.lines
    ++ panelPart "Target Diagnostics" p.diagnostics Diagnostic.render
    ++ [ruler '└' '─' '┘', ""]

def tableRow (before label after : String) (rules targets : Nat) : String :=
  framed ("   " ++ before ++ Text.padRight label 22 ++ after ++ Text.padLeft (toString rules) 5
    ++ "   " ++ Text.padLeft (toString targets) 7 ++ String.ofList (List.replicate 38 ' '))

/-- Adds the counts of a report to the rows of the table, category by category. A row has the number
of rules and that of targets. -/
def addReport (rows : PerCategory (Nat × Nat)) (r : Report) : PerCategory (Nat × Nat) :=
  Category.all.foldl (fun rows c => rows.modify c fun row =>
    (row.1 + r.ruleTotals.get c, row.2 + r.targetTotals.get c)) rows

def tableRows (entries : List Entry) : PerCategory (Nat × Nat) :=
  entries.foldl (fun rows e => addReport rows e.report) (.ofFn fun _ => (0, 0))

def tableLines (entries : List Entry) : List String :=
  let rows := tableRows entries
  let rules := sumOf (rows.toList.map (·.1))
  let targets := sumOf (rows.toList.map (·.2))
  let line := boxed ("   " ++ String.ofList (List.replicate 41 '─'))
  [ruler '╔' '═' '╗',
   boxed "                                 SUMMARY",
   ruler '╠' '═' '╣',
   boxed "",
   framed ("   Total Reports: " ++ Text.padLeft (toString entries.length) 3
    ++ String.ofList (List.replicate 57 ' ')),
   boxed "",
   boxed "   By Category:           Rules   Targets",
   line]
    ++ Category.all.map (fun c => tableRow c.colour c.label plain (rows.get c).1 (rows.get c).2)
    ++ [line,
      tableRow "" "Total" "" rules targets,
      boxed "",
      ruler '╚' '═' '╝',
      ""]

/-- Everything about the reports; nothing if there are none. -/
def resultLines (systems : List LinkSystem) (entries : List Entry) : List String :=
  if entries.isEmpty then []
  else
    ["", ruler '╔' '═' '╗', boxed "                             COMPLIANCE REPORT",
      ruler '╚' '═' '╝', ""]
      ++ entries.zipIdx.flatMap (fun e => (panel systems e.1).lines (e.2 + 1) entries.length)
      ++ tableLines entries

/-- The first category, in the order of their weight, that any rule is in. -/
def worstCategory (t : CategoryTally) : Category :=
  (([.fail, .unknown, .pass] : List Category).find? fun c => 0 < t.get c).getD .notApplicable

def progressLine (number total : Nat) (e : Entry) : String :=
  let worst := worstCategory e.report.ruleTotals
  "[" ++ toString number ++ "/" ++ toString total ++ "] " ++ worst.colour ++ worst.icon ++ plain
    ++ " " ++ e.source ++ " (" ++ toString e.report.rules.length ++ " rules, "
    ++ toString e.report.targets.length ++ " targets)"

def failureLine (number total : Nat) (source : String) (f : Fault) : String :=
  "[" ++ toString number ++ "/" ++ toString total ++ "] \x1b[31m✗\x1b[0m " ++ source
    ++ " (ERROR: " ++ f.message ++ ")"

end Console
end Compliance
