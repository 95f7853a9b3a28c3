import Compliance.Run.Perform
import Mathlib.Data.List.Infix

/-! What is said about a fault or in a record of the log. However it is worded, the paths, names, numbers
and values that it is about can all be read in it. -/
namespace Compliance

namespace Text
variable {a b p : String}

def Has (text part : String) : Prop := part.toList <:+: text.toList

private theorem has_self (a : String) : Has a a := List.infix_rfl

private theorem Has.append_left (h : Has a p) (b : String) : Has (a ++ b) p := by
  rw [Has, String.toList_append]
  exact List.IsInfix.trans h (List.prefix_append ..).isInfix

private theorem Has.append_right (h : Has b p) (a : String) : Has (a ++ b) p := by
  rw [Has, String.toList_append]
  exact List.IsInfix.trans h (List.suffix_append ..).isInfix

private theorem has_append_self (a p : String) : Has (a ++ p) p := (has_self p).append_right a

end Text

open Text

/-- What a fault is about: paths, names, numbers and values. -/
def Fault.subjects : Fault → List String
  | .unreadable path e | .settingsUnreadable path e => [path, e.message]
  | .notDocument e => [e.message]
  | .badSettings e => [e.message]
  | .missingPart part => [part.name]
  | .malformedResult rule ruleId target value =>
    [String.ofList value.compact, toString rule, ruleId, target]
  | .wrongLength target expected actual => [target, toString expected, toString actual]
  | .duplicateName name first second => [name, toString first, toString second]

/-- A fault names what it is about. -/
theorem Fault.message_has (f : Fault) : ∀ s ∈ f.subjects, Has f.message s := by
  unfold subjects message
  cases f
  all_goals
    dsimp only
    simp only [List.forall_mem_cons, List.not_mem_nil, false_implies, implies_true, and_true]
    repeat' apply And.intro
  -- A subject is the end of the text once all that follows it has been taken off.
  all_goals
    repeat with_reducible first
      | exact has_self _
      | exact has_append_self ..
      | apply Has.append_left

def Event.subjects : Event → List String
  | .missingResults target rules detail => target :: toString rules :: detail.toList
  | .extraTotals ruleId length => [ruleId, toString length]
  | .clampedTotal ruleId declared outcome targets =>
    [ruleId, toString declared, outcome.label, toString targets]
  | .nameTakenOver name position previous => [name, toString position, toString previous]
  | .totalsMismatch rule ruleId declared observed =>
    [toString rule, ruleId, declared.describe, observed.describe]
  | .ruleRollup totals | .targetRollup totals | .aggregatedByRule totals
  | .aggregatedByTarget totals => [totals.describe]
  | .reading path => [path]
  | .readingFailed fault | .parsingFailed fault | .normalizingFailed fault => fault.subjects
  | .normalizing | .aggregatingByRule | .aggregatingByTarget => []
  | .normalized rules targets unevaluated =>
    [toString rules, toString targets, toString unevaluated]
  | .runStarted files => [toString files]
  | .fileAggregated path summary => [path, summary]
  | .fileFailed path fault => path :: fault.subjects
  | .runCompleted total aggregated errors milliseconds =>
    [toString total, toString aggregated, toString errors, milliseconds]

/-- A record names what it is about. Where that is a fault, it names what the fault is about. -/
theorem Event.message_has (e : Event) : ∀ s ∈ e.subjects, Has e.message s := by
  unfold subjects message
  cases e with
  | readingFailed f | parsingFailed f | normalizingFailed f =>
    exact fun s hs => (f.message_has s hs).append_right _
  | fileFailed path f =>
    intro s hs
    obtain rfl | hs := List.mem_cons.mp hs
    · exact ((has_append_self ..).append_left _).append_left _
    · exact (f.message_has s hs).append_right _
  | missingResults target rules detail =>
    intro s hs
    rw [List.mem_cons, List.mem_cons, Option.mem_toList] at hs
    obtain rfl | rfl | hs := hs
    · exact (((has_append_self ..).append_left _).append_left _).append_left _ |>.append_left _
    · exact ((has_append_self ..).append_left _).append_left _
    · obtain rfl : detail = some s := hs
      exact ((has_append_self ..).append_left _).append_right _
  | _ =>
    dsimp only
    simp only [List.forall_mem_cons, List.not_mem_nil, false_implies, implies_true, and_true]
    repeat' apply And.intro
    all_goals
      repeat with_reducible first
        | exact has_self _
        | exact has_append_self ..
        | apply Has.append_left

def RunError.subjects : RunError → List String
  | .inputNotFound path | .invalidInput path => [path]
  | .settings f => f.subjects
  | .results e => [e.message]
  | .unwritable path e => [path, e.message]

/-- A run that stops names the path, or the fault, that stopped it. -/
theorem RunError.message_has (e : RunError) : ∀ s ∈ e.subjects, Has e.message s := by
  intro s hs
  cases e with
  | inputNotFound | invalidInput | results =>
    obtain rfl := List.mem_singleton.mp hs
    exact has_append_self ..
  | settings f => exact (f.message_has s hs).append_right _
  | unwritable path e =>
    obtain rfl | rfl := List.mem_pair.mp hs
    · exact ((has_append_self ..).append_left _).append_left _
    · exact has_append_self ..

end Compliance
