/-!
Outcomes of one rule on one target, and the four categories they collapse into.
The ordinal of an outcome is the number by which scan documents write it.
-/
namespace Compliance

/-- What a scan recorded for one rule on one target, in ordinal order. -/
inductive Outcome where
  | pass | fail | error | unknown | notChecked | notApplicable | notSelected | informational
  deriving DecidableEq

/-- What a set of outcomes amounts to, in the order of the summary tables. -/
inductive Category where
  | pass | fail | unknown | notApplicable
  deriving DecidableEq

namespace Outcome

def all : List Outcome :=
  [.pass, .fail, .error, .unknown, .notChecked, .notApplicable, .notSelected, .informational]

def index : Outcome → Nat
  | .pass => 0
  | .fail => 1
  | .error => 2
  | .unknown => 3
  | .notChecked => 4
  | .notApplicable => 5
  | .notSelected => 6
  | .informational => 7

/-- Documents count outcomes from one. -/
def ordinal (o : Outcome) : Nat := o.index + 1

def ofOrdinal? : Nat → Option Outcome
  | 1 => some .pass
  | 2 => some .fail
  | 3 => some .error
  | 4 => some .unknown
  | 5 => some .notChecked
  | 6 => some .notApplicable
  | 7 => some .notSelected
  | 8 => some .informational
  | _ => none

def category : Outcome → Category
  | .pass => .pass
  | .fail => .fail
  | .error | .unknown | .notChecked => .unknown
  | .notApplicable | .notSelected | .informational => .notApplicable

def label : Outcome → String
  | .pass => "PASS"
  | .fail => "FAIL"
  | .error => "ERROR"
  | .unknown => "UNKNOWN"
  | .notChecked => "NOT CHECKED"
  | .notApplicable => "NOT APPLICABLE"
  | .notSelected => "NOT SELECTED"
  | .informational => "INFORMATIONAL"

def name : Outcome → String
  | .pass => "PASS"
  | .fail => "FAIL"
  | .error => "ERROR"
  | .unknown => "UNKNOWN"
  | .notChecked => "NOT_CHECKED"
  | .notApplicable => "NOT_APPLICABLE"
  | .notSelected => "NOT_SELECTED"
  | .informational => "INFORMATIONAL"

@[simp] theorem mem_all (o : Outcome) : o ∈ all := by cases o <;> decide

@[simp] theorem ofOrdinal?_ordinal (o : Outcome) : ofOrdinal? o.ordinal = some o := by
  cases o <;> rfl

theorem ofOrdinal?_eq_some {n : Nat} {o : Outcome} (h : ofOrdinal? n = some o) :
    o.ordinal = n := by
  unfold ofOrdinal? at h
  split at h <;> cases h <;> rfl

end Outcome

namespace Category

def all : List Category := [.pass, .fail, .unknown, .notApplicable]

def index : Category → Nat
  | .pass => 0
  | .fail => 1
  | .unknown => 2
  | .notApplicable => 3

def members : Category → List Outcome
  | .pass => [.pass]
  | .fail => [.fail]
  | .unknown => [.error, .unknown, .notChecked]
  | .notApplicable => [.notApplicable, .notSelected, .informational]

def label : Category → String
  | .pass => "Pass"
  | .fail => "Fail"
  | .unknown => "Unknown"
  | .notApplicable => "Not Applicable"

def phrase : Category → String
  | .pass => "pass"
  | .fail => "fail"
  | .unknown => "unknown"
  | .notApplicable => "not applicable"

def name : Category → String
  | .pass => "PASS"
  | .fail => "FAIL"
  | .unknown => "UNKNOWN"
  | .notApplicable => "NOT_APPLICABLE"

def legend : Category → String
  | .pass => "Pass (no failures or errors)"
  | .fail => "Fail (some failures)"
  | .unknown => "Unknown (some unknown, no failures)"
  | .notApplicable => "Not Applicable"

def style : Category → String
  | .pass => "success"
  | .fail => "danger"
  | .unknown => "warning"
  | .notApplicable => "info"

@[simp] theorem mem_all (c : Category) : c ∈ all := by cases c <;> decide

end Category

def Outcome.style (o : Outcome) : String := o.category.style

end Compliance
