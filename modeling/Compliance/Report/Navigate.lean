import Compliance.Report.Basic

/-!
Ways through a report: from a rule to its targets, from a target to its rules, and from a
category to its members.
-/
namespace Compliance

/-- A link from a rule to a target. The position is missing when the name is in no index. -/
structure TargetLink where
  name : String
  position : Option Nat
  deriving DecidableEq

structure RuleLink where
  position : Nat
  title : String
  deriving DecidableEq

def TargetLink.anchor (l : TargetLink) : Option String := l.position.map Target.anchor

def RuleLink.anchor (l : RuleLink) : String := Rule.anchor l.position

namespace Report

def targetsFor (r : Report) (rule : Nat) (o : Outcome) : List TargetLink :=
  match r.rules[rule]? with
  | some x => (x.targets.get o).map fun name => ⟨name, r.names.position name⟩
  | none => []

/-- Rules for which a target has an outcome. Positions past the last rule are dropped. -/
def rulesFor (r : Report) (target : Nat) (o : Outcome) : List RuleLink :=
  match r.targets[target]? with
  | some x => (x.rules.get o).filterMap fun i => r.rules[i]?.map fun rule => ⟨i, rule.title⟩
  | none => []

/-- The members of a list that satisfy a condition, with their positions. -/
def positioned {α : Type} (p : α → Bool) (xs : List α) : List (Nat × α) :=
  (xs.zipIdx.filter fun e => p e.1).map fun e => (e.2, e.1)

def rulesIn (r : Report) (c : Category) : List (Nat × Rule) :=
  positioned (fun x => x.category = some c) r.rules

def targetsIn (r : Report) (c : Category) : List (Nat × Target) :=
  positioned (fun x => x.category = some c) r.targets

def unevaluatedTargets (r : Report) : List (Nat × Target) :=
  positioned (fun x => x.unevaluated) r.targets

end Report
end Compliance
