import Compliance.Tally

/-!
Items sorted into one list for each outcome, in the order in which they came.
-/
namespace Compliance
universe u

abbrev Partition (α : Type u) := PerOutcome (List α)

namespace Partition
variable {α : Type u}

def empty : Partition α := .ofFn fun _ => []

def push (p : Partition α) (o : Outcome) (a : α) : Partition α := p.modify o (· ++ [a])

def clear (p : Partition α) : Partition α := p.map fun _ => []

def counts (p : Partition α) : Tally := p.map List.length

def size (p : Partition α) : Nat := p.toList.flatten.length

def isEmpty (p : Partition α) : Bool := p.toList.all List.isEmpty

/-- Outcomes that have items, in ordinal order, with their items. -/
def nonEmpty (p : Partition α) : List (Outcome × List α) :=
  (Outcome.all.map fun o => (o, p.get o)).filter fun e => !e.2.isEmpty

@[simp] theorem get_empty (o : Outcome) : (empty : Partition α).get o = [] :=
  PerOutcome.get_ofFn _ _

@[simp] theorem get_push (p : Partition α) (o q : Outcome) (a : α) :
    (p.push o a).get q = if q = o then p.get q ++ [a] else p.get q :=
  PerOutcome.get_modify _ _ _ _

@[simp] theorem get_clear (p : Partition α) (o : Outcome) : p.clear.get o = [] :=
  PerOutcome.get_map _ _ _

@[simp] theorem get_counts (p : Partition α) (o : Outcome) :
    p.counts.get o = (p.get o).length := PerOutcome.get_map _ _ _

end Partition
end Compliance
