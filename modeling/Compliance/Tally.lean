import Compliance.Decimal.Double
import Compliance.PerOutcome

/-!
Counters of outcomes and of categories. A counter is a 64-bit word, so counting and adding
stop at its largest value; sums over a group are exact. A pie chart enlarges a slice that is no
larger than a 72nd of the pie, so that it stays visible.
-/
namespace Compliance

def counterMax : Nat := 0xFFFFFFFFFFFFFFFF

def capped (n : Nat) : Nat := min n counterMax

def sumOf (ns : List Nat) : Nat := ns.foldr (· + ·) 0

abbrev Tally := PerOutcome Nat

abbrev CategoryTally := PerCategory Nat

namespace Tally

def empty : Tally := .ofFn fun _ => 0

def single (o : Outcome) (n : Nat) : Tally := .ofFn fun p => if p = o then n else 0

def increment (t : Tally) (o : Outcome) : Tally := t.modify o fun n => capped (n + 1)

def add (t u : Tally) : Tally := .zipWith (fun m n => capped (m + n)) t u

/-- All counters together, stopping at the largest value of one. -/
def total (t : Tally) : Nat := t.toList.foldl (fun s n => capped (s + n)) 0

def isEmpty (t : Tally) : Bool := t.total == 0

def ofCategory (t : Tally) (c : Category) : Nat := sumOf (c.members.map t.get)

def byCategory (t : Tally) : CategoryTally := .ofFn t.ofCategory

/-- A failure outweighs doubt, doubt outweighs success, and what has none of the three does
not apply. -/
def classify (t : Tally) : Category :=
  if 0 < t.get .fail then .fail
  else if 0 < t.ofCategory .unknown then .unknown
  else if 0 < t.get .pass then .pass
  else .notApplicable

/-- The counts by category, unless one of them is no 64-bit word. -/
def byCategory? (t : Tally) : Option CategoryTally :=
  if Category.all.all fun c => t.ofCategory c ≤ counterMax then some t.byCategory else none

/-- The classification, unless it hangs on a count that is no 64-bit word. -/
def classify? (t : Tally) : Option Category :=
  if 0 < t.get .fail ∨ t.ofCategory .unknown ≤ counterMax then some t.classify else none

@[simp] theorem get_empty (o : Outcome) : empty.get o = 0 := PerOutcome.get_ofFn _ _

@[simp] theorem get_single (o p : Outcome) (n : Nat) :
    (single o n).get p = if p = o then n else 0 := PerOutcome.get_ofFn _ _

@[simp] theorem get_add (t u : Tally) (o : Outcome) :
    (t.add u).get o = capped (t.get o + u.get o) := PerOutcome.get_zipWith _ _ _ _

@[simp] theorem get_increment (t : Tally) (o p : Outcome) :
    (t.increment o).get p = if p = o then capped (t.get p + 1) else t.get p :=
  PerOutcome.get_modify _ _ _ _

end Tally

namespace CategoryTally

def empty : CategoryTally := .ofFn fun _ => 0

def increment (t : CategoryTally) (c : Category) : CategoryTally := t.modify c (· + 1)

def add (t u : CategoryTally) : CategoryTally := .zipWith (· + ·) t u

def total (t : CategoryTally) : Nat := sumOf t.toList

@[simp] theorem get_empty (c : Category) : empty.get c = 0 := PerCategory.get_ofFn _ _

@[simp] theorem get_increment (t : CategoryTally) (c d : Category) :
    (t.increment c).get d = if d = c then t.get d + 1 else t.get d :=
  PerCategory.get_modify _ _ _ _

@[simp] theorem get_add (t u : CategoryTally) (c : Category) :
    (t.add u).get c = t.get c + u.get c := PerCategory.get_zipWith _ _ _ _

/-- A 72nd of the total, computed in floating point and rounded to a whole number. -/
def minimumSlice (t : CategoryTally) : Nat :=
  capped (Decimal.roundUnits
    (Decimal.divUnits (Decimal.unitsOfNat t.total) (Decimal.unitsOfNat 72)))

def slices (t : CategoryTally) : CategoryTally :=
  t.map fun n => if n ≠ 0 ∧ n ≤ t.minimumSlice then n + t.minimumSlice else n

end CategoryTally
end Compliance
