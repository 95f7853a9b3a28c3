import Compliance.Keyed
import Compliance.Traced

/-!
Positions of targets by name. When names repeat, either that is a fault, or the last target
keeps the name and the earlier ones are shadowed.
-/
namespace Compliance

inductive DuplicateNames where
  | reject
  | lastWins
  deriving DecidableEq

def DuplicateNames.name : DuplicateNames → String
  | .reject => "reject"
  | .lastWins => "last_write_wins"

structure NameIndex where
  positions : List (String × Nat)
  /-- Positions that lost their name, in the order in which they lost it. -/
  shadowed : List Nat
  deriving DecidableEq

namespace NameIndex

def empty : NameIndex := ⟨[], []⟩

def position (x : NameIndex) (name : String) : Option Nat := x.positions.lookup name

def size (x : NameIndex) : Nat := x.positions.length

def isEmpty (x : NameIndex) : Bool := x.positions.isEmpty

/-- Gives a name to a position and takes it from the one that has it. -/
def assign (x : NameIndex) (name : String) (position : Nat) : NameIndex :=
  { x with positions := Keyed.assign name position x.positions }

@[simp] theorem position_assign (x : NameIndex) (name other : String) (i : Nat) :
    (x.assign name i).position other = if other = name then some i else x.position other :=
  Keyed.lookup_assign name other i x.positions

def extend (policy : DuplicateNames) : Nat → List String → NameIndex → Traced NameIndex
  | _, [], x => .ok x
  | i, name :: names, x =>
    match x.position name, policy with
    | none, _ => extend policy (i + 1) names (x.assign name i)
    | some previous, .reject => .fail (.duplicateName name previous i)
    | some previous, .lastWins => do
      .emit (.nameTakenOver name i previous)
      let y := x.assign name i
      extend policy (i + 1) names { y with shadowed := y.shadowed ++ [previous] }

def build (policy : DuplicateNames) (names : List String) : Traced NameIndex :=
  extend policy 0 names .empty

end NameIndex
end Compliance
