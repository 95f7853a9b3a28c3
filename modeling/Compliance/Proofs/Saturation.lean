import Compliance.Proofs.Rollup
import Compliance.ResultMatrix
import Mathlib.Algebra.BigOperators.Group.List.Basic

/-! Counters that stop at the largest word. Stopping loses counts, but always the same ones: however
additions are grouped and ordered, a counter ends at its exact value or at the largest word. So
counters add up in a commutative monoid, and what is done to them can be done in any order. -/
namespace Compliance

private theorem capped_le (n : Nat) : capped n ≤ counterMax := Nat.min_le_right ..

theorem capped_of_le {n : Nat} (h : n ≤ counterMax) : capped n = n := Nat.min_eq_left h

/-- Stopping early or only at the end makes no difference. -/
private theorem capped_add_capped (m n : Nat) : capped (capped m + capped n) = capped (m + n) := by
  simp only [capped]
  omega

private theorem capped_capped_add (m n : Nat) : capped (capped m + n) = capped (m + n) := by
  simp only [capped]
  omega

private theorem capped_add_capped_right (m n : Nat) : capped (m + capped n) = capped (m + n) := by
  simp only [capped]
  omega

/-- Numbers added one after the other, stopping at the largest word, come to their exact sum or to that
word. -/
private theorem foldl_capped (s : Nat) (ns : List Nat) :
    ns.foldl (fun s n => capped (s + n)) (capped s) = capped (s + sumOf ns) := by
  induction ns generalizing s with
  | nil => rfl
  | cons n ns ih =>
    have hsum : sumOf (n :: ns) = n + sumOf ns := rfl
    rw [List.foldl_cons, capped_capped_add, ih, hsum, Nat.add_assoc]

/-- A sum that stops may be taken of numbers that were stopped before. -/
private theorem capped_sumOf_capped {α : Type} (f : α → Nat) (xs : List α) :
    capped (sumOf (xs.map fun x => capped (f x))) = capped (sumOf (xs.map f)) := by
  induction xs with
  | nil => rfl
  | cons x xs ih =>
    calc capped (capped (f x) + sumOf (xs.map fun x => capped (f x)))
        = capped (f x + sumOf (xs.map fun x => capped (f x))) := capped_capped_add ..
      _ = capped (f x + capped (sumOf (xs.map fun x => capped (f x)))) :=
          (capped_add_capped_right ..).symm
      _ = capped (f x + sumOf (xs.map f)) := by rw [ih, capped_add_capped_right]

namespace Tally
variable {t u : Tally}

/-- Whether every counter is a word. -/
def Words (t : Tally) : Prop := ∀ o, t.get o ≤ counterMax

private theorem empty_words : empty.Words := fun o => by
  rw [get_empty]
  exact Nat.zero_le _

private theorem single_words (o : Outcome) : (single o 1).Words := fun p => by
  rw [get_single]
  split <;> decide

private theorem add_words (t u : Tally) : (t.add u).Words := fun o => by
  rw [get_add]
  exact capped_le _

private theorem add_assoc (t u v : Tally) : (t.add u).add v = t.add (u.add v) :=
  PerOutcome.ext_get fun o => by
    simp only [get_add, capped_capped_add, capped_add_capped_right, Nat.add_assoc]

private theorem add_comm (t u : Tally) : t.add u = u.add t :=
  PerOutcome.ext_get fun o => by simp only [get_add, Nat.add_comm]

private theorem Words.add_empty (h : t.Words) : t.add empty = t :=
  PerOutcome.ext_get fun o => by rw [get_add, get_empty, Nat.add_zero, capped_of_le (h o)]

/-- An outcome is counted by adding a tally of it alone. -/
theorem Words.increment_eq (h : t.Words) (o : Outcome) : t.increment o = t.add (single o 1) :=
  PerOutcome.ext_get fun p => by
    rw [get_increment, get_add, get_single]
    split
    · rfl
    · exact (capped_of_le (h p)).symm

theorem total_eq_capped (t : Tally) : t.total = capped (sumOf t.toList) := by
  have hfold := foldl_capped 0 t.toList
  rwa [Nat.zero_add] at hfold

private theorem toList_add (t u : Tally) :
    (t.add u).toList = Outcome.all.map fun o => capped (t.get o + u.get o) :=
  List.map_congr_left fun o _ => get_add t u o

/-- Where counters stop, the totals stop too. -/
private theorem total_add (t u : Tally) : (t.add u).total = capped (t.total + u.total) := by
  calc (t.add u).total
      = capped (sumOf (Outcome.all.map fun o => capped (t.get o + u.get o))) := by
        rw [total_eq_capped, toList_add]
    _ = capped (sumOf (Outcome.all.map fun o => t.get o + u.get o)) := capped_sumOf_capped ..
    _ = capped (sumOf t.toList + sumOf u.toList) := by rw [sumOf_map_add]; rfl
    _ = capped (t.total + u.total) := by
        rw [total_eq_capped, total_eq_capped, capped_add_capped]

end Tally

/-- Counters as they are kept: each is a word. -/
structure Counters where
  tally : Tally
  words : tally.Words

namespace Counters

@[ext] theorem ext_tally {t u : Counters} (h : t.tally = u.tally) : t = u := by
  cases t
  cases u
  congr

instance : Zero Counters := ⟨⟨.empty, Tally.empty_words⟩⟩

instance : Add Counters := ⟨fun t u => ⟨t.tally.add u.tally, t.tally.add_words u.tally⟩⟩

@[simp] theorem tally_add (t u : Counters) : (t + u).tally = t.tally.add u.tally := rfl

instance : AddCommMonoid Counters where
  add_assoc t u v := ext_tally (t.tally.add_assoc u.tally v.tally)
  zero_add t := ext_tally ((Tally.add_comm ..).trans t.words.add_empty)
  add_zero t := ext_tally t.words.add_empty
  add_comm t u := ext_tally (t.tally.add_comm u.tally)
  nsmul := nsmulRec

/-- Stopped in every step or only at the end: a counter of a sum is what its counters come to. -/
private theorem get_sum (ds : List Counters) (o : Outcome) :
    ds.sum.tally.get o = capped (sumOf (ds.map fun d => d.tally.get o)) := by
  induction ds with
  | nil => exact Tally.get_empty o
  | cons d ds ih =>
    rw [List.sum_cons, tally_add, Tally.get_add, ih, capped_add_capped_right]
    rfl

def unit (o : Outcome) : Counters := ⟨.single o 1, Tally.single_words o⟩

end Counters

/-- What is done to counters: an outcome is counted, or other counters are added. -/
inductive Change where
  | increment (o : Outcome)
  | delta (d : Counters)

namespace Change

def apply (t : Tally) : Change → Tally
  | .increment o => t.increment o
  | .delta d => t.add d.tally

def amount : Change → Counters
  | .increment o => .unit o
  | .delta d => d

private theorem apply_eq (t : Counters) (c : Change) : c.apply t.tally = (t + c.amount).tally := by
  cases c with
  | increment o => exact t.words.increment_eq o
  | delta d => rfl

/-- Changes one after the other add what all of them add together. -/
theorem foldl_apply (t : Counters) (cs : List Change) :
    cs.foldl (fun t c => c.apply t) t.tally = (t + (cs.map amount).sum).tally := by
  induction cs generalizing t with
  | nil => rw [List.map_nil, List.sum_nil, add_zero]; rfl
  | cons c cs ih => rw [List.foldl_cons, apply_eq, ih, List.map_cons, List.sum_cons, add_assoc]

private theorem get_foldl_apply (t : Counters) (cs : List Change) (o : Outcome) :
    (cs.foldl (fun t c => c.apply t) t.tally).get o
      = capped (t.tally.get o + sumOf (cs.map fun c => c.amount.tally.get o)) := by
  rw [foldl_apply, Counters.tally_add, Tally.get_add, Counters.get_sum, capped_add_capped_right,
    List.map_map]
  rfl

end Change

namespace ResultMatrix

/-- Tallies with a partner are added to, and the others stay. -/
theorem getElem?_addEach (ts ds : List Tally) (i : Nat) :
    (addEach ts ds)[i]? = ts[i]?.map fun t => (ds[i]?.map t.add).getD t := by
  induction ts, ds using addEach.induct generalizing i with
  | case1 t ts d ds ih =>
    cases i with
    | zero => rfl
    | succ i => exact ih i
  | case2 ts => simp [addEach]
  | case3 d ds => rfl

private theorem addEach_right_comm (ts ds es : List Tally) :
    addEach (addEach ts ds) es = addEach (addEach ts es) ds := by
  refine List.ext_getElem? fun i => ?_
  simp only [getElem?_addEach, Option.map_map]
  refine congrArg (ts[i]?.map ·) (funext fun t => ?_)
  cases ds[i]? with
  | none => rfl
  | some d =>
    cases es[i]? with
    | none => rfl
    | some e =>
      show (t.add d).add e = (t.add e).add d
      rw [t.add_assoc, d.add_comm, ← t.add_assoc]

end ResultMatrix

/-- Counters form a commutative monoid, counters that are full included. Counting an outcome adds its
unit, a total is the exact sum or the largest word, and so is the total of a sum. What changes do to
counters is therefore fixed by the changes, whatever their order, and so is what the deltas of
several matrices do to the counters of rules. -/
theorem Counters.add_laws (t u v : Counters) :
    (t.tally.add u.tally).add v.tally = t.tally.add (u.tally.add v.tally) ∧
    t.tally.add u.tally = u.tally.add t.tally ∧
    (Tally.empty.add t.tally = t.tally ∧ t.tally.add .empty = t.tally) ∧
    (∀ o, (t.tally.add u.tally).get o ≤ counterMax) ∧
    (∀ o, t.tally.increment o = t.tally.add (.single o 1)) ∧
    t.tally.total = capped (sumOf t.tally.toList) ∧
    (t.tally.add u.tally).total = capped (t.tally.total + u.tally.total) ∧
    (∀ (cs : List Change) (o : Outcome), (cs.foldl (fun t c => c.apply t) t.tally).get o
      = capped (t.tally.get o + sumOf (cs.map fun c => c.amount.tally.get o))) ∧
    (∀ cs ds : List Change, cs.Perm ds →
      cs.foldl (fun t c => c.apply t) t.tally = ds.foldl (fun t c => c.apply t) t.tally) ∧
    ∀ ms ns : List ResultMatrix, ms.Perm ns → ∀ totals,
      ms.foldl (fun ts m => m.applyDeltas ts) totals
        = ns.foldl (fun ts m => m.applyDeltas ts) totals := by
  refine ⟨t.tally.add_assoc u.tally v.tally, t.tally.add_comm u.tally,
    ⟨congrArg tally (zero_add t), t.words.add_empty⟩, t.tally.add_words u.tally,
    t.words.increment_eq, t.tally.total_eq_capped, t.tally.total_add u.tally,
    Change.get_foldl_apply t, ?_, ?_⟩
  · intro cs ds h
    rw [Change.foldl_apply, Change.foldl_apply, (h.map Change.amount).sum_eq]
  · intro ms ns h totals
    exact h.foldl_eq' (fun m _ n _ ts => ResultMatrix.addEach_right_comm ts m.deltas n.deltas) totals

example : ((Tally.single .error counterMax).add ⟨1, 0, 1, 0, 0, 0, 0, 0⟩).total = counterMax := by
  decide

end Compliance
