import Compliance.Report.Navigate
import Mathlib.Tactic.SplitIfs

/-! What counts amount to. A category is fixed by which of its counters are zero, and the tally of
some categories counts each of them once. -/
namespace Compliance

theorem sumOf_map_add {α : Type} (f g : α → Nat) (xs : List α) :
    sumOf (xs.map fun x => f x + g x) = sumOf (xs.map f) + sumOf (xs.map g) := by
  induction xs with
  | nil => rfl
  | cons x xs ih =>
    simp only [sumOf, List.map_cons, List.foldr_cons] at ih ⊢
    omega

private theorem sumOf_map_zero {α : Type} (xs : List α) : sumOf (xs.map fun _ => 0) = 0 := by
  induction xs with
  | nil => rfl
  | cons x xs ih => exact (Nat.zero_add _).trans ih

theorem sumOf_map_if {α : Type} (p : α → Bool) (xs : List α) :
    sumOf (xs.map fun x => if p x then 1 else 0) = xs.countP p := by
  induction xs with
  | nil => rfl
  | cons x xs ih => rw [List.countP_cons, ← ih, Nat.add_comm]; rfl

/-- Counting the pairs of a relation by rows or by columns comes to the same. -/
theorem sumOf_countP_comm {α β : Type} (p : α → β → Bool) (xs : List α) (ys : List β) :
    sumOf (xs.map fun x => ys.countP (p x)) = sumOf (ys.map fun y => xs.countP fun x => p x y) := by
  induction ys with
  | nil => exact sumOf_map_zero xs
  | cons y ys ih =>
    simp only [List.countP_cons]
    rw [sumOf_map_add, ih, sumOf_map_if, Nat.add_comm]
    rfl

namespace Tally

/-- The order of precedence: any failure, else any doubt, else any success, else nothing that
applies. -/
def RollsUpTo (t : Tally) : Category → Prop
  | .fail => 0 < t.get .fail
  | .unknown => t.get .fail = 0 ∧ (0 < t.get .error ∨ 0 < t.get .unknown ∨ 0 < t.get .notChecked)
  | .pass => t.get .fail = 0 ∧ t.get .error = 0 ∧ t.get .unknown = 0 ∧ t.get .notChecked = 0 ∧
      0 < t.get .pass
  | .notApplicable => t.get .fail = 0 ∧ t.get .error = 0 ∧ t.get .unknown = 0 ∧
      t.get .notChecked = 0 ∧ t.get .pass = 0

theorem ofCategory_unknown (t : Tally) :
    t.ofCategory .unknown = t.get .error + (t.get .unknown + t.get .notChecked) := rfl

theorem classify_rollsUpTo (t : Tally) : t.RollsUpTo t.classify := by
  have hu := t.ofCategory_unknown
  unfold classify
  split_ifs with hf hd hp
  · exact hf
  · exact ⟨by omega, by omega⟩
  · exact ⟨by omega, by omega, by omega, by omega, hp⟩
  · exact ⟨by omega, by omega, by omega, by omega, by omega⟩

theorem RollsUpTo.classify_eq {t : Tally} {c : Category} (h : t.RollsUpTo c) : t.classify = c := by
  have hu := t.ofCategory_unknown
  cases c with
  | fail => exact if_pos h
  | unknown =>
    obtain ⟨hf, hd⟩ := h
    rw [classify, if_neg (by omega), if_pos (by omega)]
  | pass =>
    obtain ⟨hf, he, hk, hn, hp⟩ := h
    rw [classify, if_neg (by omega), if_neg (by omega), if_pos hp]
  | notApplicable =>
    obtain ⟨hf, he, hk, hn, hp⟩ := h
    rw [classify, if_neg (by omega), if_neg (by omega), if_neg (by omega)]

/-- The classification is the one category that the counts roll up to. -/
theorem classify_eq_iff {t : Tally} {c : Category} : t.classify = c ↔ t.RollsUpTo c :=
  ⟨fun h => h ▸ t.classify_rollsUpTo, fun h => h.classify_eq⟩

end Tally

namespace CategoryTally

theorem total_eq_sum (t : CategoryTally) :
    t.total = t.get .pass + (t.get .fail + (t.get .unknown + t.get .notApplicable)) := rfl

theorem total_increment (t : CategoryTally) (c : Category) :
    (t.increment c).total = t.total + 1 := by
  simp only [total_eq_sum, get_increment]
  cases c <;> simp <;> omega

private theorem get_countAll (cs : List Category) (t : CategoryTally) (c : Category) :
    (cs.foldl increment t).get c = t.get c + cs.count c := by
  induction cs generalizing t with
  | nil => rfl
  | cons d cs ih =>
    rw [List.foldl_cons, ih, get_increment, List.count_cons]
    by_cases h : c = d
    · simp only [h, if_pos, beq_self_eq_true]
      omega
    · simp [h, Ne.symm h]

private theorem total_countAll (cs : List Category) (t : CategoryTally) :
    (cs.foldl increment t).total = t.total + cs.length := by
  induction cs generalizing t with
  | nil => rfl
  | cons d cs ih =>
    rw [List.foldl_cons, ih, total_increment, List.length_cons]
    omega

@[simp] theorem get_ofList (cs : List Category) (c : Category) : (ofList cs).get c = cs.count c := by
  rw [ofList, get_countAll, get_empty, Nat.zero_add]

@[simp] theorem total_ofList (cs : List Category) : (ofList cs).total = cs.length := by
  rw [ofList, total_countAll]
  exact Nat.zero_add _

end CategoryTally

namespace Report

theorem length_positioned {α : Type} (p : α → Bool) (xs : List α) :
    (positioned p xs).length = xs.countP p := by
  have h : xs.zipIdx.countP (p ∘ Prod.fst) = xs.countP p := by
    rw [← List.countP_map, List.zipIdx_map_fst]
  rw [positioned, List.length_map, ← List.countP_eq_length_filter]
  exact h

/-- A tally of categories counts the members of each. -/
theorem get_ofList_filterMap {α : Type} (category : α → Option Category) (xs : List α)
    (c : Category) :
    (CategoryTally.ofList (xs.filterMap category)).get c
      = (positioned (fun x => category x = some c) xs).length := by
  rw [CategoryTally.get_ofList, length_positioned, List.count_filterMap]
  apply List.countP_congr
  intro x _
  simp

end Report
end Compliance
