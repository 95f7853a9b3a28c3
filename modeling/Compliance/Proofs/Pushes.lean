import Compliance.Proofs.Saturation
import Compliance.Proofs.Sorting
import Compliance.Proofs.WordSums
import Mathlib.Data.List.DropRight
import Mathlib.Data.List.Induction

/-! Partitions that are filled and cleared. Whatever happened before, a partition is the sorted list of
the items that were pushed since it was last cleared, and all that is asked of it is read off that
list. -/
namespace Compliance.Partition
universe u
variable {α : Type u}

inductive Step (α : Type u) where
  | push (o : Outcome) (a : α)
  | clear

/-- The item that a step pushes, with its outcome. -/
def Step.item? : Step α → Option (Outcome × α)
  | .push o a => some (o, a)
  | .clear => none

def step (p : Partition α) : Step α → Partition α
  | .push o a => p.push o a
  | .clear => p.clear

def run (steps : List (Step α)) : Partition α := steps.foldl step .empty

/-- The items pushed after the last step that clears. -/
def sinceClear (steps : List (Step α)) : List (Outcome × α) :=
  (steps.rtakeWhile fun s => s.item?.isSome).filterMap Step.item?

private theorem clear_eq (p : Partition α) : p.clear = .empty :=
  PerOutcome.ext_get fun o => (get_clear p o).trans (get_empty o).symm

private theorem sort_concat (xs : List (Outcome × α)) (o : Outcome) (a : α) :
    sort (xs ++ [(o, a)]) = (sort xs).push o a := List.foldl_append

private theorem sinceClear_push (steps : List (Step α)) (o : Outcome) (a : α) :
    sinceClear (steps ++ [.push o a]) = sinceClear steps ++ [(o, a)] := by
  rw [sinceClear, List.rtakeWhile_concat_pos _ _ _ rfl, List.filterMap_append]
  rfl

private theorem sinceClear_clear (steps : List (Step α)) : sinceClear (steps ++ [.clear]) = [] := by
  rw [sinceClear, List.rtakeWhile_concat_neg _ _ _ Bool.false_ne_true, List.filterMap_nil]

private theorem run_concat (steps : List (Step α)) (s : Step α) :
    run (steps ++ [s]) = (run steps).step s :=
  List.foldl_append

/-- One list stands for the partition after every run. -/
private theorem run_eq (steps : List (Step α)) : run steps = sort (sinceClear steps) := by
  induction steps using List.reverseRecOn with
  | nil => rfl
  | append_singleton steps s ih =>
    rw [run_concat, ih]
    cases s with
    | push o a => rw [sinceClear_push, sort_concat]; rfl
    | clear => rw [sinceClear_clear]; exact clear_eq _

private theorem size_sort (xs : List (Outcome × α)) : (sort xs).size = xs.length := by
  rw [size, (flatten_sort xs).length_eq, List.length_map]

private theorem isEmpty_eq_true_iff {p : Partition α} : p.isEmpty = true ↔ ∀ o, p.get o = [] := by
  simp only [isEmpty, PerOutcome.toList, List.all_map, List.all_eq_true, Function.comp_apply,
    Outcome.mem_all, List.isEmpty_iff, forall_const]

private theorem mem_nonEmpty {p : Partition α} {o : Outcome} {ys : List α} :
    (o, ys) ∈ p.nonEmpty ↔ ys = p.get o ∧ ys ≠ [] := by
  rw [nonEmpty, List.mem_filter]
  refine and_congr ?_ (by simp)
  constructor
  · intro h
    obtain ⟨q, _, hq⟩ := List.mem_map.mp h
    cases hq
    rfl
  · rintro rfl
    exact List.mem_map_of_mem o.mem_all

/-- Each outcome comes once at most, and before those with larger ordinals. -/
private theorem pairwise_nonEmpty (p : Partition α) :
    p.nonEmpty.Pairwise fun e f => e.1.ordinal < f.1.ordinal := by
  have hall : Outcome.all.Pairwise fun o q => o.ordinal < q.ordinal := by decide
  exact (hall.map (fun o => (o, p.get o)) fun _ _ h => h).filter _

/-- The counters together say how many items there are, as far as they can count. -/
theorem total_counts (p : Partition α) : p.counts.total = capped p.size := by
  rw [Tally.total_eq_capped, sumOf_counts]

/-- How many items there are, in words. -/
def size? (p : Partition α) : Option Nat := sumWords? (p.toList.map List.length)

private theorem size?_eq_some_iff {p : Partition α} {n : Nat} :
    p.size? = some n ↔ n = p.size ∧ n = p.counts.total := by
  have hsize : sumOf (p.toList.map List.length) = p.size := by
    rw [← sumOf_counts]
    rfl
  rw [size?, sumWords?_eq, hsize, word?_eq_some, total_counts, capped]
  omega

/-- After any pushes and clears a partition holds the items pushed since the last clear, each list in the
order of the pushes. It counts them, it is empty if there are none, and its lists that are not empty
come in the order of the outcomes. The number of the items, wherever it is a word, is the total of
the counters. -/
theorem run_sorts (steps : List (Step α)) :
    (∀ o, (run steps).get o = ((sinceClear steps).filter (·.1 = o)).map (·.2)) ∧
    (∀ o, (run steps).counts.get o = (sinceClear steps).countP (·.1 = o)) ∧
    (run steps).size = (sinceClear steps).length ∧
    (run steps).counts.total = capped (sinceClear steps).length ∧
    (∀ n, (run steps).size? = some n ↔
      n = (sinceClear steps).length ∧ n = (run steps).counts.total) ∧
    ((run steps).isEmpty = true ↔ sinceClear steps = []) ∧
    ((run steps).nonEmpty.Pairwise fun e f => e.1.ordinal < f.1.ordinal) ∧
    ∀ o ys, (o, ys) ∈ (run steps).nonEmpty ↔
      (∃ a, (o, a) ∈ sinceClear steps) ∧
        ys = ((sinceClear steps).filter (·.1 = o)).map (·.2) := by
  have hget : ∀ o, (run steps).get o = ((sinceClear steps).filter (·.1 = o)).map (·.2) := fun o => by
    rw [run_eq, get_sort]
  have hsize : (run steps).size = (sinceClear steps).length := by rw [run_eq, size_sort]
  have hnil : ∀ o, (run steps).get o ≠ [] ↔ ∃ a, (o, a) ∈ sinceClear steps := fun o => by
    simp [hget]
  refine ⟨hget, fun o => ?_, hsize, ?_, fun n => ?_, ?_, pairwise_nonEmpty _, fun o ys => ?_⟩
  · rw [get_counts, hget, List.length_map, List.countP_eq_length_filter]
  · rw [total_counts, hsize]
  · rw [size?_eq_some_iff, hsize]
  · rw [isEmpty_eq_true_iff, List.eq_nil_iff_forall_not_mem]
    constructor
    · rintro h ⟨o, a⟩ ha
      exact (hnil o).mpr ⟨a, ha⟩ (h o)
    · intro h o
      by_contra hne
      obtain ⟨a, ha⟩ := (hnil o).mp hne
      exact h _ ha
  · rw [mem_nonEmpty, ← hnil, ← hget]
    constructor
    · rintro ⟨rfl, hne⟩
      exact ⟨hne, rfl⟩
    · rintro ⟨hne, rfl⟩
      exact ⟨rfl, hne⟩

example : (run [.push .pass "a", .clear, .push .fail "b", .push .pass "c", .push .fail "d"]).nonEmpty
    = [(.pass, ["c"]), (.fail, ["b", "d"])] := by decide

end Compliance.Partition
