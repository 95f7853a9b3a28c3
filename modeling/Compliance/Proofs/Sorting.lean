import Compliance.Partition

/-! Sorting a list by the outcomes that come with its items. Every item lands in exactly one
class, and each class keeps the order of the list. -/
namespace Compliance.Partition
universe u v
variable {α : Type u} {β : Type v}

/-- Items pushed one after the other, each under its own outcome. -/
def pushAll (p : Partition α) (xs : List (Outcome × α)) : Partition α :=
  xs.foldl (fun p x => p.push x.1 x.2) p

/-- The partition of a list. -/
def sort (xs : List (Outcome × α)) : Partition α := empty.pushAll xs

private theorem pushAll_cons (p : Partition α) (x : Outcome × α) (xs : List (Outcome × α)) :
    p.pushAll (x :: xs) = (p.push x.1 x.2).pushAll xs := rfl

private theorem get_pushAll (xs : List (Outcome × α)) (p : Partition α) (o : Outcome) :
    (p.pushAll xs).get o = p.get o ++ (xs.filter (·.1 = o)).map (·.2) := by
  induction xs generalizing p with
  | nil => simp [pushAll]
  | cons x xs ih =>
    rw [pushAll_cons, ih, get_push]
    by_cases h : x.1 = o
    · rw [if_pos h.symm, List.filter_cons_of_pos (by simpa using h)]
      simp
    · rw [if_neg (Ne.symm h), List.filter_cons_of_neg (by simpa using h)]

/-- A class holds the items of its outcome in the order in which they came. -/
theorem get_sort (xs : List (Outcome × α)) (o : Outcome) :
    (sort xs).get o = (xs.filter (·.1 = o)).map (·.2) := by
  rw [sort, get_pushAll, get_empty, List.nil_append]

/-- Items under the outcomes of what they are taken from. What has no outcome is left out. -/
def labelled (key : β → Option Outcome) (item : β → α) (xs : List β) : List (Outcome × α) :=
  xs.filterMap fun x => (key x).map fun o => (o, item x)

theorem labelled_cons_none (key : β → Option Outcome) {x : β} (h : key x = none) (item : β → α)
    (xs : List β) : labelled key item (x :: xs) = labelled key item xs :=
  List.filterMap_cons_none (by rw [h]; rfl)

theorem labelled_cons_some (key : β → Option Outcome) {x : β} {o : Outcome} (h : key x = some o)
    (item : β → α) (xs : List β) :
    labelled key item (x :: xs) = (o, item x) :: labelled key item xs :=
  List.filterMap_cons_some (by rw [h]; rfl)

theorem get_sort_labelled (key : β → Option Outcome) (item : β → α) (xs : List β) (o : Outcome) :
    (sort (labelled key item xs)).get o = (xs.filter fun x => key x = some o).map item := by
  rw [get_sort]
  induction xs with
  | nil => rfl
  | cons x xs ih =>
    cases h : key x with
    | none =>
      rw [labelled_cons_none key h, List.filter_cons_of_neg (by simp [h])]
      exact ih
    | some p =>
      rw [labelled_cons_some key h]
      by_cases hp : p = o
      · rw [List.filter_cons_of_pos (by simpa using hp),
          List.filter_cons_of_pos (by simpa [h] using hp)]
        exact congrArg (item x :: ·) ih
      · rw [List.filter_cons_of_neg (by simpa using hp),
          List.filter_cons_of_neg (by simpa [h] using hp)]
        exact ih

/-- Where everything has an outcome, nothing is left out. -/
theorem labelled_of_total {key : β → Option Outcome} {xs : List β}
    (h : ∀ x ∈ xs, (key x).isSome) (item : β → α) :
    (labelled key item xs).map (·.2) = xs.map item := by
  induction xs with
  | nil => rfl
  | cons x xs ih =>
    obtain ⟨o, ho⟩ := Option.isSome_iff_exists.mp (h x List.mem_cons_self)
    rw [labelled_cons_some key ho, List.map_cons, List.map_cons,
      ih fun y hy => h y (List.mem_cons_of_mem x hy)]

/-- The class of an outcome in a row is the list of the positions at which it stands. -/
theorem get_sort_zipIdx (os : List Outcome) (o : Outcome) :
    (sort os.zipIdx).get o = (List.range os.length).filter fun i => os[i]? = some o := by
  have hp : os.zipIdx.filter (·.1 = o) = os.zipIdx.filter fun e => os[e.2]? = some o := by
    apply List.filter_congr
    intro e he
    rw [List.mem_zipIdx_iff_getElem?.mp he]
    simp
  rw [get_sort, hp, List.range_eq_range', ← List.zipIdx_map_snd, List.filter_map]
  rfl

private theorem flatten_push (p : Partition α) (o : Outcome) (a : α) :
    (p.push o a).toList.flatten.Perm (a :: p.toList.flatten) := by
  classical
  rw [List.perm_iff_count]
  intro b
  cases o <;>
    simp [push, PerOutcome.modify, PerOutcome.toList, Outcome.all, PerOutcome.ofFn, PerOutcome.get,
      List.count_append, List.count_cons] <;> omega

private theorem flatten_pushAll (xs : List (Outcome × α)) (p : Partition α) :
    (p.pushAll xs).toList.flatten.Perm (p.toList.flatten ++ xs.map (·.2)) := by
  induction xs generalizing p with
  | nil => simp [pushAll]
  | cons x xs ih =>
    have hx := (flatten_push p x.1 x.2).append_right (xs.map (·.2))
    exact (ih _).trans (hx.trans List.perm_middle.symm)

/-- Sorting loses no item and doubles none. -/
theorem flatten_sort (xs : List (Outcome × α)) :
    (sort xs).toList.flatten.Perm (xs.map (·.2)) := flatten_pushAll xs .empty

/-- The counters of a partition add up to its size. -/
theorem sumOf_counts (p : Partition α) : sumOf p.counts.toList = p.size := by
  simp [sumOf, size, counts, PerOutcome.toList, Outcome.all]

end Compliance.Partition
