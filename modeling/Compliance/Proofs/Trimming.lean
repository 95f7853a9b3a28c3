import Compliance.Text.Basic
import Mathlib.Data.List.TakeWhile

/-! Text without the white space at its ends. What is left is determined: it stands between white
space, and neither begins nor ends with any. -/
namespace Compliance.Text
variable {cs t : List Char}

def Blanks (cs : List Char) : Prop := ∀ c ∈ cs, isBlank c = true

/-- What is left of a text when the white space at its ends is taken off. -/
structure Trimmed (cs t : List Char) : Prop where
  within : ∃ front back, cs = front ++ (t ++ back) ∧ Blanks front ∧ Blanks back
  first : ∀ c, t.head? = some c → isBlank c = false
  last : ∀ c, t.getLast? = some c → isBlank c = false

/-- Dropping stops where the predicate first fails. -/
theorem dropWhile_append_of_head {p : Char → Bool} (hcs : ∀ c ∈ cs, p c = true)
    (h : ∀ c, t.head? = some c → p c = false) : (cs ++ t).dropWhile p = t := by
  rw [List.dropWhile_append_of_pos hcs]
  cases t with
  | nil => rfl
  | cons c t => exact List.dropWhile_cons_of_neg (by simp [h c rfl])

private theorem head?_dropWhile_isBlank (cs : List Char) :
    ∀ c, (cs.dropWhile isBlank).head? = some c → isBlank c = false := fun c hc => by
  have h := List.head?_dropWhile_not isBlank cs
  rw [hc] at h
  simpa using h

private theorem Blanks.reverse (h : Blanks cs) :
    Blanks cs.reverse := fun c hc => h c (List.mem_reverse.mp hc)

private theorem blanks_takeWhile (cs : List Char) : Blanks (cs.takeWhile isBlank) :=
  fun _ hc => List.mem_takeWhile_imp hc

private theorem trimStart_spec (cs : List Char) : cs = cs.takeWhile isBlank ++ trimStart cs :=
  List.takeWhile_append_dropWhile.symm

private theorem trimEnd_spec (cs : List Char) :
    cs = trimEnd cs ++ (cs.reverse.takeWhile isBlank).reverse := by
  rw [trimEnd, ← List.reverse_append, List.takeWhile_append_dropWhile, List.reverse_reverse]

/-- Text that is taken out of white space is left. -/
theorem Trimmed.trim_eq (h : Trimmed cs t) : trim cs = t := by
  obtain ⟨front, back, rfl, hfront, hback⟩ := h.within
  cases t with
  | nil =>
    have hnil : trimStart (front ++ ([] ++ back)) = [] := by
      rw [trimStart, List.nil_append, List.dropWhile_append_of_pos hfront,
        List.dropWhile_eq_nil_iff.mpr hback]
    rw [trim, hnil]
    rfl
  | cons c t =>
    have hstart : trimStart (front ++ (c :: t ++ back)) = c :: t ++ back :=
      dropWhile_append_of_head hfront h.first
    have hend : ((c :: t ++ back).reverse).dropWhile isBlank = (c :: t).reverse := by
      rw [List.reverse_append]
      refine dropWhile_append_of_head hback.reverse ?_
      rw [List.head?_reverse]
      exact h.last
    rw [trim, hstart, trimEnd, hend, List.reverse_reverse]

theorem trim_trimmed (cs : List Char) : Trimmed cs (trim cs) where
  within := ⟨_, _, (trimStart_spec cs).trans (congrArg _ (trimEnd_spec (trimStart cs))),
    blanks_takeWhile cs, (blanks_takeWhile _).reverse⟩
  first c hc := by
    -- What begins the text after both cuts began it after the first.
    refine head?_dropWhile_isBlank cs c ?_
    have hsplit := trimEnd_spec (trimStart cs)
    rw [trim] at hc
    rw [show cs.dropWhile isBlank = trimStart cs from rfl, hsplit, List.head?_append, hc]
    rfl
  last c hc := by
    rw [trim, trimEnd, List.getLast?_reverse] at hc
    exact head?_dropWhile_isBlank _ c hc

private theorem within_self (t : List Char) :
    ∃ front back, t = front ++ (t ++ back) ∧ Blanks front ∧ Blanks back :=
  ⟨[], [], (List.append_nil t).symm, List.forall_mem_nil _, List.forall_mem_nil _⟩

/-- Nothing is left to be taken off. -/
theorem Trimmed.again (h : Trimmed cs t) : Trimmed t t where
  within := within_self t
  first := h.first
  last := h.last

theorem trimmed_of_forall (h : ∀ c ∈ t, isBlank c = false) : Trimmed t t where
  within := within_self t
  first c hc := h c (List.mem_of_head? hc)
  last c hc := h c (List.mem_of_getLast? hc)

end Compliance.Text
