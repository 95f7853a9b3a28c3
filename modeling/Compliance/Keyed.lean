/-!
Lists of pairs as finite maps. Looking a key up is the view, and assigning a value changes
what is found under that key alone.
-/
namespace Compliance.Keyed
universe u v
variable {κ : Type u} {α : Type v}

def assign [DecidableEq κ] (k : κ) (a : α) (ps : List (κ × α)) : List (κ × α) :=
  (k, a) :: ps.filter (·.1 ≠ k)

theorem lookup_filter_ne [DecidableEq κ] [BEq κ] [LawfulBEq κ] {k q : κ} (h : q ≠ k)
    (ps : List (κ × α)) :
    (ps.filter (·.1 ≠ k)).lookup q = ps.lookup q := by
  induction ps with
  | nil => rfl
  | cons e ps ih =>
    obtain ⟨r, a⟩ := e
    by_cases hr : r = k
    · subst hr
      have hq : (q == r) = false := by simpa using h
      rw [List.filter_cons_of_neg (by simp), ih, List.lookup_cons, hq]
    · rw [List.filter_cons_of_pos (by simpa using hr), List.lookup_cons, List.lookup_cons, ih]

@[simp] theorem lookup_assign [DecidableEq κ] [BEq κ] [LawfulBEq κ] (k q : κ) (a : α)
    (ps : List (κ × α)) :
    (assign k a ps).lookup q = if q = k then some a else ps.lookup q := by
  by_cases h : q = k
  · subst h
    simp [assign]
  · have hq : (q == k) = false := by simpa using h
    rw [assign, List.lookup_cons, hq, if_neg h]
    exact lookup_filter_ne h ps

@[simp] theorem assign_assign [DecidableEq κ] (k : κ) (a b : α) (ps : List (κ × α)) :
    assign k b (assign k a ps) = assign k b ps := by
  rw [assign, assign, assign, List.filter_cons_of_neg (by simp), List.filter_filter]
  simp

end Compliance.Keyed
