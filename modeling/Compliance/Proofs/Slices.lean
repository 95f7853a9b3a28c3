import Compliance.Tally
import Compliance.Proofs.Rollup
import Compliance.Proofs.Rounding

/-! Slices of the pie chart. As long as the total has 53 bits the smallest slice is the 72nd of it, rounded
half up. Slices up to that size are enlarged by it; the largest one never is, and is not overtaken. -/
namespace Compliance

private theorem sumOf_map_ite {α : Type} (p : α → Bool) (n : Nat) (xs : List α) :
    sumOf (xs.map fun x => if p x then n else 0) = n * xs.countP p := by
  induction xs with
  | nil => rfl
  | cons x xs ih =>
    have hcons : sumOf ((x :: xs).map fun x => if p x then n else 0)
        = (if p x then n else 0) + sumOf (xs.map fun x => if p x then n else 0) := rfl
    rw [hcons, ih, List.countP_cons, Nat.mul_add, Nat.add_comm]
    split <;> simp

theorem sumOf_map_mono {α : Type} {f g : α → Nat} {xs : List α} (h : ∀ x ∈ xs, f x ≤ g x) :
    sumOf (xs.map f) ≤ sumOf (xs.map g) := by
  induction xs with
  | nil => exact Nat.le_refl _
  | cons x xs ih =>
    have hx := h x List.mem_cons_self
    have hrest := ih fun y hy => h y (List.mem_cons_of_mem x hy)
    exact Nat.add_le_add hx hrest

theorem sumOf_map_le {α : Type} {f : α → Nat} {n : Nat} {xs : List α} (h : ∀ x ∈ xs, f x ≤ n) :
    sumOf (xs.map f) ≤ xs.length * n := by
  have hall := sumOf_map_ite (fun _ => true) n xs
  rw [List.countP_true, Nat.mul_comm] at hall
  exact Nat.le_trans (sumOf_map_mono h) (Nat.le_of_eq hall)

namespace CategoryTally
variable {t u : CategoryTally} {m n : Nat}

private theorem minimumSlice_eq (h : t.total < 0x20000000000000) :
    t.minimumSlice = (t.total + 36) / 72 := by
  rw [minimumSlice, Decimal.roundUnits_div72 h]
  exact Nat.min_eq_left (show _ ≤ 0xFFFFFFFFFFFFFFFF by omega)

theorem minimumSlice_le (t : CategoryTally) : t.minimumSlice ≤ t.total + 1 :=
  Nat.le_trans (Nat.min_le_left ..) (Decimal.roundUnits_div72_le t.total)

/-- Whether a slice is there and no larger than the smallest one may be. -/
def enlarged (t : CategoryTally) (c : Category) : Bool := 0 < t.get c ∧ t.get c ≤ t.minimumSlice

private theorem get_slices (t : CategoryTally) (c : Category) :
    t.slices.get c = t.get c + if t.enlarged c then t.minimumSlice else 0 := by
  rw [slices, PerCategory.get_map]
  simp only [enlarged, Nat.pos_iff_ne_zero, decide_eq_true_eq]
  split <;> rfl

private theorem total_slices (t : CategoryTally) :
    t.slices.total = t.total + t.minimumSlice * Category.all.countP t.enlarged := by
  have hslices : t.slices.toList
      = Category.all.map fun c => t.get c + if t.enlarged c then t.minimumSlice else 0 :=
    List.map_congr_left fun c _ => t.get_slices c
  rw [total, hslices, sumOf_map_add, sumOf_map_ite]
  rfl

private theorem total_le_of_get_le (h : ∀ c, t.get c ≤ n) : t.total ≤ 4 * n :=
  sumOf_map_le fun c _ => h c

/-- A chart of a tally in which small slices are enlarged by a smallest one. -/
structure Charts (t u : CategoryTally) (m : Nat) : Prop where
  absent : ∀ c, t.get c = 0 → u.get c = 0
  small : ∀ c, 0 < t.get c → t.get c ≤ m → u.get c = t.get c + m
  other : ∀ c, m < t.get c → u.get c = t.get c
  visible : ∀ c, 0 < t.get c → m < u.get c
  growth : ∀ c, u.get c ≠ t.get c → u.get c ≤ 2 * m
  largest : ∀ c, (∀ d, t.get d ≤ t.get c) → u.get c = t.get c ∧ ∀ d, u.get d ≤ u.get c
  enlarged : (Category.all.countP fun c => u.get c ≠ t.get c) ≤ 3
  total : t.total ≤ u.total ∧ u.total ≤ t.total + 3 * m

/-- Four slices are not all small, for together they are the whole. -/
private theorem countP_enlarged_le (h : t.total < 0x20000000000000) :
    Category.all.countP t.enlarged ≤ 3 := by
  refine Nat.le_of_lt_succ (Nat.lt_of_le_of_ne List.countP_le_length fun hall => ?_)
  have hsmall : ∀ c, 0 < t.get c ∧ t.get c ≤ (t.total + 36) / 72 := fun c => by
    rw [← minimumSlice_eq h]
    exact of_decide_eq_true (List.countP_eq_length.mp hall c c.mem_all)
  have hle := total_le_of_get_le fun c => (hsmall c).2
  have := (hsmall .pass).1
  have := t.total_eq_sum
  omega

/-- The slices of a tally of 53 bits are its chart with a 72nd of the total, rounded half up, for the
smallest slice. No error of floating point is seen. -/
theorem slices_chart (h : t.total < 0x20000000000000) :
    Charts t t.slices ((t.total + 36) / 72) := by
  have hget := t.get_slices
  have htotal := t.total_slices
  have hfew := countP_enlarged_le h
  have hmin := minimumSlice_eq h
  rw [← hmin]
  have henlarged : ∀ c, t.enlarged c = true ↔ 0 < t.get c ∧ t.get c ≤ t.minimumSlice := fun c =>
    decide_eq_true_iff
  have hle : ∀ c, (∀ d, t.get d ≤ t.get c) → t.total ≤ 4 * t.get c := fun c =>
    total_le_of_get_le
  simp only [henlarged] at hget
  constructor
  case absent =>
    intro c hc
    rw [hget, if_neg (by omega), hc]
  case small =>
    intro c hpos hsmall
    rw [hget, if_pos ⟨hpos, hsmall⟩]
  case other =>
    intro c hlarge
    rw [hget, if_neg (by omega), Nat.add_zero]
  case visible =>
    intro c hpos
    rw [hget]
    split <;> omega
  case growth =>
    intro c hne
    rw [hget] at hne ⊢
    split
    next hc => omega
    next hc => exact absurd (by rw [if_neg hc, Nat.add_zero]) hne
  case largest =>
    intro c hmax
    have hwhole := hle c hmax
    have hkept : t.slices.get c = t.get c := by rw [hget, if_neg (by omega), Nat.add_zero]
    refine ⟨hkept, fun d => ?_⟩
    have hd := hmax d
    rw [hkept, hget]
    split <;> omega
  case enlarged =>
    refine Nat.le_trans (List.countP_mono_left fun c _ hne => ?_) hfew
    rw [henlarged]
    have hne := of_decide_eq_true hne
    rw [hget] at hne
    split at hne
    next hc => exact hc
    next => exact absurd (Nat.add_zero _) hne
  case total =>
    have hsum := Nat.mul_le_mul_left t.minimumSlice hfew
    omega

/-- The total is 72 times two and a half, so the smallest slice is three, which three slices have. -/
theorem slices_chart_tie :
    total ⟨171, 3, 3, 3⟩ < 0x20000000000000 ∧ Charts ⟨171, 3, 3, 3⟩ (slices ⟨171, 3, 3, 3⟩) 3 ∧
    slices ⟨171, 3, 3, 3⟩ = ⟨171, 6, 6, 6⟩ := by
  have h := slices_chart (t := ⟨171, 3, 3, 3⟩) (by decide)
  refine ⟨by decide, h, PerCategory.ext_get fun c => ?_⟩
  cases c with
  | pass => exact h.other .pass (by decide)
  | fail => exact h.small .fail (by decide) (by decide)
  | unknown => exact h.small .unknown (by decide) (by decide)
  | notApplicable => exact h.small .notApplicable (by decide) (by decide)

end CategoryTally
end Compliance
