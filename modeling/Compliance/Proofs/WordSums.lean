import Compliance.Proofs.Rollup

/-! Counting in 64-bit words without stopping at the largest one. There is no result as soon as a partial
sum is no word, so what has a result is exact. The counts of a category are added up in this way, and
classification hangs on such a count unless there is a failure. -/
namespace Compliance

/-- A number, if it is a 64-bit word. -/
def word? (n : Nat) : Option Nat := if n ≤ counterMax then some n else none

theorem word?_of_le {n : Nat} (h : n ≤ counterMax) : word? n = some n := if_pos h

theorem word?_eq_some {n w : Nat} : word? n = some w ↔ w = n ∧ n ≤ counterMax := by
  rw [word?]
  split
  next h => rw [Option.some.injEq, and_iff_left h, eq_comm]
  next h => exact iff_of_false nofun fun hw => h hw.2

def addWords? (start : Nat) (ns : List Nat) : Option Nat :=
  ns.foldlM (fun s n => word? (s + n)) start

/-- No partial sum is larger than the whole, so only the whole has to be looked at. -/
private theorem addWords?_eq {s : Nat} (hs : s ≤ counterMax) (ns : List Nat) :
    addWords? s ns = word? (s + sumOf ns) := by
  induction ns generalizing s with
  | nil => exact (word?_of_le hs).symm
  | cons n ns ih =>
    have hsum : s + sumOf (n :: ns) = s + n + sumOf ns := (Nat.add_assoc ..).symm
    rw [addWords?, List.foldlM_cons, hsum]
    by_cases h : s + n ≤ counterMax
    · rw [word?_of_le h]
      exact ih h
    · rw [word?, if_neg h, word?, if_neg fun hle => h (Nat.le_of_add_right_le hle)]
      rfl

def sumWords? (ns : List Nat) : Option Nat := addWords? 0 ns

theorem sumWords?_eq (ns : List Nat) : sumWords? ns = word? (sumOf ns) := by
  rw [sumWords?, addWords?_eq (Nat.zero_le _), Nat.zero_add]

namespace PerCategory
universe u
variable {α : Type u}

/-- The values of all categories, unless one is missing. -/
def all? : PerCategory (Option α) → Option (PerCategory α)
  | ⟨some p, some f, some u, some n⟩ => some ⟨p, f, u, n⟩
  | _ => none

theorem all?_eq_some {t : PerCategory (Option α)} {v : PerCategory α} :
    t.all? = some v ↔ ∀ c, t.get c = some (v.get c) := by
  constructor
  · intro h c
    unfold all? at h
    split at h
    next =>
      cases h
      cases c <;> rfl
    next => cases h
  · intro h
    obtain ⟨p, f, u, n⟩ := t
    obtain rfl : p = some v.pass := h .pass
    obtain rfl : f = some v.fail := h .fail
    obtain rfl : u = some v.unknown := h .unknown
    obtain rfl : n = some v.notApplicable := h .notApplicable
    rfl

end PerCategory

namespace Tally
variable {t : Tally}

def ofCategory? (t : Tally) (c : Category) : Option Nat := sumWords? (c.members.map t.get)

private theorem ofCategory?_eq (t : Tally) (c : Category) :
    t.ofCategory? c = word? (t.ofCategory c) :=
  sumWords?_eq _

/-- The classification in words. The counts of doubt are not added up once there is a failure. -/
def classifyInWords (t : Tally) : Option Category :=
  if 0 < t.get .fail then some .fail
  else (t.ofCategory? .unknown).map fun doubt =>
    if 0 < doubt then .unknown else if 0 < t.get .pass then .pass else .notApplicable

private theorem classify?_eq (t : Tally) : t.classify? = t.classifyInWords := by
  rw [classify?, classifyInWords, ofCategory?_eq]
  by_cases hfail : 0 < t.get .fail
  · rw [if_pos (.inl hfail), if_pos hfail, classify, if_pos hfail]
  by_cases hdoubt : t.ofCategory .unknown ≤ counterMax
  · rw [if_pos (.inr hdoubt), if_neg hfail, word?_of_le hdoubt, classify, if_neg hfail]
    rfl
  · rw [if_neg (not_or.mpr ⟨hfail, hdoubt⟩), if_neg hfail, word?, if_neg hdoubt]
    rfl

private theorem classify?_eq_some_iff {c : Category} : t.classify? = some c ↔
    t.RollsUpTo c ∧ (c = .fail ∨ t.ofCategory .unknown ≤ counterMax) := by
  have hfail : t.classify = .fail ↔ 0 < t.get .fail := classify_eq_iff
  rw [classify?, ← classify_eq_iff]
  split
  next h =>
    rw [Option.some.injEq]
    exact ⟨fun hc => ⟨hc, h.imp_left fun hf => hc.symm.trans (hfail.mpr hf)⟩, And.left⟩
  next h =>
    refine iff_of_false nofun ?_
    rintro ⟨hc, hle⟩
    exact h (hle.imp_left fun hf => hfail.mp (hc.trans hf))

theorem byCategory?_eq_some_iff {u : CategoryTally} : t.byCategory? = some u ↔
    ∀ c, u.get c = t.ofCategory c ∧ t.ofCategory c ≤ counterMax := by
  have hall : (Category.all.all fun c => decide (t.ofCategory c ≤ counterMax)) = true ↔
      ∀ c, t.ofCategory c ≤ counterMax := by
    simp only [List.all_eq_true, Category.mem_all, decide_eq_true_eq, forall_const]
  rw [byCategory?]
  split
  next h =>
    rw [Option.some.injEq]
    constructor
    · rintro rfl c
      exact ⟨PerCategory.get_ofFn .., hall.mp h c⟩
    · intro hu
      exact PerCategory.ext_get fun c => (PerCategory.get_ofFn ..).trans (hu c).1.symm
  next h =>
    exact iff_of_false (Option.some_ne_none u).symm fun hu => h (hall.mpr fun c => (hu c).2)

private theorem byCategory?_eq (t : Tally) :
    t.byCategory? = PerCategory.all? (.ofFn t.ofCategory?) := by
  refine Option.ext fun u => ?_
  rw [byCategory?_eq_some_iff, PerCategory.all?_eq_some]
  refine forall_congr' fun c => ?_
  rw [PerCategory.get_ofFn, ofCategory?_eq, word?_eq_some]

/-- Where the counts are classified at all, the order of precedence is kept, and where they are grouped,
every group is exact. Neither goes past the words by wrapping around: there is no classification exactly
when there is no failure and the counts of doubt add up to no word, and there are no groups exactly
when some group adds up to none. -/
theorem rollup_in_words (t : Tally) :
    t.classify? = t.classifyInWords ∧
    (∀ c, t.classify? = some c ↔
      t.RollsUpTo c ∧ (c = .fail ∨ t.ofCategory .unknown ≤ counterMax)) ∧
    (t.classify? = none ↔ t.get .fail = 0 ∧ counterMax < t.ofCategory .unknown) ∧
    t.byCategory? = PerCategory.all? (.ofFn t.ofCategory?) ∧
    (∀ u, t.byCategory? = some u ↔
      ∀ c, u.get c = t.ofCategory c ∧ t.ofCategory c ≤ counterMax) ∧
    (t.byCategory? = none ↔ ∃ c, counterMax < t.ofCategory c) := by
  refine ⟨t.classify?_eq, fun _ => classify?_eq_some_iff, ?_, t.byCategory?_eq,
    fun _ => byCategory?_eq_some_iff, ?_⟩
  · rw [classify?, ite_eq_right_iff]
    simp only [reduceCtorEq, imp_false, not_or, Nat.not_lt, Nat.le_zero, Nat.not_le]
  · rw [byCategory?, ite_eq_right_iff]
    simp

/-- One doubt too many. The counters are words, what they amount to is plain, and all of them together
are counted up to the largest word, but they are neither classified nor grouped. -/
theorem rollup_past_words :
    (∀ o, (⟨0, 0, counterMax, 1, 0, 0, 0, 0⟩ : Tally).get o ≤ counterMax) ∧
    (⟨0, 0, counterMax, 1, 0, 0, 0, 0⟩ : Tally)
      = (single .error counterMax).increment .unknown ∧
    RollsUpTo ⟨0, 0, counterMax, 1, 0, 0, 0, 0⟩ .unknown ∧
    total ⟨0, 0, counterMax, 1, 0, 0, 0, 0⟩ = counterMax ∧
    classify? ⟨0, 0, counterMax, 1, 0, 0, 0, 0⟩ = none ∧
    byCategory? ⟨0, 0, counterMax, 1, 0, 0, 0, 0⟩ = none := by
  refine ⟨fun o => ?_, ?_, ⟨rfl, .inl ?_⟩, ?_, ?_, ?_⟩
  · cases o <;> decide
  all_goals decide

end Tally
end Compliance
