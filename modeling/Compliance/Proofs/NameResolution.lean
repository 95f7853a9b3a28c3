import Compliance.NameIndex
import Mathlib.Data.List.Nodup

/-! What a name is resolved to. An index of a list of names finds every name of the list at its
last position, whichever policy built it, and the strict policy refuses exactly the lists in which
a name repeats. -/
namespace Compliance.NameIndex

/-- The greatest position of a name. -/
def LastAt (names : List String) (name : String) (i : Nat) : Prop :=
  names[i]? = some name ∧ ∀ j, names[j]? = some name → j ≤ i

theorem LastAt.unique {names : List String} {name : String} {i j : Nat}
    (hi : LastAt names name i) (hj : LastAt names name j) : i = j :=
  Nat.le_antisymm (hj.2 i hi.1) (hi.2 j hj.1)

/-- Where no name repeats, the only position of a name is its last. -/
theorem lastAt_of_nodup {names : List String} (hn : names.Nodup) {name : String} {i : Nat}
    (hi : names[i]? = some name) : LastAt names name i := by
  refine ⟨hi, fun j hj => Nat.le_of_eq ?_⟩
  have hl := (List.getElem?_eq_some_iff.mp hj).1
  exact (List.getElem?_inj hl hn).mp (hj.trans hi.symm)

private theorem lastAt_concat_self (names : List String) (name : String) :
    LastAt (names ++ [name]) name names.length := by
  refine ⟨List.getElem?_concat_length, ?_⟩
  intro j hj
  have h := (List.getElem?_eq_some_iff.mp hj).1
  rw [List.length_append, List.length_singleton] at h
  omega

private theorem LastAt.concat {names : List String} {name : String} {i : Nat}
    (h : LastAt names name i) {other : String} (ho : name ≠ other) :
    LastAt (names ++ [other]) name i := by
  have hi := (List.getElem?_eq_some_iff.mp h.1).1
  refine ⟨by rw [List.getElem?_append_left hi, h.1], ?_⟩
  intro j hj
  by_cases hl : j < names.length
  · exact h.2 j (by rwa [List.getElem?_append_left hl] at hj)
  · have hb := (List.getElem?_eq_some_iff.mp hj).1
    obtain rfl : j = names.length := by
      rw [List.length_append, List.length_singleton] at hb
      omega
    rw [List.getElem?_concat_length] at hj
    exact absurd (Option.some.inj hj).symm ho

/-- Every name is known, and found at its last position. -/
structure Resolves (x : NameIndex) (names : List String) : Prop where
  last : ∀ {name i}, x.position name = some i → LastAt names name i
  known : ∀ {name}, name ∈ names → ∃ i, x.position name = some i

theorem Resolves.position_eq_some {x : NameIndex} {names : List String} (h : x.Resolves names)
    {name : String} {i : Nat} : x.position name = some i ↔ LastAt names name i := by
  refine ⟨h.last, fun hi => ?_⟩
  obtain ⟨j, hj⟩ := h.known (List.mem_of_getElem? hi.1)
  rw [hj, (h.last hj).unique hi]

theorem Resolves.not_mem {x : NameIndex} {names : List String} (h : x.Resolves names)
    {name : String} (hn : x.position name = none) : name ∉ names := by
  intro hm
  obtain ⟨i, hi⟩ := h.known hm
  cases hn.symm.trans hi

theorem empty_resolves : empty.Resolves [] where
  last h := by cases h
  known h := by cases h

/-- Giving the next position to a name keeps the index resolved. -/
theorem Resolves.assign {x : NameIndex} {names : List String} (h : x.Resolves names)
    (name : String) : (x.assign name names.length).Resolves (names ++ [name]) where
  last {other i} hi := by
    rw [position_assign] at hi
    split at hi
    next he =>
      obtain rfl := Option.some.inj hi
      exact he ▸ lastAt_concat_self names name
    next hne => exact (h.last hi).concat hne
  known {other} hm := by
    rw [position_assign]
    split
    next => exact ⟨_, rfl⟩
    next hne =>
      rcases List.mem_append.mp hm with hm | hm
      · exact h.known hm
      · exact absurd (List.mem_singleton.mp hm) hne

/-- Shadowed positions have no part in what is found. -/
private theorem Resolves.shadow {x : NameIndex} {names : List String} (h : x.Resolves names)
    (shadowed : List Nat) : (NameIndex.mk x.positions shadowed).Resolves names :=
  ⟨h.last, h.known⟩

theorem extend_fresh (policy : DuplicateNames) (i : Nat) {name : String}
    (names : List String) {x : NameIndex} (h : x.position name = none) :
    extend policy i (name :: names) x = extend policy (i + 1) names (x.assign name i) := by
  rw [extend.eq_def]
  simp only [h]

private theorem extend_reject {i previous : Nat} {name : String} (names : List String)
    {x : NameIndex} (h : x.position name = some previous) :
    extend .reject i (name :: names) x = .fail (.duplicateName name previous i) := by
  rw [extend.eq_def]
  simp only [h]

/-- The name moves on, and the position that had it is shadowed. -/
private theorem extend_lastWins {i previous : Nat} {name : String} (names : List String)
    {x : NameIndex} (h : x.position name = some previous) :
    (extend .lastWins i (name :: names) x).result
      = (extend .lastWins (i + 1) names
        ⟨(x.assign name i).positions, x.shadowed ++ [previous]⟩).result := by
  rw [extend.eq_def]
  simp only [h]
  rw [Traced.bind_of_ok rfl]
  rfl

private theorem extend_resolves {policy : DuplicateNames} {before names : List String}
    {x y : NameIndex} (hx : x.Resolves before)
    (h : (extend policy before.length names x).result = .ok y) : y.Resolves (before ++ names) := by
  induction names generalizing before x with
  | nil =>
    cases h
    rwa [List.append_nil]
  | cons name names ih =>
    have hn := hx.assign name
    have hl : (before ++ [name]).length = before.length + 1 := by simp
    rw [List.append_cons]
    cases hp : x.position name with
    | none =>
      rw [extend_fresh policy _ names hp] at h
      exact ih hn (hl ▸ h)
    | some previous =>
      cases policy with
      | reject =>
        rw [extend_reject names hp] at h
        cases h
      | lastWins =>
        rw [extend_lastWins names hp] at h
        exact ih (hn.shadow _) (hl ▸ h)

/-- An index that is built resolves the names that it was built of. -/
theorem build_resolves {policy : DuplicateNames} {names : List String} {x : NameIndex}
    (h : (build policy names).result = .ok x) : x.Resolves names :=
  extend_resolves empty_resolves h

/-- The tolerant policy always builds an index. -/
theorem build_lastWins (names : List String) : ∃ x, (build .lastWins names).result = .ok x := by
  suffices h : ∀ i x, ∃ y, (extend .lastWins i names x).result = .ok y from h 0 .empty
  induction names with
  | nil => exact fun _ x => ⟨x, rfl⟩
  | cons name names ih =>
    intro i x
    cases hp : x.position name with
    | none =>
      rw [extend_fresh .lastWins i names hp]
      exact ih _ _
    | some previous =>
      rw [extend_lastWins names hp]
      exact ih _ _

private theorem nodup_fresh {x : NameIndex} {names : List String} (h : x.Resolves names)
    (hn : names.Nodup) {name : String} (hp : x.position name = none) :
    (names ++ [name]).Nodup :=
  List.nodup_append.mpr ⟨hn, List.nodup_singleton name, by
    intro a ha b hb he
    rw [List.mem_singleton.mp hb] at he
    exact h.not_mem hp (he ▸ ha)⟩

private theorem extend_reject_ok {before names : List String} {x y : NameIndex}
    (hx : x.Resolves before) (hb : before.Nodup)
    (h : (extend .reject before.length names x).result = .ok y) : (before ++ names).Nodup := by
  induction names generalizing before x with
  | nil => rwa [List.append_nil]
  | cons name names ih =>
    have hl : (before ++ [name]).length = before.length + 1 := by simp
    cases hp : x.position name with
    | none =>
      rw [extend_fresh .reject _ names hp] at h
      rw [List.append_cons]
      exact ih (hx.assign name) (nodup_fresh hx hb hp) (hl ▸ h)
    | some previous =>
      rw [extend_reject names hp] at h
      cases h

/-- Names that do not repeat give the same index under every policy. -/
private theorem extend_of_nodup {before names : List String} {x : NameIndex}
    (hx : x.Resolves before) (hn : (before ++ names).Nodup) :
    ∃ y, ∀ policy, (extend policy before.length names x).result = .ok y := by
  induction names generalizing before x with
  | nil => exact ⟨x, fun _ => rfl⟩
  | cons name names ih =>
    have hl : (before ++ [name]).length = before.length + 1 := by simp
    have hf : name ∉ before := by
      intro hm
      exact (List.nodup_append.mp hn).2.2 name hm name List.mem_cons_self rfl
    have hp : x.position name = none := by
      cases h : x.position name with
      | none => rfl
      | some i => exact absurd (List.mem_of_getElem? (hx.last h).1) hf
    obtain ⟨y, hy⟩ := ih (hx.assign name) (by rwa [← List.append_cons])
    refine ⟨y, fun policy => ?_⟩
    rw [extend_fresh policy _ names hp, ← hl]
    exact hy policy

/-- The first time that a name repeats. -/
def Repeats (names : List String) (name : String) (first second : Nat) : Prop :=
  first < second ∧ names[first]? = some name ∧ names[second]? = some name ∧
    (names.take second).Nodup

private theorem extend_reject_error {before names : List String} {x : NameIndex} {e : Fault}
    (hx : x.Resolves before) (hb : before.Nodup)
    (h : (extend .reject before.length names x).result = .error e) :
    ∃ name i j, Repeats (before ++ names) name i j ∧ e = .duplicateName name i j := by
  induction names generalizing before x with
  | nil => cases h
  | cons name names ih =>
    have hl : (before ++ [name]).length = before.length + 1 := by simp
    cases hp : x.position name with
    | none =>
      rw [extend_fresh .reject _ names hp] at h
      rw [List.append_cons]
      exact ih (hx.assign name) (nodup_fresh hx hb hp) (hl ▸ h)
    | some previous =>
      rw [extend_reject names hp] at h
      cases h
      have hlast := (hx.last hp).1
      have hlt := (List.getElem?_eq_some_iff.mp hlast).1
      refine ⟨name, previous, before.length, ⟨hlt, ?_, ?_, ?_⟩, rfl⟩
      · rwa [List.getElem?_append_left hlt]
      · rw [List.getElem?_append_right (Nat.le_refl _), Nat.sub_self]
        rfl
      · rwa [List.take_left]

private theorem Repeats.not_nodup {names : List String} {name : String} {i j : Nat}
    (h : Repeats names name i j) : ¬ names.Nodup := by
  intro hn
  have hj := (List.getElem?_eq_some_iff.mp h.2.2.1).1
  have he : names[i]? = names[j]? := h.2.1.trans h.2.2.1.symm
  exact Nat.ne_of_lt h.1 ((List.getElem?_inj (Nat.lt_trans h.1 hj) hn).mp he)

private theorem Repeats.second_le {names : List String} {a b : String} {i j k l : Nat}
    (h : Repeats names a i j) (h' : Repeats names b k l) : j ≤ l := by
  by_contra hlt
  have hr : Repeats (names.take j) b k l := by
    refine ⟨h'.1, ?_, ?_, ?_⟩
    · rw [List.getElem?_take_of_lt (by have := h'.1; omega), h'.2.1]
    · rw [List.getElem?_take_of_lt (by omega), h'.2.2.1]
    · rw [List.take_take, Nat.min_eq_left (by omega)]
      exact h'.2.2.2
  exact hr.not_nodup h.2.2.2

/-- There is only one first repetition. -/
private theorem Repeats.unique {names : List String} {a b : String} {i j k l : Nat}
    (h : Repeats names a i j) (h' : Repeats names b k l) : a = b ∧ i = k ∧ j = l := by
  obtain rfl : j = l := Nat.le_antisymm (h.second_le h') (h'.second_le h)
  obtain rfl : a = b := Option.some.inj (h.2.2.1.symm.trans h'.2.2.1)
  refine ⟨rfl, ?_, rfl⟩
  have hj := (List.getElem?_eq_some_iff.mp h.2.2.1).1
  have hi : i < (names.take j).length := by
    rw [List.length_take]
    have := h.1
    omega
  apply (List.getElem?_inj hi h.2.2.2).mp
  rw [List.getElem?_take_of_lt h.1, List.getElem?_take_of_lt h'.1, h.2.1, h'.2.1]

/-- Distinct names give one and the same index under every policy. -/
theorem build_of_nodup {names : List String} (h : names.Nodup) :
    ∃ x, ∀ policy, (build policy names).result = .ok x := extend_of_nodup empty_resolves h

/-- The strict policy refuses a list for the first name that repeats, and for nothing else. -/
theorem build_reject_error {names : List String} {e : Fault} :
    (build .reject names).result = .error e ↔
      ∃ name i j, Repeats names name i j ∧ e = .duplicateName name i j := by
  constructor
  · exact extend_reject_error empty_resolves List.nodup_nil
  · rintro ⟨name, i, j, hr, rfl⟩
    cases h : (build .reject names).result with
    | ok x => exact absurd (extend_reject_ok empty_resolves List.nodup_nil h) hr.not_nodup
    | error f =>
      obtain ⟨other, k, l, hr', rfl⟩ := extend_reject_error empty_resolves List.nodup_nil h
      obtain ⟨rfl, rfl, rfl⟩ := hr.unique hr'
      rfl

/-- The strict policy builds an index exactly when no name repeats. -/
theorem build_reject_ok {names : List String} :
    (∃ x, (build .reject names).result = .ok x) ↔ names.Nodup := by
  constructor
  · rintro ⟨x, h⟩
    exact extend_reject_ok empty_resolves List.nodup_nil h
  · intro h
    obtain ⟨x, hx⟩ := build_of_nodup h
    exact ⟨x, hx .reject⟩

/-- Whatever the policy, there is an index unless the policy is strict and a name repeats. -/
theorem exists_build_iff {policy : DuplicateNames} {names : List String} :
    (∃ x, (build policy names).result = .ok x) ↔ (policy = .reject → names.Nodup) := by
  cases policy with
  | reject => exact build_reject_ok.trans (imp_iff_right rfl).symm
  | lastWins => exact iff_of_true (build_lastWins names) nofun

theorem build_eq_error {policy : DuplicateNames} {names : List String} {e : Fault} :
    (build policy names).result = .error e ↔
      policy = .reject ∧ ∃ name i j, Repeats names name i j ∧ e = .duplicateName name i j := by
  cases policy with
  | reject => rw [build_reject_error, and_iff_right rfl]
  | lastWins =>
    obtain ⟨x, hx⟩ := build_lastWins names
    rw [hx]
    exact iff_of_false nofun fun h => nomatch h.1

/-- An index under the strict policy is the index under every other one. -/
theorem build_reject_eq_ok {names : List String} {x : NameIndex}
    (h : (build .reject names).result = .ok x) (policy : DuplicateNames) :
    (build policy names).result = .ok x := by
  obtain ⟨y, hy⟩ := build_of_nodup (build_reject_ok.mp ⟨x, h⟩)
  rw [hy policy, ← hy .reject, h]

end Compliance.NameIndex
