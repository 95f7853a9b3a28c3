import Compliance.Text.Lowercase

/-! Lower case does not depend on the letter case it starts from. It is no map over characters, since a
sigma is written as the characters around it ask; but what is asked about a capital has the same answer
for its small letter. -/
namespace Compliance.Text

/-- A set of which no range meets an interval has no character in it. -/
private theorem Ranges.contains_eq_false {r : Ranges} {lo hi : Nat}
    (h : ∀ e ∈ r, e.2 < lo ∨ hi < e.1)
    {c : Char} (hc : lo ≤ c.toNat ∧ c.toNat ≤ hi) : r.contains c = false := by
  rw [contains, List.any_eq_false]
  intro e he
  rw [Bool.and_eq_true, decide_eq_true_eq, decide_eq_true_eq]
  have := h e he
  omega

/-- Code points of the capital letters of ASCII. -/
def capitals : List Nat := List.range' 0x41 26

private theorem toLower_eq_or_mem_capitals (c : Char) : c.toLower = c ∨ c.toNat ∈ capitals := by
  by_cases h : c.val ≥ 'A'.val ∧ c.val ≤ 'Z'.val
  · have hfirst : 0x41 ≤ c.toNat := UInt32.le_iff_toNat_le.mp h.1
    have hlast : c.toNat ≤ 0x5A := UInt32.le_iff_toNat_le.mp h.2
    rw [capitals, List.mem_range'_1]
    omega
  · exact .inl (dif_neg h)

/-- What holds of the capital letters by their code points. -/
theorem forall_capital {P : Char → Prop} (h : ∀ n ∈ capitals, P (Char.ofNat n)) {c : Char}
    (hc : c.toNat ∈ capitals) : P c := by
  have hp := h c.toNat hc
  rwa [Char.ofNat_toNat] at hp

private theorem isCaseIgnorable_toLower_capital {c : Char} (h : c.toNat ∈ capitals) :
    isCaseIgnorable c.toLower = isCaseIgnorable c := by
  have hplace := forall_capital (P := fun c => (0x41 ≤ c.toNat ∧ c.toNat ≤ 0x5A) ∧
    (0x61 ≤ c.toLower.toNat ∧ c.toLower.toNat ≤ 0x7A)) (by decide) h
  have hcapital : ∀ e ∈ caseIgnorableRanges, e.2 < 0x41 ∨ 0x5A < e.1 := by decide +kernel
  have hsmall : ∀ e ∈ caseIgnorableRanges, e.2 < 0x61 ∨ 0x7A < e.1 := by decide +kernel
  rw [isCaseIgnorable, isCaseIgnorable, Ranges.contains_eq_false hcapital hplace.1,
    Ranges.contains_eq_false hsmall hplace.2]

/-- What lower case asks about a character, and has the same answer for two. -/
structure CaseBlind (c d : Char) : Prop where
  cased : isCased c = isCased d
  ignorable : isCaseIgnorable c = isCaseIgnorable d
  lower : lowerChar c = lowerChar d
  sigma : c = 'Σ' ↔ d = 'Σ'

private theorem caseBlind_toLower (c : Char) : CaseBlind c.toLower c := by
  rcases toLower_eq_or_mem_capitals c with h | h
  · rw [h]
    exact ⟨rfl, rfl, rfl, .rfl⟩
  · obtain ⟨hcased, hlower, hsigma⟩ := forall_capital (P := fun c =>
      isCased c.toLower = isCased c ∧ lowerChar c.toLower = lowerChar c ∧ (c.toLower = 'Σ' ↔ c = 'Σ'))
      (by decide +kernel) h
    exact ⟨hcased, isCaseIgnorable_toLower_capital h, hlower, hsigma⟩

private theorem meetsCased_cons (c : Char) (cs : List Char) :
    meetsCased (c :: cs) = if isCaseIgnorable c then meetsCased cs else isCased c := by
  cases hc : isCaseIgnorable c with
  | true => rw [meetsCased, List.dropWhile_cons_of_pos hc, if_pos rfl, meetsCased]
  | false => rw [meetsCased, List.dropWhile_cons_of_neg (ne_true_of_eq_false hc),
    if_neg Bool.false_ne_true]

private theorem meetsCased_map_toLower (cs : List Char) :
    meetsCased (cs.map Char.toLower) = meetsCased cs := by
  induction cs with
  | nil => rfl
  | cons c cs ih =>
    have hc := caseBlind_toLower c
    rw [List.map_cons, meetsCased_cons, meetsCased_cons, hc.ignorable, hc.cased, ih]

/-- Lower case of a text does not depend on the letter case of any part of it, what stands before it
included. -/
private theorem lowercaseAfter_map_toLower (before cs : List Char) :
    lowercaseAfter (before.map Char.toLower) (cs.map Char.toLower) = lowercaseAfter before cs := by
  induction cs generalizing before with
  | nil => rfl
  | cons c cs ih =>
    -- what was passed is looked back at for a sigma, so it changes its case with the rest
    have hc := caseBlind_toLower c
    have hrest := ih (c :: before)
    rw [List.map_cons] at hrest
    rw [List.map_cons, lowercaseAfter, lowercaseAfter, hrest, hc.lower, meetsCased_map_toLower,
      meetsCased_map_toLower]
    simp only [hc.sigma]

/-- Two texts that differ in the case of ASCII letters at most. -/
def SameLetters (s t : String) : Prop := s.toList.map Char.toLower = t.toList.map Char.toLower

instance (s t : String) : Decidable (SameLetters s t) :=
  inferInstanceAs (Decidable (s.toList.map Char.toLower = t.toList.map Char.toLower))

theorem lowercase_congr {s t : String} (h : SameLetters s t) : lowercase s = lowercase t := by
  have hs := lowercaseAfter_map_toLower [] s.toList
  rw [h] at hs
  rw [lowercase, lowercase, ← hs, ← lowercaseAfter_map_toLower [] t.toList]

end Compliance.Text
