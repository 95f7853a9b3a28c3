import Compliance.Json.Numeral

/-! Numerals as they are written. Reading a written numeral gives it back, with the text after it,
when that text cannot go on a number. -/
namespace Compliance.Json.Numeral

def digitsText (ds : List Nat) : List Char := ds.map Nat.digitChar

def fractionText (ds : List Nat) : List Char := if ds = [] then [] else '.' :: digitsText ds

def exponentText : Option (Bool × List Nat) → List Char
  | none => []
  | some (negative, ds) => 'e' :: (if negative then '-' else '+') :: digitsText ds

/-- The token of a numeral. The exponent has a sign. -/
def text (n : Numeral) : List Char :=
  (if n.negative then ['-'] else []) ++ digitsText n.whole ++ fractionText n.fraction
    ++ exponentText n.exponent

/-- Digits that can be written. -/
def Digits (ds : List Nat) : Prop := ∀ d ∈ ds, d < 10

/-- Numerals that the grammar allows. -/
structure Proper (n : Numeral) : Prop where
  whole : Digits n.whole
  fraction : Digits n.fraction
  exponent : ∀ e, n.exponent = some e → Digits e.2 ∧ e.2 ≠ []
  present : n.whole ≠ []
  noLeadingZero : n.whole.head? = some 0 → n.whole = [0]

/-- Whether a text starts with no digit. -/
def EndsDigits (rest : List Char) : Prop := ∀ c, rest.head? = some c → isDigit c = false

/-- Whether a number token that stands before a text ends there. -/
def Ends (rest : List Char) : Prop :=
  ∀ c, rest.head? = some c → isDigit c = false ∧ c ≠ '.' ∧ c ≠ 'e' ∧ c ≠ 'E'

private theorem Ends.endsDigits {rest : List Char} (h : Ends rest) :
    EndsDigits rest := fun c hc => (h c hc).1

theorem ends_nil : Ends [] := by
  intro c h
  cases h

private theorem isDigit_digitChar {d : Nat} (h : d < 10) : isDigit d.digitChar = true := by
  have he : isDigit d.digitChar = d.digitChar.isDigit := rfl
  rw [he, Nat.isDigit_digitChar, decide_eq_true h]

private theorem toNat_digitChar_sub {d : Nat} (h : d < 10) : d.digitChar.toNat - '0'.toNat = d :=
  Nat.toNat_digitChar_sub_48_of_lt_ten h

theorem forall_mem_digitsText {ds : List Nat} (h : Digits ds) :
    ∀ c ∈ digitsText ds, isDigit c = true := by
  intro c hc
  obtain ⟨d, hd, rfl⟩ := List.mem_map.mp hc
  exact isDigit_digitChar (h d hd)

private theorem takeWhile_of_ends {rest : List Char} (h : EndsDigits rest) :
    rest.takeWhile isDigit = [] := by
  cases rest with
  | nil => rfl
  | cons c rest => exact List.takeWhile_cons_of_neg (by simp [h c rfl])

private theorem dropWhile_of_ends {rest : List Char} (h : EndsDigits rest) :
    rest.dropWhile isDigit = rest := by
  cases rest with
  | nil => rfl
  | cons c rest => exact List.dropWhile_cons_of_neg (by simp [h c rfl])

private theorem digits_text {ds : List Nat} {rest : List Char} (h : Digits ds)
    (hr : EndsDigits rest) :
    digits (digitsText ds ++ rest) = (ds, rest) := by
  have hall := forall_mem_digitsText h
  have hvalues : (digitsText ds).map (fun c => c.toNat - '0'.toNat) = ds := by
    rw [digitsText, List.map_map]
    exact (List.map_congr_left fun d hd => toNat_digitChar_sub (h d hd)).trans (List.map_id _)
  rw [digits, List.takeWhile_append_of_pos hall, List.dropWhile_append_of_pos hall,
    takeWhile_of_ends hr, dropWhile_of_ends hr, List.append_nil, hvalues]

private theorem someDigits_text {ds : List Nat} {rest : List Char} (h : Digits ds) (hne : ds ≠ [])
    (hr : EndsDigits rest) : someDigits (digitsText ds ++ rest) = .ok (ds, rest) := by
  cases ds with
  | nil => exact absurd rfl hne
  | cons d ds =>
    rw [← digits_text h hr]
    exact if_pos (isDigit_digitChar (h d List.mem_cons_self))

private theorem scanWhole_text {ds : List Nat} {rest : List Char} (h : Digits ds) (hne : ds ≠ [])
    (hz : ds.head? = some 0 → ds = [0]) (hr : EndsDigits rest) :
    scanWhole (digitsText ds ++ rest) = .ok (ds, rest) := by
  rw [scanWhole, someDigits_text h hne hr]
  exact if_neg fun hc => hc.2 (hz hc.1)

private theorem scanFraction_text {ds : List Nat} {rest : List Char} (h : Digits ds)
    (hr : EndsDigits rest) (hp : rest.head? ≠ some '.') :
    scanFraction (fractionText ds ++ rest) = .ok (ds, rest) := by
  by_cases hd : ds = []
  · subst hd
    rw [fractionText, if_pos rfl, List.nil_append, scanFraction.eq_2]
    intro r hr
    rw [hr] at hp
    exact hp rfl
  · rw [fractionText, if_neg hd]
    exact someDigits_text h hd hr

private theorem scanExponent_text {e : Option (Bool × List Nat)} {rest : List Char}
    (h : ∀ x, e = some x → Digits x.2 ∧ x.2 ≠ []) (hr : Ends rest) :
    scanExponent (exponentText e ++ rest) = .ok (e, rest) := by
  cases e with
  | none =>
    cases rest with
    | nil => rfl
    | cons c rest =>
      obtain ⟨_, _, he, hE⟩ := hr c rfl
      exact if_neg (by simp [he, hE])
  | some x =>
    obtain ⟨negative, ds⟩ := x
    obtain ⟨hd, hne⟩ := h _ rfl
    have hs := someDigits_text hd hne hr.endsDigits
    cases negative with
    | false =>
      show (someDigits (digitsText ds ++ rest)).map _ = _
      rw [hs]
      rfl
    | true =>
      show (someDigits (digitsText ds ++ rest)).map _ = _
      rw [hs]
      rfl

private theorem exponentText_endsDigits (e : Option (Bool × List Nat)) {rest : List Char}
    (hr : Ends rest) :
    EndsDigits (exponentText e ++ rest) ∧ (exponentText e ++ rest).head? ≠ some '.' := by
  cases e with
  | none => exact ⟨hr.endsDigits, fun h => (hr _ h).2.1 rfl⟩
  | some e =>
    constructor
    · intro c hc
      cases hc
      rfl
    · intro hc
      cases hc

private theorem fractionText_endsDigits (ds : List Nat) {rest : List Char} (hr : EndsDigits rest) :
    EndsDigits (fractionText ds ++ rest) := by
  rw [fractionText]
  split
  · exact hr
  · intro c hc
    cases hc
    rfl

private theorem scan_unsigned {cs : List Char} (h : cs.head? ≠ some '-') :
    scan cs = do
      let (whole, cs) ← scanWhole cs
      let (fraction, cs) ← scanFraction cs
      let (exponent, cs) ← scanExponent cs
      return (⟨false, whole, fraction, exponent⟩, cs) := by
  unfold scan
  split
  next hs =>
    split at hs
    · exact absurd rfl h
    · cases hs
      rfl

private theorem head?_digitsText_append {ds : List Nat} (h : Digits ds) (hne : ds ≠ [])
    (rest : List Char) : (digitsText ds ++ rest).head? ≠ some '-' := by
  cases ds with
  | nil => exact absurd rfl hne
  | cons d ds =>
    intro hc
    have hd := isDigit_digitChar (h d List.mem_cons_self)
    rw [Option.some.inj hc] at hd
    cases hd

/-- A numeral that is written reads back. -/
theorem scan_text {n : Numeral} {rest : List Char} (h : n.Proper) (hr : Ends rest) :
    scan (n.text ++ rest) = .ok (n, rest) := by
  obtain ⟨hexp, hpoint⟩ := exponentText_endsDigits n.exponent hr
  have hw := scanWhole_text h.whole h.present h.noLeadingZero (fractionText_endsDigits n.fraction hexp)
  have hf := scanFraction_text h.fraction hexp hpoint
  have he := scanExponent_text h.exponent hr
  have hs := head?_digitsText_append h.whole h.present
    (fractionText n.fraction ++ (exponentText n.exponent ++ rest))
  obtain ⟨negative, whole, fraction, exponent⟩ := n
  cases negative with
  | true =>
    simp only [text, scan, if_true, List.append_assoc, List.cons_append, List.nil_append, hw, hf, he,
      bind, Except.bind, pure, Except.pure]
  | false =>
    simp only [text, Bool.false_eq_true, if_false, List.append_assoc, List.nil_append]
    rw [scan_unsigned hs]
    simp only [hw, hf, he, bind, Except.bind, pure, Except.pure]

/-- A token has digits in it, and signs, a point and the letter of an exponent. -/
theorem forall_mem_text {n : Numeral} (h : n.Proper) :
    ∀ c ∈ n.text, isDigit c = true ∨ c ∈ ['-', '+', '.', 'e'] := by
  intro c hc
  simp only [text, List.mem_append] at hc
  rcases hc with ((hc | hc) | hc) | hc
  · split at hc
    · obtain rfl := List.mem_singleton.mp hc
      exact .inr (by decide)
    · cases hc
  · exact .inl (forall_mem_digitsText h.whole c hc)
  · rw [fractionText] at hc
    split at hc
    · cases hc
    · rcases List.mem_cons.mp hc with rfl | hc
      · exact .inr (by decide)
      · exact .inl (forall_mem_digitsText h.fraction c hc)
  · match he : n.exponent with
    | none => rw [he] at hc; cases hc
    | some (negative, ds) =>
      rw [he] at hc
      rcases List.mem_cons.mp hc with rfl | hc
      · exact .inr (by decide)
      rcases List.mem_cons.mp hc with rfl | hc
      · cases negative <;> exact .inr (by decide)
      · exact .inl (forall_mem_digitsText (h.exponent _ he).1 c hc)

theorem exists_text_eq_cons {n : Numeral} (h : n.Proper) :
    ∃ c cs, n.text = c :: cs ∧ (c = '-' ∨ isDigit c = true) := by
  obtain ⟨negative, whole, fraction, exponent⟩ := n
  cases negative with
  | true => exact ⟨'-', _, rfl, .inl rfl⟩
  | false =>
    cases whole with
    | nil => exact absurd rfl h.present
    | cons d ds => exact ⟨d.digitChar, _, rfl, .inr (isDigit_digitChar (h.whole d List.mem_cons_self))⟩

end Compliance.Json.Numeral
