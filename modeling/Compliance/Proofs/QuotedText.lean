import Compliance.Json.Quoted
import Compliance.Json.Writer

/-! Strings as they are written. A character is written as one piece, and reading the pieces gives
the string back, with the text after its closing quote. -/
namespace Compliance.Json

/-- Characters that have an escape with a letter or a mark. -/
def namedEscapes : List Char := ['"', '\\', '\x08', '\t', '\n', '\x0c', '\r']

/-- The piece by which a character is written. -/
def pieceOf (c : Char) : Piece :=
  if c ∈ namedEscapes then .escaped c
  else if c.toNat < 0x20 then .unit c.toNat
  else .plain c

/-- The three ways in which a character can be written. -/
theorem escapeChar_cases (c : Char) :
    (∃ l, l ≠ 'u' ∧ unescape? l = some c ∧ escapeChar c = ['\\', l] ∧ pieceOf c = .escaped c) ∨
    (c.toNat < 0x20 ∧ escapeChar c = ['\\', 'u', '0', '0', Nat.digitChar (c.toNat / 16),
      Nat.digitChar (c.toNat % 16)] ∧ pieceOf c = .unit c.toNat) ∨
    (c ≠ '"' ∧ c ≠ '\\' ∧ 0x20 ≤ c.toNat ∧ escapeChar c = [c] ∧ pieceOf c = .plain c) := by
  by_cases hnamed : c ∈ namedEscapes
  · have hpiece : pieceOf c = .escaped c := if_pos hnamed
    simp only [namedEscapes, List.mem_cons, List.not_mem_nil, or_false] at hnamed
    refine .inl ?_
    rcases hnamed with rfl | rfl | rfl | rfl | rfl | rfl | rfl
    · exact ⟨'"', by decide, rfl, rfl, hpiece⟩
    · exact ⟨'\\', by decide, rfl, rfl, hpiece⟩
    · exact ⟨'b', by decide, rfl, rfl, hpiece⟩
    · exact ⟨'t', by decide, rfl, rfl, hpiece⟩
    · exact ⟨'n', by decide, rfl, rfl, hpiece⟩
    · exact ⟨'f', by decide, rfl, rfl, hpiece⟩
    · exact ⟨'r', by decide, rfl, rfl, hpiece⟩
  · have hpiece : pieceOf c = if c.toNat < 0x20 then .unit c.toNat else .plain c := if_neg hnamed
    simp only [namedEscapes, List.mem_cons, List.not_mem_nil, or_false, not_or] at hnamed
    obtain ⟨h1, h2, h3, h4, h5, h6, h7⟩ := hnamed
    have hescape : escapeChar c = if c.toNat < 0x20 then
        ['\\', 'u', '0', '0', Nat.digitChar (c.toNat / 16), Nat.digitChar (c.toNat % 16)]
        else [c] := by
      rw [escapeChar, if_neg h1, if_neg h2, if_neg h3, if_neg h4, if_neg h5, if_neg h6, if_neg h7]
    by_cases hlow : c.toNat < 0x20
    · exact .inr (.inl ⟨hlow, hescape.trans (if_pos hlow), hpiece.trans (if_pos hlow)⟩)
    · exact .inr (.inr ⟨h1, h2, Nat.le_of_not_lt hlow, hescape.trans (if_neg hlow),
        hpiece.trans (if_neg hlow)⟩)

theorem renderString_append (s : String) (cs : List Char) :
    renderString s ++ cs = '"' :: (s.toList.flatMap escapeChar ++ '"' :: cs) := by
  simp [renderString]

namespace Quoted

/-- The token by which a string is written. -/
def ofText (s : String) : Quoted := ⟨s.toList.map pieceOf, .closed⟩

private theorem hexValue_digitChar : ∀ d, d < 16 → hexValue? d.digitChar = some d := by decide

private theorem hexUnit_digitChar {n : Nat} (h : n < 0x20) :
    hexUnit? '0' '0' (Nat.digitChar (n / 16)) (Nat.digitChar (n % 16)) = some n := by
  have hzero : hexValue? '0' = some 0 := by decide
  have hhigh := hexValue_digitChar (n / 16) (by omega)
  have hlow := hexValue_digitChar (n % 16) (by omega)
  simp only [hexUnit?, hzero, hhigh, hlow, bind, Option.bind, pure]
  exact congrArg some (by omega)

private theorem scan_escapeChar (c : Char) (rest : List Char) :
    scan (escapeChar c ++ rest) = cons (pieceOf c) (scan rest) := by
  rcases escapeChar_cases c with ⟨l, hu, hl, he, hp⟩ | ⟨hlow, he, hp⟩ | ⟨hq, hb, hlow, he, hp⟩
  · rw [he, hp, List.cons_append, List.cons_append, List.nil_append,
      scan.eq_4 _ _ (fun _ _ _ _ _ h => absurd h hu) hu, hl]
  · rw [he, hp]
    simp only [List.cons_append, List.nil_append, scan.eq_2, hexUnit_digitChar hlow]
  · rw [he, hp, List.singleton_append, scan.eq_6 _ _ (fun _ _ _ _ _ h => absurd h hb)
      (fun _ h => absurd h hb) (fun _ _ h => absurd h hb) (fun h => absurd h hb), if_neg hq,
      if_neg (Nat.not_lt.mpr hlow)]

/-- A string that is written is read as its token. -/
theorem scan_escaped (cs rest : List Char) :
    scan (cs.flatMap escapeChar ++ '"' :: rest) = (⟨cs.map pieceOf, .closed⟩, rest) := by
  induction cs with
  | nil => exact scan.eq_6 _ _ nofun nofun nofun nofun
  | cons c cs ih => rw [List.flatMap_cons, List.append_assoc, scan_escapeChar, ih]; rfl

private theorem textOf_unit {n : Nat} (h : n < 0x20) (ps : List Piece) (e : QuotedEnd) :
    textOf (.unit n :: ps) e = (textOf ps e).map (Char.ofNat n :: ·) := by
  have ht : ¬ isTrailing n = true := by simp [isTrailing]; omega
  have hl : ¬ isLeading n = true := by simp [isLeading]; omega
  match ps with
  | [] | .unit _ :: _ | .plain _ :: _ | .escaped _ :: _ =>
    rw [textOf.eq_def]
    simp only [if_neg ht, if_neg hl]

private theorem textOf_pieceOf (c : Char) (ps : List Piece) (e : QuotedEnd) :
    textOf (pieceOf c :: ps) e = (textOf ps e).map (c :: ·) := by
  rcases escapeChar_cases c with ⟨_, _, _, _, hp⟩ | ⟨hlow, _, hp⟩ | ⟨_, _, _, _, hp⟩
  · rw [hp, textOf]
  · rw [hp, textOf_unit hlow, Char.ofNat_toNat]
  · rw [hp, textOf]

private theorem textOf_map_pieceOf (cs : List Char) : textOf (cs.map pieceOf) .closed = .ok cs := by
  induction cs with
  | nil => rfl
  | cons c cs ih => rw [List.map_cons, textOf_pieceOf, ih]; rfl

/-- The token of a string stands for the string. -/
@[simp] theorem text_ofText (s : String) : (ofText s).text = .ok s := by
  rw [text, ofText, textOf_map_pieceOf]
  exact congrArg Except.ok (String.ofList_toList)

theorem ofText_injective {s t : String} (h : ofText s = ofText t) : s = t := by
  have := text_ofText s
  rw [h, text_ofText] at this
  exact (Except.ok.inj this).symm

end Quoted
end Compliance.Json
