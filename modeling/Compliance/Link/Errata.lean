import Compliance.Text.Offset

/-!
Page names of errata advisories. `RHSA-2015:1234-01` is on the page `RHSA-2015-1234`.
-/
namespace Compliance.Errata

def isWordChar (c : Char) : Bool := c.isAlphanum

def isDigitByte (b : UInt8) : Bool := 0x30 ≤ b && b ≤ 0x39

/-- An advisory without its revision: a last hyphen with one or more digits after it. The hyphen is
found and the advisory is cut by offsets; there is no result if a cut is inside a character. -/
def withoutRevision? (cs : List Char) : Option (List Char) :=
  match Text.lastOffset? '-' cs with
  | none => some cs
  | some pos =>
    if pos + 1 < (Text.bytes cs).length then
      (Text.cutAt? (pos + 1) cs).bind fun parts =>
        if (Text.bytes parts.2).all isDigitByte then (Text.cutAt? pos cs).map Prod.fst else some cs
    else some cs

/-- Writes a hyphen for every run of characters other than letters and digits. The flag says
whether the character before belongs to such a run. -/
def joinWords : Bool → List Char → List Char
  | _, [] => []
  | inRun, c :: cs =>
    if isWordChar c then c :: joinWords false cs
    else if inRun then joinWords true cs
    else '-' :: joinWords true cs

def slug? (advisory : String) : Option String :=
  (withoutRevision? advisory.toList).map fun base => String.ofList (joinWords false base)

theorem isDigitByte_ofNat {n : Nat} (h : n < 256) :
    isDigitByte (UInt8.ofNat n) = decide (0x30 ≤ n ∧ n ≤ 0x39) := by
  have hn : (UInt8.ofNat n).toNat = n := UInt8.toNat_ofNat_of_lt h
  simp only [isDigitByte, UInt8.le_iff_toNat_le, hn, Bool.decide_and]
  rfl

/-- The bytes of a character are digits only if it is a digit: all others have a byte beyond. -/
theorem all_isDigitByte_encode (c : Char) :
    (String.utf8EncodeChar c).all isDigitByte = c.isDigit := by
  have hdigit : c.isDigit = decide (0x30 ≤ c.val.toNat ∧ c.val.toNat ≤ 0x39) := by
    simp only [Char.isDigit, ge_iff_le, UInt32.le_iff_toNat_le, Bool.decide_and]
    rfl
  have hbeyond : ∀ n < 256, 0x39 < n → isDigitByte (UInt8.ofNat n) = false := by
    intro n hn hlarge
    rw [isDigitByte_ofNat hn, decide_eq_false_iff_not]
    omega
  rw [hdigit, String.utf8EncodeChar]
  generalize c.val.toNat = n
  by_cases hone : n ≤ 127
  · rw [if_pos hone, List.all_cons, List.all_nil, Bool.and_true, isDigitByte_ofNat (by omega)]
  · have hn : decide (0x30 ≤ n ∧ n ≤ 0x39) = false := by
      rw [decide_eq_false_iff_not]
      omega
    rw [if_neg hone, hn]
    split
    · rw [List.all_cons, hbeyond _ (by omega) (by omega), Bool.false_and]
    · split <;> rw [List.all_cons, hbeyond _ (by omega) (by omega), Bool.false_and]

theorem all_isDigitByte_bytes (cs : List Char) :
    (Text.bytes cs).all isDigitByte = cs.all Char.isDigit := by
  rw [Text.bytes, List.all_flatMap]
  exact congrArg (List.all cs) (funext all_isDigitByte_encode)

/-- Both cuts are beside the last hyphen, which is one byte. -/
theorem withoutRevision?_cases (cs : List Char) :
    '-' ∉ cs ∧ withoutRevision? cs = some cs ∨
    ∃ before after, cs = before ++ '-' :: after ∧ '-' ∉ after ∧ withoutRevision? cs
      = some (if after ≠ [] ∧ after.all Char.isDigit then before else cs) := by
  cases h : Text.lastOffset? '-' cs with
  | none => exact .inl ⟨Text.lastOffset?_eq_none h, by rw [withoutRevision?, h]⟩
  | some pos =>
    obtain ⟨before, after, hcs, hlast, rfl⟩ := Text.lastOffset?_eq_some h
    refine .inr ⟨before, after, hcs, hlast, ?_⟩
    have hbefore : Text.cutAt? (Text.bytes before).length cs = some (before, '-' :: after) :=
      Text.cutAt?_eq_some_iff.mpr ⟨hcs, rfl⟩
    have hafter : Text.cutAt? ((Text.bytes before).length + 1) cs = some (before ++ ['-'], after) :=
      Text.cutAt?_eq_some_iff.mpr ⟨by simp [hcs], by rw [Text.length_bytes_append]; rfl⟩
    have hlength : (Text.bytes cs).length
        = (Text.bytes before).length + 1 + (Text.bytes after).length := by
      rw [hcs, Text.length_bytes_append, Text.length_bytes_cons, Nat.add_assoc]
      rfl
    rw [withoutRevision?, h]
    dsimp only
    rw [hafter, hbefore, hlength, Option.bind_some, all_isDigitByte_bytes]
    cases after with
    | nil => simp [Text.bytes]
    | cons c after =>
      have hsize := c.utf8Size_pos
      rw [if_pos (by rw [Text.length_bytes_cons]; omega)]
      by_cases hdigits : (c :: after).all Char.isDigit
      · rw [if_pos hdigits, if_pos ⟨List.cons_ne_nil c after, hdigits⟩, Option.map_some]
      · rw [if_neg hdigits, if_neg fun h => hdigits h.2]

theorem isSome_slug? (advisory : String) : (slug? advisory).isSome := by
  rw [slug?, Option.isSome_map]
  rcases withoutRevision?_cases advisory.toList with ⟨_, h⟩ | ⟨before, after, _, _, h⟩
  · rw [h]
    rfl
  · rw [h]
    rfl

def slug (advisory : String) : String := (slug? advisory).get (isSome_slug? advisory)

theorem slug?_eq (advisory : String) : slug? advisory = some (slug advisory) :=
  (Option.some_get _).symm

end Compliance.Errata
