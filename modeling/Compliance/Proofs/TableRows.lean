import Compliance.Console
import Mathlib.Algebra.Order.Group.Nat
import Mathlib.Data.List.Basic
import Std.Data.String.ToNat

/-! The table of the totals on the console, read back. A row is read word by word: what switches
colours is left out, the frame and blanks separate, and the last two words are the counts. -/
namespace Compliance.Console

/-- A text without what switches colours, which goes from an escape to the letter `m`. The flag says
whether the text starts in the middle of that. -/
def unpainted : Bool → List Char → List Char
  | _, [] => []
  | true, c :: cs => unpainted (c ≠ 'm') cs
  | false, c :: cs => if c = '\x1b' then unpainted true cs else c :: unpainted false cs

def isGap (c : Char) : Bool := c = ' ' ∨ c = '║'

def words (cs : List Char) : List (List Char) := (cs.splitOnP isGap).filter (· ≠ [])

/-- The label and the two counts of a row. -/
def readRow (line : String) : Option (String × Nat × Nat) :=
  match ((words (unpainted false line.toList)).map String.ofList).reverse with
  | targets :: rules :: label => do
    return (" ".intercalate label.reverse, ← rules.toNat?, ← targets.toNat?)
  | _ => none

theorem unpainted_append {as : List Char} (h : '\x1b' ∉ as) (bs : List Char) :
    unpainted false (as ++ bs) = as ++ unpainted false bs := by
  induction as with
  | nil => rfl
  | cons a as ih =>
    obtain ⟨ha, has⟩ := not_or.mp (List.mem_cons.not.mp h)
    rw [List.cons_append, unpainted, if_neg (Ne.symm ha), ih has, List.cons_append]

/-- Whether a text leaves no trace when colours are left out. -/
def Switches (s : String) : Prop :=
  ∀ cs, unpainted false (s.toList ++ cs) = unpainted false cs

theorem switches_colour (c : Category) : Switches c.colour := by
  intro cs
  cases c <;> rfl

theorem switches_plain : Switches plain := fun _ => rfl

private theorem switches_nothing : Switches "" := fun _ => rfl

private theorem words_append_gap {c : Char} (hc : isGap c = true) (as bs : List Char) :
    words (as ++ c :: bs) = words as ++ words bs := by
  rw [words, List.splitOnP_append_cons as bs hc, List.filter_append]
  rfl

private theorem words_cons_gap {c : Char} (hc : isGap c = true) (cs : List Char) :
    words (c :: cs) = words cs :=
  words_append_gap hc [] cs

private theorem words_blanks_append (n : Nat) (cs : List Char) :
    words (List.replicate n ' ' ++ cs) = words cs := by
  induction n with
  | zero => rfl
  | succ n ih => rw [List.replicate_succ, List.cons_append, words_cons_gap rfl, ih]

private theorem words_single {w : List Char} (hne : w ≠ []) (h : ∀ c ∈ w, isGap c = false) :
    words w = [w] := by
  rw [words, List.splitOnP_eq_singleton h, List.filter_singleton, decide_eq_true hne]
  rfl

private theorem plain_of_mem_digits {n : Nat} {c : Char} (h : c ∈ Nat.toDigits 10 n) :
    c ≠ '\x1b' ∧ isGap c = false := by
  have hdigit := Nat.isDigit_of_mem_toDigits (by decide) (by decide) h
  constructor
  · rintro rfl
    cases hdigit
  · refine decide_eq_false ?_
    rintro (rfl | rfl) <;> cases hdigit

private theorem words_digits (n : Nat) : words (Nat.toDigits 10 n) = [Nat.toDigits 10 n] :=
  words_single Nat.toDigits_ne_nil fun _ hc => (plain_of_mem_digits hc).2

private theorem words_number {c : Char} (hc : isGap c = true) (n width : Nat) (rest : List Char) :
    words ((Text.padLeft (toString n) width).toList ++ c :: rest)
      = Nat.toDigits 10 n :: words rest := by
  rw [Text.padLeft, String.toList_ofList, List.append_assoc, words_blanks_append,
    words_append_gap hc]
  show words (Nat.repr n).toList ++ _ = _
  rw [Nat.toList_repr, words_digits]
  rfl

private theorem plain_padLeft (n width : Nat) :
    '\x1b' ∉ (Text.padLeft (toString n) width).toList := by
  rw [Text.padLeft, String.toList_ofList, List.mem_append, List.mem_replicate]
  rintro (⟨_, h⟩ | h)
  · cases h
  · exact (plain_of_mem_digits (Nat.toList_repr ▸ h)).1 rfl

/-- What is left of a row without colours. -/
private theorem unpainted_tableRow {before label after : String} (hb : Switches before)
    (ha : Switches after) (hl : '\x1b' ∉ label.toList) (rules targets : Nat) :
    unpainted false (tableRow before label after rules targets).toList
      = '║' :: (List.replicate 3 ' ' ++ ((Text.padRight label 22).toList
        ++ ((Text.padLeft (toString rules) 5).toList ++ ' ' :: (List.replicate 2 ' '
        ++ ((Text.padLeft (toString targets) 7).toList ++ ' ' :: (List.replicate 37 ' ' ++ ['║'])))))) := by
  have hlabel : '\x1b' ∉ (Text.padRight label 22).toList := by
    rw [Text.padRight, String.toList_ofList, List.mem_append, List.mem_replicate]
    exact not_or.mpr ⟨hl, by rintro ⟨_, h⟩; cases h⟩
  rw [tableRow, framed]
  simp only [String.toList_append, List.append_assoc]
  have hside : '\x1b' ∉ "║".toList := by decide
  rw [unpainted_append hside, unpainted_append (by decide), hb,
    unpainted_append hlabel, ha, unpainted_append (plain_padLeft rules 5),
    unpainted_append (by decide), unpainted_append (plain_padLeft targets 7)]
  rfl

/-- A row with a short label is read as what it was made of. -/
theorem readRow_tableRow {before label after : String} (hb : Switches before) (ha : Switches after)
    (hl : '\x1b' ∉ label.toList) (hlength : label.length < 22) (rules targets : Nat) :
    readRow (tableRow before label after rules targets)
      = some (" ".intercalate ((words label.toList).map String.ofList), rules, targets) := by
  obtain ⟨k, hk⟩ : ∃ k, 22 - label.length = k + 1 := ⟨21 - label.length, by omega⟩
  have hwords : words (unpainted false (tableRow before label after rules targets).toList)
      = words label.toList ++ [Nat.toDigits 10 rules, Nat.toDigits 10 targets] := by
    rw [unpainted_tableRow hb ha hl, words_cons_gap rfl, words_blanks_append, Text.padRight,
      String.toList_ofList, hk, List.replicate_succ, List.append_assoc, List.cons_append,
      words_append_gap rfl, words_blanks_append, words_number rfl, words_blanks_append,
      words_number rfl, words_blanks_append]
    rfl
  have hreversed : ((words label.toList ++ [Nat.toDigits 10 rules, Nat.toDigits 10 targets]).map
      String.ofList).reverse
      = Nat.repr targets :: Nat.repr rules :: ((words label.toList).map String.ofList).reverse := by
    rw [List.map_append, List.reverse_append, Nat.repr_eq_ofList_toDigits,
      Nat.repr_eq_ofList_toDigits]
    rfl
  rw [readRow, hwords, hreversed]
  dsimp only
  rw [Nat.toNat?_repr, Nat.toNat?_repr, List.reverse_reverse]
  rfl

theorem readRow_category (c : Category) (rules targets : Nat) :
    readRow (tableRow c.colour c.label plain rules targets) = some (c.label, rules, targets) := by
  have hlabel : '\x1b' ∉ c.label.toList ∧ c.label.length < 22 ∧
      " ".intercalate ((words c.label.toList).map String.ofList) = c.label := by
    cases c <;> decide +kernel
  rw [readRow_tableRow (switches_colour c) switches_plain hlabel.1 hlabel.2.1, hlabel.2.2]

theorem readRow_total (rules targets : Nat) :
    readRow (tableRow "" "Total" "" rules targets) = some ("Total", rules, targets) := by
  have hlabel : " ".intercalate ((words "Total".toList).map String.ofList) = "Total" := by
    decide +kernel
  rw [readRow_tableRow switches_nothing switches_nothing (by decide) (by decide), hlabel]

end Compliance.Console
