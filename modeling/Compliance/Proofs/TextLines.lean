import Compliance.Text.Basic
import Compliance.Text.Offset

/-! The lines of a text, and lines in a width. Both are determined: the lines are what is between the
ends of lines, and a line that is too long is cut where a character begins. -/
namespace Compliance.Text

/-- What ends a line: a line feed, with the carriage return in front of it if there is one. -/
inductive LineEnd (line : List Char) : List Char → Prop where
  | feed (bare : line.getLast? ≠ some '\r') : LineEnd line ['\n']
  | returnFeed : LineEnd line ['\r', '\n']

/-- The lines of a text. None has a line feed in it, and only the last may lack its end. -/
inductive HasLines : List Char → List (List Char) → Prop where
  | nil : HasLines [] []
  | unended {line : List Char} (whole : '\n' ∉ line) (present : line ≠ []) : HasLines line [line]
  | ended {line ending rest : List Char} {lines : List (List Char)} (whole : '\n' ∉ line)
      (ends : LineEnd line ending) (more : HasLines rest lines) :
      HasLines (line ++ (ending ++ rest)) (line :: lines)

section
variable (before rest : List Char)

private theorem linesAfter_of_ne {c : Char} (h : c ≠ '\n') :
    linesAfter before (c :: rest) = linesAfter (c :: before) rest := by
  rw [linesAfter.eq_def]
  cases before <;> exact if_neg h

private theorem linesAfter_feed {before : List Char} (bare : before.head? ≠ some '\r') :
    linesAfter before ('\n' :: rest) = before.reverse :: linesAfter [] rest := by
  rw [linesAfter, if_pos rfl]
  rintro line rfl
  exact bare rfl

private theorem linesAfter_returnFeed :
    linesAfter ('\r' :: before) ('\n' :: rest) = before.reverse :: linesAfter [] rest := by
  rw [linesAfter, if_pos rfl]

/-- Up to its end a line is collected in reverse. -/
theorem linesAfter_append {line : List Char} (h : '\n' ∉ line) :
    linesAfter before (line ++ rest) = linesAfter (line.reverse ++ before) rest := by
  induction line generalizing before with
  | nil => rfl
  | cons c line ih =>
    rw [List.mem_cons, not_or] at h
    rw [List.cons_append, linesAfter_of_ne _ _ (Ne.symm h.1), ih _ h.2, List.reverse_cons,
      List.append_assoc]
    rfl

private theorem linesAfter_ended {line ending : List Char} (whole : '\n' ∉ line)
    (ends : LineEnd line ending) :
    linesAfter [] (line ++ (ending ++ rest)) = line :: linesAfter [] rest := by
  rw [linesAfter_append [] _ whole, List.append_nil]
  cases ends with
  | feed bare =>
    rw [← List.head?_reverse] at bare
    exact (linesAfter_feed rest bare).trans (congrArg (· :: _) line.reverse_reverse)
  | returnFeed =>
    have hreturn : linesAfter line.reverse ('\r' :: '\n' :: rest)
        = linesAfter ('\r' :: line.reverse) ('\n' :: rest) := linesAfter_of_ne _ _ (by decide)
    exact hreturn.trans ((linesAfter_returnFeed _ rest).trans (congrArg (· :: _) line.reverse_reverse))

end

theorem HasLines.eq {cs : List Char} {lines : List (List Char)} (h : HasLines cs lines) :
    linesAfter [] cs = lines := by
  induction h with
  | nil => rfl
  | @unended line whole present =>
    have h := linesAfter_append [] [] whole
    rw [List.append_nil, List.append_nil] at h
    rw [h, linesAfter, List.reverse_reverse]
    simpa using present
  | ended whole ends more ih => rw [linesAfter_ended _ whole ends, ih]

/-- What was collected is the start of the first line. -/
theorem hasLines_linesAfter {before : List Char} (h : '\n' ∉ before) (cs : List Char) :
    HasLines (before.reverse ++ cs) (linesAfter before cs) := by
  fun_induction linesAfter before cs with
  | case1 => exact .nil
  | case2 before hpresent =>
    rw [List.append_nil]
    exact .unended (by simpa using h) (by simpa using hpresent)
  | case3 before rest ih =>
    have hrest : HasLines rest (linesAfter [] rest) := ih List.not_mem_nil
    have hwhole : '\n' ∉ before.reverse := by simpa using h
    split
    next line =>
      rw [List.reverse_cons, List.append_assoc]
      have hline : '\n' ∉ line.reverse := fun hmem => hwhole (by simp [List.mem_reverse.mp hmem])
      show HasLines (line.reverse ++ (['\r', '\n'] ++ rest)) _
      exact .ended hline .returnFeed hrest
    next hbare =>
      refine .ended hwhole (.feed ?_) hrest
      rw [List.getLast?_reverse]
      intro hreturn
      obtain ⟨line, rfl⟩ := List.head?_eq_some_iff.mp hreturn
      exact hbare line rfl
  | case4 before c rest hne ih =>
    have hline := ih (by simpa [Ne.symm hne] using h)
    rwa [List.reverse_cons, List.append_assoc] at hline

theorem linesAfter_eq_iff {cs : List Char} {lines : List (List Char)} :
    linesAfter [] cs = lines ↔ HasLines cs lines :=
  ⟨fun h => h ▸ hasLines_linesAfter List.not_mem_nil cs, HasLines.eq⟩

/-- What is shown of a line in a width: all of it if it fits, and otherwise as much as leaves room for
three dots. The line is cut at an offset in its bytes. -/
inductive Clipped (width : Nat) (line : List Char) : List Char → Prop where
  | whole (fits : line.length ≤ width) : Clipped width line line
  | cut {n : Nat} {kept lost : List Char} (long : width < line.length)
      (parts : cutAt? n line = some (kept, lost)) (room : kept.length + 3 = width) :
      Clipped width line (kept ++ ['.', '.', '.'])

private theorem Clipped.length_le {width : Nat} {line shown : List Char}
    (h : Clipped width line shown) :
    shown.length ≤ width := by
  cases h with
  | whole fits => exact fits
  | cut long parts room =>
    rw [List.length_append]
    exact Nat.le_of_eq room

theorem clip_clipped (line : String) {width : Nat} (h : 3 ≤ width) :
    Clipped width line.toList (clip line width).toList := by
  rw [clip, ← String.length_toList]
  split
  next long =>
    have hparts : line.toList = line.toList.take (width - 3) ++ line.toList.drop (width - 3) :=
      (List.take_append_drop _ _).symm
    rw [String.toList_ofList]
    refine .cut long (cutAt?_eq_some_iff.mpr ⟨hparts, rfl⟩) ?_
    rw [List.length_take]
    omega
  next fits => exact .whole (Nat.le_of_not_lt fits)

/-- Nothing is wider than the width. -/
theorem length_clip_le (line : String) {width : Nat} (h : 3 ≤ width) :
    (clip line width).length ≤ width := by
  rw [← String.length_toList]
  exact (clip_clipped line h).length_le

private theorem Clipped.unique {width : Nat} {line shown shown' : List Char}
    (h : Clipped width line shown) (h' : Clipped width line shown') : shown = shown' := by
  cases h with
  | whole fits =>
    cases h' with
    | whole => rfl
    | cut long => exact absurd fits (Nat.not_le_of_lt long)
  | cut long parts room =>
    cases h' with
    | whole fits => exact absurd fits (Nat.not_le_of_lt long)
    | cut _ parts' room' =>
      -- Both parts that are kept begin the line, and are as long.
      obtain ⟨rfl, -⟩ := cutAt?_eq_some parts
      have hparts := (cutAt?_eq_some parts').1
      rw [(List.append_inj hparts (by omega)).1]

theorem clip_eq_iff {line shown : String} {width : Nat} (h : 3 ≤ width) :
    clip line width = shown ↔ Clipped width line.toList shown.toList := by
  have hclip := clip_clipped line h
  constructor
  · rintro rfl
    exact hclip
  · intro hshown
    exact String.toList_inj.mp (hclip.unique hshown)

end Compliance.Text
