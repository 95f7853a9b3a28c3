/-!
Places in a text as offsets in its UTF-8 bytes. A text can be cut where a character begins and at its
end, not inside a character.
-/
namespace Compliance.Text

def bytes (cs : List Char) : List UInt8 := cs.flatMap String.utf8EncodeChar

def lastOffset? (c : Char) : List Char → Option Nat
  | [] => none
  | d :: cs =>
    match lastOffset? c cs with
    | some n => some (d.utf8Size + n)
    | none => if d = c then some 0 else none

/-- The two parts of a text before and after an offset, if it can be cut there. -/
def cutAt? : Nat → List Char → Option (List Char × List Char)
  | 0, cs => some ([], cs)
  | _ + 1, [] => none
  | n + 1, c :: cs =>
    if n + 1 < c.utf8Size then none
    else (cutAt? (n + 1 - c.utf8Size) cs).map fun parts => (c :: parts.1, parts.2)

theorem length_bytes_cons (c : Char) (cs : List Char) :
    (bytes (c :: cs)).length = c.utf8Size + (bytes cs).length := by
  rw [bytes, List.flatMap_cons, List.length_append, String.length_utf8EncodeChar, bytes]

@[simp] theorem length_bytes_append (cs ds : List Char) :
    (bytes (cs ++ ds)).length = (bytes cs).length + (bytes ds).length := by
  rw [bytes, List.flatMap_append, List.length_append, bytes, bytes]

/-- A text is cut between any two parts. -/
theorem cutAt?_append (before after : List Char) :
    cutAt? (bytes before).length (before ++ after) = some (before, after) := by
  induction before with
  | nil => cases after <;> rfl
  | cons c before ih =>
    have hsize := c.utf8Size_pos
    obtain ⟨n, hn⟩ : ∃ n, (bytes (c :: before)).length = n + 1 :=
      ⟨_, (Nat.succ_pred_eq_of_pos (by rw [length_bytes_cons]; omega)).symm⟩
    have hrest : n + 1 - c.utf8Size = (bytes before).length := by
      rw [length_bytes_cons] at hn
      omega
    have hinside : ¬ n + 1 < c.utf8Size := by
      rw [length_bytes_cons] at hn
      omega
    rw [hn, List.cons_append, cutAt?, if_neg hinside, hrest, ih]
    rfl

/-- What is cut are parts of the text, and the offset is their border. -/
theorem cutAt?_eq_some {n : Nat} {cs before after : List Char}
    (h : cutAt? n cs = some (before, after)) : cs = before ++ after ∧ n = (bytes before).length := by
  induction cs generalizing n before after with
  | nil =>
    cases n with
    | zero =>
      cases h
      exact ⟨rfl, rfl⟩
    | succ n => cases h
  | cons c cs ih =>
    cases n with
    | zero =>
      cases h
      exact ⟨rfl, rfl⟩
    | succ n =>
      rw [cutAt?] at h
      split at h
      · cases h
      · obtain ⟨⟨first, second⟩, hparts, heq⟩ := Option.map_eq_some_iff.mp h
        cases heq
        obtain ⟨rfl, hn⟩ := ih hparts
        refine ⟨rfl, ?_⟩
        dsimp only
        rw [length_bytes_cons]
        omega

theorem cutAt?_eq_some_iff {n : Nat} {cs before after : List Char} :
    cutAt? n cs = some (before, after) ↔ cs = before ++ after ∧ n = (bytes before).length := by
  constructor
  · exact cutAt?_eq_some
  · rintro ⟨rfl, rfl⟩
    exact cutAt?_append before after

theorem lastOffset?_eq_none {c : Char} {cs : List Char} (h : lastOffset? c cs = none) : c ∉ cs := by
  induction cs with
  | nil => exact List.not_mem_nil
  | cons d cs ih =>
    rw [lastOffset?] at h
    cases hcs : lastOffset? c cs with
    | some n => simp [hcs] at h
    | none =>
      rw [hcs] at h
      intro hmem
      rcases List.mem_cons.mp hmem with rfl | hmem
      · simp at h
      · exact ih hcs hmem

theorem lastOffset?_eq_some {c : Char} {cs : List Char} {n : Nat} (h : lastOffset? c cs = some n) :
    ∃ before after, cs = before ++ c :: after ∧ c ∉ after ∧ n = (bytes before).length := by
  induction cs generalizing n with
  | nil => cases h
  | cons d cs ih =>
    rw [lastOffset?] at h
    cases hcs : lastOffset? c cs with
    | some m =>
      obtain ⟨before, after, rfl, hlast, rfl⟩ := ih hcs
      rw [hcs] at h
      obtain rfl := Option.some.inj h
      exact ⟨d :: before, after, rfl, hlast, (length_bytes_cons d before).symm⟩
    | none =>
      rw [hcs] at h
      dsimp only at h
      split at h
      · subst d
        obtain rfl := Option.some.inj h
        exact ⟨[], cs, rfl, lastOffset?_eq_none hcs, rfl⟩
      · cases h

end Compliance.Text
