import Compliance.Proofs.Scanning

/-! The texts of the parts of a written value. Of an array these are the texts of its items, of an
object those of its members, each with its key. -/
namespace Compliance.Json

/-- The text of the value that a text starts with, and the text after it. -/
def valueText? (cs : List Char) : Option (List Char × List Char) :=
  let cs := skipSpace cs
  (Tree.scan cs).2.map fun rest => (cs.take (cs.length - rest.length), rest)

/-- The key and the value's text of the member that a text starts with, and the text after it. -/
def memberText? (cs : List Char) : Option ((String × List Char) × List Char) :=
  match skipSpace cs with
  | '"' :: rest =>
    let (key, rest) := Quoted.scan rest
    match key.text, skipSpace rest with
    | .ok k, ':' :: rest => (valueText? rest).map fun v => ((k, v.1), v.2)
    | _, _ => none
  | _ => none

/-- What is read between commas, up to a closing bracket. -/
def separated? {α : Type} (read : List Char → Option (α × List Char)) (closing : Char) :
    Nat → List Char → Option (List α)
  | 0, _ => none
  | fuel + 1, cs => do
    let (a, rest) ← read cs
    match skipSpace rest with
    | c :: rest =>
      if c = ',' then (separated? read closing fuel rest).map (a :: ·)
      else if c = closing then some [a]
      else none
    | [] => none

def itemTexts? (cs : List Char) : Option (List (List Char)) :=
  match skipSpace cs with
  | '[' :: rest =>
    if (skipSpace rest).head? = some ']' then some []
    else separated? valueText? ']' rest.length rest
  | _ => none

def memberTexts? (cs : List Char) : Option (List (String × List Char)) :=
  match skipSpace cs with
  | '\x7b' :: rest =>
    if (skipSpace rest).head? = some '\x7d' then some []
    else separated? memberText? '\x7d' rest.length rest
  | _ => none

/-- What is written between commas is read in its order. -/
theorem separated_eq_some {α β : Type} {read : List Char → Option (β × List Char)}
    {closing : Char} (hc : closing ≠ ',') (hs : isSpace closing = false) {text : α → List Char}
    {out : α → β} (hread : ∀ a rest, Numeral.Ends rest → read (text a ++ rest) = some (out a, rest))
    {ws rest : List Char} (hws : ∀ c ∈ ws, isSpace c = true)
    (hends : Numeral.Ends (ws ++ closing :: rest)) (a : α) (as : List α) (fuel : Nat)
    (hfuel : as.length < fuel) :
    separated? read closing fuel
      (text a ++ (as.flatMap (fun a => ',' :: text a) ++ (ws ++ closing :: rest)))
      = some ((a :: as).map out) := by
  induction as generalizing a fuel with
  | nil =>
    match fuel with
    | fuel + 1 =>
      rw [separated?, List.flatMap_nil, List.nil_append, hread a _ hends]
      simp only [bind, Option.bind, skipSpace_blank hws, skipSpace_cons hs, if_neg hc, if_true]
      rfl
  | cons b bs ih =>
    match fuel with
    | fuel + 1 =>
      have hcomma : Numeral.Ends (',' :: text b ++
          (bs.flatMap (fun a => ',' :: text a) ++ (ws ++ closing :: rest))) := by
        intro c hc
        obtain rfl : ',' = c := Option.some.inj hc
        decide
      have hmore := ih b fuel (by simpa using hfuel)
      rw [separated?, List.flatMap_cons, List.append_assoc, hread a _ hcomma]
      simp only [bind, Option.bind, List.cons_append, @skipSpace_cons ',' rfl, if_true, hmore]
      rfl

namespace Layout

private theorem writeItems_eq_flatMap (l : Layout) (level : Nat) (vs : List Json) :
    l.writeItems level vs =
      vs.flatMap (fun v => ',' :: (l.line (level + 1) ++ l.write (level + 1) v))
        ++ (l.line level ++ [']']) := by
  induction vs with
  | nil => rfl
  | cons v vs ih => simp [writeItems, ih]

private theorem writeMembers_eq_flatMap (l : Layout) (level : Nat) (ms : List (String × Json)) :
    l.writeMembers level ms =
      ms.flatMap (fun m => ',' :: (l.line (level + 1) ++ (renderString m.1
        ++ ':' :: (l.colon ++ l.write (level + 1) m.2)))) ++ (l.line level ++ ['\x7d']) := by
  induction ms with
  | nil => rfl
  | cons m ms ih => simp [writeMembers, ih]

private theorem valueText_write (l : Layout) (level : Nat) (v : Json) {cs rest : List Char}
    (hr : Numeral.Ends rest) (hcs : skipSpace cs = l.write level v ++ rest) :
    valueText? cs = some (l.write level v, rest) := by
  have hlength : (l.write level v ++ rest).length - rest.length = (l.write level v).length := by
    rw [List.length_append, Nat.add_sub_cancel]
  simp only [valueText?, hcs, l.scan_write level v hr, Option.map_some, hlength,
    List.take_left]

private theorem memberText_write (l : Layout) (level : Nat) (k : String) (v : Json)
    {cs rest : List Char} (hr : Numeral.Ends rest)
    (hcs : skipSpace cs = renderString k ++ ':' :: (l.colon ++ l.write level v) ++ rest) :
    memberText? cs = some ((k, l.write level v), rest) := by
  have hv := l.valueText_write level v hr (l.skipSpace_colon_write level v rest)
  simp only [List.append_assoc, List.cons_append, renderString_append] at hcs
  have htext := Quoted.text_ofText k
  rw [Quoted.ofText] at htext
  simp only [memberText?, hcs, Quoted.scan_escaped, htext, @skipSpace_cons ':' rfl, hv]
  rfl

private theorem length_lt_writeItems (l : Layout) (level : Nat) (vs : List Json) :
    vs.length < (l.writeItems level vs).length := by
  induction vs with
  | nil => simp [writeItems]
  | cons v vs ih =>
    simp only [writeItems, List.length_append, List.length_cons]
    omega

private theorem length_lt_writeMembers (l : Layout) (level : Nat) (ms : List (String × Json)) :
    ms.length < (l.writeMembers level ms).length := by
  induction ms with
  | nil => simp [writeMembers]
  | cons m ms ih =>
    simp only [writeMembers, List.length_append, List.length_cons]
    omega

/-- The texts of the items of a written array. -/
theorem itemTexts_write (l : Layout) (level : Nat) (vs : List Json) :
    itemTexts? (l.write level (.array vs)) = some (vs.map (l.write (level + 1))) := by
  cases vs with
  | nil => rfl
  | cons v vs =>
    have hwrite : l.write level (.array (v :: vs)) = '[' :: (l.line (level + 1) ++
        (l.write (level + 1) v ++ l.writeItems level vs)) := by
      simp [write]
    have hstart := l.skipSpace_line_write (level + 1) (level + 1) v (l.writeItems level vs)
    have hread : ∀ w rest, Numeral.Ends rest →
        valueText? (l.line (level + 1) ++ l.write (level + 1) w ++ rest)
          = some (l.write (level + 1) w, rest) := by
      intro w rest hr
      rw [List.append_assoc]
      exact l.valueText_write (level + 1) w hr (l.skipSpace_line_write _ _ w rest)
    have hitems := separated_eq_some (by decide) rfl hread (l.line_blank level)
      (ends_of_blank (l.line_blank level) (.inr (.inl rfl)) []) v vs
    rw [← l.writeItems_eq_flatMap, List.append_assoc] at hitems
    rw [hwrite, itemTexts?, skipSpace_cons rfl]
    simp only [hstart]
    obtain ⟨c, rest, he, _, hc⟩ := l.starts_write (level + 1) v
    rw [if_neg (by rw [he]; exact fun h => hc (Option.some.inj h))]
    refine hitems _ ?_
    have := l.length_lt_writeItems level vs
    simp only [List.length_append]
    omega

/-- The keys of a written object with the texts of their values. -/
theorem memberTexts_write (l : Layout) (level : Nat) (ms : List (String × Json)) :
    memberTexts? (l.write level (.object ms))
      = some (ms.map fun m => (m.1, l.write (level + 1) m.2)) := by
  cases ms with
  | nil => rfl
  | cons m ms =>
    obtain ⟨k, v⟩ := m
    have hwrite : l.write level (.object ((k, v) :: ms)) = '\x7b' :: (l.line (level + 1) ++
        (renderString k ++ ':' :: (l.colon ++ l.write (level + 1) v) ++ l.writeMembers level ms)) := by
      simp [write]
    have hstart : ∀ k cs, skipSpace (l.line (level + 1) ++ (renderString k ++ cs))
        = renderString k ++ cs := by
      intro k cs
      rw [skipSpace_blank (l.line_blank _), renderString_append]
      exact skipSpace_cons rfl _
    have hread : ∀ (m : String × Json) rest, Numeral.Ends rest →
        memberText? (l.line (level + 1) ++ (renderString m.1 ++ ':' :: (l.colon ++
          l.write (level + 1) m.2)) ++ rest) = some ((m.1, l.write (level + 1) m.2), rest) := by
      intro m rest hr
      refine l.memberText_write (level + 1) m.1 m.2 hr ?_
      rw [List.append_assoc, List.append_assoc]
      exact hstart _ _
    have hmembers := separated_eq_some (by decide) rfl hread (l.line_blank level)
      (ends_of_blank (l.line_blank level) (.inr (.inr rfl)) []) (k, v) ms
    rw [← l.writeMembers_eq_flatMap, List.append_assoc] at hmembers
    rw [hwrite, memberTexts?, skipSpace_cons rfl]
    simp only [List.append_assoc] at hmembers ⊢
    rw [if_neg (by rw [hstart, renderString_append]; nofun)]
    refine hmembers _ ?_
    have := l.length_lt_writeMembers level ms
    simp only [List.length_append, List.length_cons]
    omega

end Layout
end Compliance.Json
