import Compliance.Json.Decoder
import Compliance.Proofs.Layouts

/-! Scanning what was written. In every layout a written value is scanned as its tree, with the text
after it, so the layout and the fuel of the scanner leave no trace. -/
namespace Compliance.Json

mutual
def tree : Json → Tree
  | .null => .null
  | .bool b => .bool b
  | .number n => .number n.numeral
  | .string s => .string (.ofText s)
  | .array vs => .array (treeItems vs) .closed
  | .object ms => .object (treeMembers ms) .closed
def treeItems : List Json → List Tree
  | [] => []
  | v :: vs => v.tree :: treeItems vs
def treeMembers : List (String × Json) → List (Quoted × Tree)
  | [] => []
  | (k, v) :: ms => (.ofText k, v.tree) :: treeMembers ms
end

theorem treeMembers_eq_map (ms : List (String × Json)) :
    treeMembers ms = ms.map fun m => (.ofText m.1, m.2.tree) := by
  induction ms with
  | nil => rfl
  | cons m ms ih => rw [treeMembers, ih, List.map_cons]

theorem skipSpace_cons {c : Char} (h : isSpace c = false) (cs : List Char) :
    skipSpace (c :: cs) = c :: cs := List.dropWhile_cons_of_neg (by simp [h])

theorem skipSpace_blank {ws : List Char} (h : ∀ c ∈ ws, isSpace c = true) (cs : List Char) :
    skipSpace (ws ++ cs) = skipSpace cs := List.dropWhile_append_of_pos h

/-- A token starts here, which is not the end of an array. -/
def Starts (cs : List Char) : Prop := ∃ c rest, cs = c :: rest ∧ isSpace c = false ∧ c ≠ ']'

private theorem Starts.append {cs : List Char} (h : Starts cs) (rest : List Char) :
    Starts (cs ++ rest) := by
  obtain ⟨c, more, rfl, hs, hc⟩ := h
  exact ⟨c, more ++ rest, rfl, hs, hc⟩

private theorem Starts.length_pos {cs : List Char} (h : Starts cs) : 0 < cs.length := by
  obtain ⟨c, rest, rfl, _⟩ := h
  exact Nat.succ_pos _

private theorem Starts.skipSpace_eq {cs : List Char} (h : Starts cs) : skipSpace cs = cs := by
  obtain ⟨c, rest, rfl, hs, _⟩ := h
  exact skipSpace_cons hs rest

private theorem digit_facts {c : Char} (h : c = '-' ∨ Numeral.isDigit c = true) :
    isSpace c = false ∧ c ≠ ']' ∧ c ≠ 'n' ∧ c ≠ 't' ∧ c ≠ 'f' ∧ c ≠ '"' ∧ c ≠ '[' ∧ c ≠ '\x7b' := by
  rcases h with rfl | hd
  · decide
  · rw [Numeral.isDigit, Bool.and_eq_true, decide_eq_true_eq, decide_eq_true_eq] at hd
    have hlow : ∀ d, d < '0' → c ≠ d := fun d hlt he => Char.not_le.mpr hlt (he ▸ hd.1)
    have hhigh : ∀ d, '9' < d → c ≠ d := fun d hlt he => Char.not_le.mpr hlt (he ▸ hd.2)
    refine ⟨?_, hhigh _ (by decide), hhigh _ (by decide), hhigh _ (by decide), hhigh _ (by decide),
      hlow _ (by decide), hhigh _ (by decide), hhigh _ (by decide)⟩
    simp [isSpace, hlow ' ' (by decide), hlow '\n' (by decide), hlow '\t' (by decide),
      hlow '\r' (by decide)]

private theorem exists_render_eq_cons (n : Number) :
    ∃ c cs, n.render = c :: cs ∧ (c = '-' ∨ Numeral.isDigit c = true) := by
  rw [n.render_eq_text]
  exact Numeral.exists_text_eq_cons n.numeral_proper

namespace Layout

theorem starts_write (l : Layout) (level : Nat) (v : Json) : Starts (l.write level v) := by
  cases v with
  | null => exact ⟨'n', _, rfl, rfl, by decide⟩
  | bool b =>
    cases b
    case false => exact ⟨'f', _, rfl, rfl, by decide⟩
    case true => exact ⟨'t', _, rfl, rfl, by decide⟩
  | number n =>
    obtain ⟨c, cs, he, hc⟩ := exists_render_eq_cons n
    obtain ⟨hs, hb, _⟩ := digit_facts hc
    exact ⟨c, cs, by rw [write, he], hs, hb⟩
  | string s => exact ⟨'"', _, by rw [write, renderString]; rfl, rfl, by decide⟩
  | array vs =>
    cases vs with
    | nil => exact ⟨'[', _, rfl, rfl, by decide⟩
    | cons v vs => exact ⟨'[', _, by rw [write]; rfl, rfl, by decide⟩
  | object ms =>
    cases ms with
    | nil => exact ⟨'\x7b', _, rfl, rfl, by decide⟩
    | cons m ms => exact ⟨'\x7b', _, by rw [write]; rfl, rfl, by decide⟩

theorem ends_of_blank {ws : List Char} (h : ∀ c ∈ ws, isSpace c = true) {c : Char}
    (hc : c = ',' ∨ c = ']' ∨ c = '\x7d') (rest : List Char) : Numeral.Ends (ws ++ c :: rest) := by
  intro d hd
  cases ws with
  | nil =>
    obtain rfl : c = d := Option.some.inj hd
    rcases hc with rfl | rfl | rfl <;> decide
  | cons w ws =>
    obtain rfl : w = d := Option.some.inj hd
    have hw := h w List.mem_cons_self
    simp only [isSpace, Bool.or_eq_true, beq_iff_eq] at hw
    rcases hw with ((rfl | rfl) | rfl) | rfl <;> decide

/-- A number in an array ends before what follows it. -/
theorem ends_writeItems (l : Layout) (level : Nat) (vs : List Json) (rest : List Char) :
    Numeral.Ends (l.writeItems level vs ++ rest) := by
  cases vs with
  | nil =>
    rw [writeItems, List.append_assoc]
    exact ends_of_blank (l.line_blank level) (.inr (.inl rfl)) rest
  | cons v vs =>
    simp only [writeItems, List.cons_append]
    exact ends_of_blank (List.forall_mem_nil _) (.inl rfl) _

/-- A number in an object ends before what follows it. -/
theorem ends_writeMembers (l : Layout) (level : Nat) (ms : List (String × Json)) (rest : List Char) :
    Numeral.Ends (l.writeMembers level ms ++ rest) := by
  cases ms with
  | nil =>
    rw [writeMembers, List.append_assoc]
    exact ends_of_blank (l.line_blank level) (.inr (.inr rfl)) rest
  | cons m ms =>
    simp only [writeMembers, List.cons_append]
    exact ends_of_blank (List.forall_mem_nil _) (.inl rfl) _

end Layout

namespace Tree

private theorem scanValue_number {fuel : Nat} {n : Number} {cs rest : List Char}
    (hr : Numeral.Ends rest) (h : skipSpace cs = n.render ++ rest) :
    scanValue (fuel + 1) cs = (.number n.numeral, some rest) := by
  have hscan := n.scan_render hr
  obtain ⟨c, ds, he, hc⟩ := exists_render_eq_cons n
  obtain ⟨_, _, hn, ht, hf, hq, ha, ho⟩ := digit_facts hc
  rw [he, List.cons_append] at h hscan
  rw [scanValue, h]
  split
  next hs => cases hs
  next hs => exact absurd (List.cons.inj hs).1 hn
  next hs => exact absurd (List.cons.inj hs).1 ht
  next hs => exact absurd (List.cons.inj hs).1 hf
  next hs => exact absurd (List.cons.inj hs).1 hq
  next hs => exact absurd (List.cons.inj hs).1 ha
  next hs => exact absurd (List.cons.inj hs).1 ho
  next hs =>
    cases hs
    rw [if_pos hc, hscan]

private theorem scanValue_string {fuel : Nat} {s : String} {cs rest : List Char}
    (h : skipSpace cs = renderString s ++ rest) :
    scanValue (fuel + 1) cs = (.string (.ofText s), some rest) := by
  rw [scanValue, h, renderString_append]
  simp only [Quoted.scan_escaped, if_true]
  rfl

private theorem scanValue_array {fuel : Nat} {cs rest : List Char}
    (h : skipSpace cs = '[' :: rest) :
    scanValue (fuel + 1) cs =
      (.array (scanItems fuel true rest).1 (scanItems fuel true rest).2.1,
        (scanItems fuel true rest).2.2) := by
  rw [scanValue, h]
  rfl

private theorem scanValue_object {fuel : Nat} {cs rest : List Char}
    (h : skipSpace cs = '\x7b' :: rest) :
    scanValue (fuel + 1) cs =
      (.object (scanMembers fuel true rest).1 (scanMembers fuel true rest).2.1,
        (scanMembers fuel true rest).2.2) := by
  rw [scanValue, h]
  rfl

private theorem scanItems_closed {fuel : Nat} {first : Bool} {cs rest : List Char}
    (h : skipSpace cs = ']' :: rest) :
    scanItems (fuel + 1) first cs = ([], .closed, some rest) := by
  rw [scanItems, h]
  rfl

private theorem scanItems_first {fuel : Nat} {cs item : List Char} (h : skipSpace cs = item)
    (hs : Starts item) : scanItems (fuel + 1) true cs = scanItem fuel item := by
  obtain ⟨c, rest, rfl, _, hc⟩ := hs
  rw [scanItems, h]
  split
  next he => cases he
  next he => exact absurd (List.cons.inj he).1 hc
  next he => cases he; rfl

private theorem scanItems_next {fuel : Nat} {cs item : List Char} (h : skipSpace cs = item)
    (hs : Starts item) : scanItems (fuel + 1) false (',' :: cs) = scanItem fuel item := by
  obtain ⟨c, rest, rfl, _, hc⟩ := hs
  rw [scanItems, skipSpace_cons rfl]
  split
  next he => cases he
  next he => exact absurd (List.cons.inj he).1 (by decide)
  next he =>
    obtain ⟨rfl, rfl⟩ := List.cons.inj he
    rw [if_neg nofun, if_pos rfl, h]
    split
    next he => exact absurd (List.cons.inj he).1 hc
    next => rfl

private theorem scanItem_of_value {fuel : Nat} {cs rest : List Char} {t : Tree}
    (h : scanValue fuel cs = (t, some rest)) :
    scanItem (fuel + 1) cs =
      (t :: (scanItems fuel false rest).1, (scanItems fuel false rest).2) := by
  rw [scanItem, h]

private theorem scanMembers_closed {fuel : Nat} {first : Bool} {cs rest : List Char}
    (h : skipSpace cs = '\x7d' :: rest) :
    scanMembers (fuel + 1) first cs = ([], .closed, some rest) := by
  rw [scanMembers, h]
  rfl

private theorem scanMembers_first {fuel : Nat} {cs rest : List Char}
    (h : skipSpace cs = '"' :: rest) :
    scanMembers (fuel + 1) true cs = scanMember fuel rest := by
  rw [scanMembers, h]
  rfl

private theorem scanMembers_next {fuel : Nat} {cs rest : List Char}
    (h : skipSpace cs = '"' :: rest) :
    scanMembers (fuel + 1) false (',' :: cs) = scanMember fuel rest := by
  rw [scanMembers, skipSpace_cons rfl]
  split
  next he => cases he
  next he => exact absurd (List.cons.inj he).1 (by decide)
  next he =>
    obtain ⟨rfl, rfl⟩ := List.cons.inj he
    rw [if_neg nofun, if_pos rfl, h]
    rfl

private theorem scanMember_of_value {fuel : Nat} {k : String} {cs rest : List Char} {t : Tree}
    (h : scanValue fuel cs = (t, some rest)) :
    scanMember (fuel + 1) (k.toList.flatMap escapeChar ++ '"' :: ':' :: cs) =
      ((.ofText k, t) :: (scanMembers fuel false rest).1, (scanMembers fuel false rest).2) := by
  rw [scanMember]
  simp only [Quoted.scan_escaped, @skipSpace_cons ':' rfl, h]
  rfl

end Tree

namespace Layout
open Json.Tree

theorem skipSpace_line_write (l : Layout) (n level : Nat) (v : Json) (rest : List Char) :
    skipSpace (l.line n ++ (l.write level v ++ rest)) = l.write level v ++ rest := by
  rw [skipSpace_blank (l.line_blank n)]
  exact ((l.starts_write level v).append rest).skipSpace_eq

theorem skipSpace_colon_write (l : Layout) (level : Nat) (v : Json) (rest : List Char) :
    skipSpace (l.colon ++ (l.write level v ++ rest)) = l.write level v ++ rest := by
  rw [skipSpace_blank l.colon_blank]
  exact ((l.starts_write level v).append rest).skipSpace_eq

mutual
/-- A written value is scanned as its tree. Each bracket and each comma takes two or three calls of
the scanner, so fuel of three times the length is enough. -/
private theorem scanValue_write (l : Layout) (level : Nat) (v : Json) (fuel : Nat)
    {cs rest : List Char} (hfuel : 3 * (l.write level v).length ≤ fuel) (hr : Numeral.Ends rest)
    (hcs : skipSpace cs = l.write level v ++ rest) : scanValue fuel cs = (v.tree, some rest) := by
  have hpos := (l.starts_write level v).length_pos
  match v, fuel with
  | _, 0 => omega
  | .null, fuel + 1 => rw [scanValue, hcs]; rfl
  | .bool true, fuel + 1 => rw [scanValue, hcs]; rfl
  | .bool false, fuel + 1 => rw [scanValue, hcs]; rfl
  | .number n, fuel + 1 =>
    rw [write] at hcs
    exact scanValue_number hr hcs
  | .string s, fuel + 1 =>
    rw [write] at hcs
    exact scanValue_string hcs
  | .array [], fuel + 2 =>
    have hopen : skipSpace cs = '[' :: ']' :: rest := hcs
    rw [scanValue_array hopen, scanItems_closed (skipSpace_cons rfl rest)]
    rfl
  | .array (v :: vs), fuel + 3 =>
    simp only [write, List.cons_append, List.append_assoc] at hcs
    simp only [write, List.length_append, List.length_cons] at hfuel
    have hv := scanValue_write l (level + 1) v fuel (by omega) (l.ends_writeItems level vs rest)
      ((l.starts_write (level + 1) v).append _).skipSpace_eq
    have hvs := scanItems_write l level vs fuel rest (by omega)
    rw [scanValue_array hcs, scanItems_first (l.skipSpace_line_write _ _ _ _)
      ((l.starts_write _ v).append _), scanItem_of_value hv, hvs]
    rfl
  | .object [], fuel + 2 =>
    have hopen : skipSpace cs = '\x7b' :: '\x7d' :: rest := hcs
    rw [scanValue_object hopen, scanMembers_closed (skipSpace_cons rfl rest)]
    rfl
  | .object ((k, v) :: ms), fuel + 3 =>
    simp only [write, List.cons_append, List.append_assoc] at hcs
    simp only [write, List.length_append, List.length_cons] at hfuel
    have hv := scanValue_write l (level + 1) v fuel (by omega) (l.ends_writeMembers level ms rest)
      (l.skipSpace_colon_write _ v _)
    have hms := scanMembers_write l level ms fuel rest (by omega)
    rw [renderString_append] at hcs
    rw [scanValue_object hcs, scanMembers_first ((skipSpace_blank (l.line_blank _) _).trans
      (skipSpace_cons rfl _)), scanMember_of_value hv, hms]
    rfl
theorem scanItems_write (l : Layout) (level : Nat) (vs : List Json) (fuel : Nat)
    (rest : List Char) (hfuel : 3 * (l.writeItems level vs).length ≤ fuel) :
    scanItems fuel false (l.writeItems level vs ++ rest) = (treeItems vs, .closed, some rest) := by
  have hpos : 0 < (l.writeItems level vs).length := by cases vs <;> simp [writeItems]
  match vs, fuel with
  | _, 0 => omega
  | [], fuel + 1 =>
    rw [writeItems, List.append_assoc]
    exact scanItems_closed ((skipSpace_blank (l.line_blank _) _).trans (skipSpace_cons rfl _))
  | v :: vs, fuel + 2 =>
    simp only [writeItems, List.length_append, List.length_cons] at hfuel
    simp only [writeItems, List.cons_append, List.append_assoc]
    have hv := scanValue_write l (level + 1) v fuel (by omega) (l.ends_writeItems level vs rest)
      ((l.starts_write (level + 1) v).append _).skipSpace_eq
    have hvs := scanItems_write l level vs fuel rest (by omega)
    rw [scanItems_next (l.skipSpace_line_write _ _ _ _) ((l.starts_write _ v).append _),
      scanItem_of_value hv, hvs]
    rfl
theorem scanMembers_write (l : Layout) (level : Nat) (ms : List (String × Json)) (fuel : Nat)
    (rest : List Char) (hfuel : 3 * (l.writeMembers level ms).length ≤ fuel) :
    scanMembers fuel false (l.writeMembers level ms ++ rest)
      = (treeMembers ms, .closed, some rest) := by
  have hpos : 0 < (l.writeMembers level ms).length := by cases ms <;> simp [writeMembers]
  match ms, fuel with
  | _, 0 => omega
  | [], fuel + 1 =>
    rw [writeMembers, List.append_assoc]
    exact scanMembers_closed ((skipSpace_blank (l.line_blank _) _).trans (skipSpace_cons rfl _))
  | (k, v) :: ms, fuel + 2 =>
    simp only [writeMembers, List.length_append, List.length_cons] at hfuel
    simp only [writeMembers, List.cons_append, List.append_assoc]
    have hv := scanValue_write l (level + 1) v fuel (by omega) (l.ends_writeMembers level ms rest)
      (l.skipSpace_colon_write _ v _)
    have hms := scanMembers_write l level ms fuel rest (by omega)
    rw [renderString_append, scanMembers_next ((skipSpace_blank (l.line_blank _) _).trans
      (skipSpace_cons rfl _)), scanMember_of_value hv, hms]
    rfl
end

/-- A value is written in a layout, and scanned with the text that follows. -/
theorem scan_write (l : Layout) (level : Nat) (v : Json) {rest : List Char}
    (hr : Numeral.Ends rest) :
    Tree.scan (l.write level v ++ rest) = (v.tree, some rest) := by
  refine l.scanValue_write level v _ ?_ hr ((l.starts_write level v).append rest).skipSpace_eq
  rw [List.length_append]
  omega

end Layout

theorem scan_compact (v : Json) : Tree.scan v.compact = (v.tree, some []) := by
  have hscan := Layout.dense.scan_write 0 v Numeral.ends_nil
  rwa [List.append_nil, ← Layout.compact_eq] at hscan

/-- Reading the compact form of a value is reading its tree. -/
theorem Decoder.run_compact {α : Type} (d : Decoder α) (v : Json) :
    d.run (String.ofList v.compact) = d depthLimit v.tree := by
  rw [run, String.toList_ofList, scan_compact]
  show (d depthLimit v.tree >>= fun a => .ok a) = _
  cases d depthLimit v.tree <;> rfl

end Compliance.Json
