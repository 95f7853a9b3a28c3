import Compliance.Link.Html
import Mathlib.Data.List.Infix
import Mathlib.Data.List.Flatten

/-! Escaped text. The characters of the markup are replaced one after the other, each over the whole
text. No replacement brings in a character that is still to be replaced, so all of them together are one
pass from left to right. What it leaves is without markup, and reading the entities in it gives the text
back. -/
namespace Compliance.Html

/-- Characters with what is written for them. -/
abbrev Entities := List (Char × List Char)

/-- The entities of the markup, in the order in which they are brought in. -/
def entities : Entities :=
  [('&', "&amp;".toList), ('<', "&lt;".toList), ('>', "&gt;".toList), ('"', "&quot;".toList),
    ('\'', "&#39;".toList)]

/-- What is written for one character: its entity, or the character itself. -/
def written (table : Entities) (c : Char) : List Char := (table.lookup c).getD [c]

private theorem written_of_ne {table : Entities} {c : Char} (h : ∀ e ∈ table, e.1 ≠ c) :
    written table c = [c] := by
  have hnone : table.lookup c = none :=
    List.lookup_eq_none_iff.mpr fun e he => bne_iff_ne.mpr (h e he).symm
  rw [written, hnone, Option.getD_none]

private theorem flatMap_written_of_ne {table : Entities} {cs : List Char}
    (h : ∀ e ∈ table, e.1 ∉ cs) :
    cs.flatMap (written table) = cs := by
  calc cs.flatMap (written table)
      = cs.flatMap fun c => [c] := List.flatMap_congr fun c hc =>
        written_of_ne fun e he hec => h e he (hec ▸ hc)
    _ = cs := List.flatMap_singleton' cs

/-- Successive replacements are one pass, if none of them brings in a character that a later one
replaces. -/
private theorem foldl_replaceChar {table : Entities} (h : table.Pairwise fun e f => f.1 ∉ e.2)
    (cs : List Char) : table.foldl (fun cs e => replaceChar e.1 e.2 cs) cs
      = cs.flatMap (written table) := by
  induction table generalizing cs with
  | nil => exact (List.flatMap_singleton' cs).symm
  | cons e table ih =>
    obtain ⟨hfirst, hlater⟩ := List.pairwise_cons.mp h
    rw [List.foldl_cons, ih hlater, replaceChar, List.flatMap_assoc]
    refine List.flatMap_congr fun c _ => ?_
    rw [written, List.lookup_cons]
    by_cases hc : c = e.1
    · rw [if_pos hc, flatMap_written_of_ne hfirst, beq_iff_eq.mpr hc, Option.getD_some]
    · rw [if_neg hc, List.flatMap_singleton, beq_eq_false_iff_ne.mpr hc, written]

private theorem escapeChars_eq (cs : List Char) :
    escapeChars cs = cs.flatMap (written entities) := by
  have horder : entities.Pairwise fun e f => f.1 ∉ e.2 := by decide
  exact foldl_replaceChar horder cs

/-- Text in which nothing is markup: it has no brackets and no quotes, and an ampersand only at the start
of an entity. -/
structure Inert (cs : List Char) : Prop where
  marks : ∀ c ∈ cs, c ∉ ['<', '>', '"', '\'']
  ampersands : ∀ rest, '&' :: rest <:+ cs → ∃ e ∈ entities, e.2 <+: '&' :: rest

private theorem inert_nil : Inert [] where
  marks := nofun
  ampersands _ h := absurd (List.suffix_nil.mp h) (List.cons_ne_nil _ _)

private theorem Inert.append {cs ds : List Char} (hc : Inert cs) (hd : Inert ds) :
    Inert (cs ++ ds) where
  marks c h := (List.mem_append.mp h).elim (hc.marks c) (hd.marks c)
  ampersands rest h := by
    obtain ⟨before, hb⟩ := h
    rcases List.append_eq_append_iff.mp hb with ⟨mid, rfl, hrest⟩ | ⟨mid, rfl, rfl⟩
    · cases mid with
      | nil => exact hd.ampersands rest ⟨[], hrest⟩
      | cons a mid =>
        -- an entity that starts in the first text ends in it, and only more text follows
        obtain ⟨rfl, rfl⟩ := List.cons.inj hrest
        obtain ⟨e, he, hprefix⟩ := hc.ampersands mid ⟨before, rfl⟩
        exact ⟨e, he, hprefix.trans ⟨ds, rfl⟩⟩
    · exact hd.ampersands rest ⟨mid, rfl⟩

/-- An entity begins with an ampersand and has no other. -/
theorem entity_eq_cons {e : Char × List Char} (h : e ∈ entities) :
    ∃ name, e.2 = '&' :: name ∧ '&' ∉ name := by
  have hall : ∀ e ∈ entities, e.2.head? = some '&' ∧ '&' ∉ e.2.tail := by decide
  obtain ⟨hhead, htail⟩ := hall e h
  exact ⟨e.2.tail, (List.cons_head?_tail hhead).symm, htail⟩

/-- A character is written as its entity, or it is no character of the markup. -/
theorem written_cases (c : Char) : (c, written entities c) ∈ entities ∨
    c ∉ ['&', '<', '>', '"', '\''] ∧ written entities c = [c] := by
  cases h : entities.lookup c with
  | some entity =>
    obtain ⟨before, after, htable, _⟩ := List.lookup_eq_some_iff.mp h
    rw [written, h, Option.getD_some]
    exact .inl (htable ▸ List.mem_append_right before List.mem_cons_self)
  | none =>
    refine .inr ⟨fun hc => ?_, by rw [written, h, Option.getD_none]⟩
    have hkeys : ['&', '<', '>', '"', '\''] = entities.map Prod.fst := rfl
    rw [hkeys] at hc
    obtain ⟨e, he, rfl⟩ := List.mem_map.mp hc
    exact bne_iff_ne.mp (List.lookup_eq_none_iff.mp h e he) rfl

private theorem inert_written (c : Char) : Inert (written entities c) := by
  rcases written_cases c with he | ⟨hc, hw⟩
  · obtain ⟨name, hname, hno⟩ := entity_eq_cons he
    have hmarks : ∀ e ∈ entities, e.2.all fun c => c ∉ ['<', '>', '"', '\''] := by decide
    have hall := List.all_eq_true.mp (hmarks _ he)
    refine ⟨fun d hd => of_decide_eq_true (hall d hd), fun rest hrest => ⟨_, he, ?_⟩⟩
    dsimp only at hname ⊢
    rw [hname, List.suffix_cons_iff] at hrest
    rcases hrest with heq | hlater
    · rw [hname, heq]
    · exact absurd (hlater.mem List.mem_cons_self) hno
  · rw [hw]
    refine ⟨fun d hd hm => ?_, fun rest hrest => ?_⟩
    · obtain rfl := List.mem_singleton.mp hd
      exact hc (List.mem_cons_of_mem _ hm)
    · obtain rfl := List.mem_singleton.mp (hrest.mem List.mem_cons_self)
      exact absurd List.mem_cons_self hc

theorem inert_escapeChars (cs : List Char) : Inert (escapeChars cs) := by
  rw [escapeChars_eq]
  induction cs with
  | nil => exact inert_nil
  | cons c cs ih =>
    rw [List.flatMap_cons]
    exact (inert_written c).append ih

/-- Reads entities from left to right; what is no entity stands for itself. The number counts the
characters that still belong to the entity before. -/
def unescapeFrom : Nat → List Char → List Char
  | _, [] => []
  | n + 1, _ :: cs => unescapeFrom n cs
  | 0, c :: cs =>
    match entities.find? fun e => e.2.isPrefixOf (c :: cs) with
    | some e => e.1 :: unescapeFrom (e.2.length - 1) cs
    | none => c :: unescapeFrom 0 cs

def unescape (s : String) : String := String.ofList (unescapeFrom 0 s.toList)

private theorem unescapeFrom_entity {e : Char × List Char} (he : e ∈ entities) (rest : List Char) :
    unescapeFrom 0 (e.2 ++ rest) = e.1 :: unescapeFrom 0 rest := by
  simp only [entities, List.mem_cons, List.not_mem_nil, or_false] at he
  rcases he with rfl | rfl | rfl | rfl | rfl <;> rfl

/-- Only an ampersand can start an entity. -/
private theorem unescapeFrom_of_ne {c : Char} (hc : c ≠ '&') (rest : List Char) :
    unescapeFrom 0 (c :: rest) = c :: unescapeFrom 0 rest := by
  have hnone : (entities.find? fun e => e.2.isPrefixOf (c :: rest)) = none := by
    rw [List.find?_eq_none]
    intro e he hprefix
    obtain ⟨name, hname, _⟩ := entity_eq_cons he
    rw [hname, List.isPrefixOf_iff_prefix, List.cons_prefix_cons] at hprefix
    exact hc hprefix.1.symm
  rw [unescapeFrom, hnone]

private theorem unescapeFrom_written (c : Char) (rest : List Char) :
    unescapeFrom 0 (written entities c ++ rest) = c :: unescapeFrom 0 rest := by
  rcases written_cases c with he | ⟨hc, hw⟩
  · exact unescapeFrom_entity he rest
  · rw [hw]
    exact unescapeFrom_of_ne (List.ne_of_not_mem_cons hc) rest

private theorem unescapeFrom_escapeChars (cs : List Char) :
    unescapeFrom 0 (escapeChars cs) = cs := by
  rw [escapeChars_eq]
  induction cs with
  | nil => rfl
  | cons c cs ih => rw [List.flatMap_cons, unescapeFrom_written, ih]

private theorem unescape_escape (s : String) : unescape (escape s) = s := by
  rw [unescape, escape, String.toList_ofList, unescapeFrom_escapeChars, String.ofList_toList]

theorem escape_injective : Function.Injective escape :=
  Function.LeftInverse.injective unescape_escape

private theorem escape_append (s t : String) : escape (s ++ t) = escape s ++ escape t := by
  simp only [escape, escapeChars_eq, String.toList_append, List.flatMap_append, String.ofList_append]

/-- Escaping is one pass from left to right, in which a character of the markup becomes its entity and
every other one is kept. So it goes part by part, leaves nothing that is markup, and is undone by reading
the entities. -/
theorem escape_onePass (s : String) :
    escape s = String.ofList (s.toList.flatMap (written entities)) ∧
    (∀ t, escape (s ++ t) = escape s ++ escape t) ∧
    Inert (escape s).toList ∧ unescape (escape s) = s := by
  refine ⟨?_, escape_append s, ?_, unescape_escape s⟩
  · rw [escape, escapeChars_eq]
  · rw [escape, String.toList_ofList]
    exact inert_escapeChars s.toList

/-- A text that looks escaped is escaped once more, and reading it takes off one layer. -/
example : escape "&lt;\"&'" = "&amp;lt;&quot;&amp;&#39;" ∧
    unescape "&amp;lt;&quot;&amp;&#39;" = "&lt;\"&'" := by decide

end Compliance.Html
