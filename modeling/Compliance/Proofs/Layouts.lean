import Compliance.Json.Tree
import Compliance.Proofs.QuotedText
import Compliance.Proofs.WrittenNumbers

/-! One writer for both written forms of a value. They differ in the white space between their tokens
alone, so both come to the same text when it is taken out. -/
namespace Compliance.Json

/-- The white space of a written form: before an item at a level of nesting, and after a colon. -/
structure Layout where
  line : Nat → List Char
  colon : List Char
  line_blank : ∀ n, ∀ c ∈ line n, isSpace c = true
  colon_blank : ∀ c ∈ colon, isSpace c = true

namespace Layout

/-- Without any white space. -/
def dense : Layout := ⟨fun _ => [], [], nofun, nofun⟩

/-- With a line for every item. -/
def lines : Layout where
  line := newline
  colon := [' ']
  line_blank n c hc := by
    rcases List.mem_cons.mp hc with rfl | hc
    · rfl
    · rw [List.eq_of_mem_replicate hc]
      rfl
  colon_blank c hc := by
    rw [List.mem_singleton.mp hc]
    rfl

mutual
/-- A value inside `level` brackets. -/
def write (l : Layout) (level : Nat) : Json → List Char
  | .null => ['n', 'u', 'l', 'l']
  | .bool true => ['t', 'r', 'u', 'e']
  | .bool false => ['f', 'a', 'l', 's', 'e']
  | .number n => n.render
  | .string s => renderString s
  | .array [] => ['[', ']']
  | .array (v :: vs) => '[' :: l.line (level + 1) ++ write l (level + 1) v ++ writeItems l level vs
  | .object [] => ['\x7b', '\x7d']
  | .object ((k, v) :: ms) =>
    '\x7b' :: l.line (level + 1) ++ renderString k ++ ':' :: l.colon ++ write l (level + 1) v
      ++ writeMembers l level ms
/-- The items after the first, and the end of the array. -/
def writeItems (l : Layout) (level : Nat) : List Json → List Char
  | [] => l.line level ++ [']']
  | v :: vs => ',' :: l.line (level + 1) ++ write l (level + 1) v ++ writeItems l level vs
/-- The members after the first, and the end of the object. -/
def writeMembers (l : Layout) (level : Nat) : List (String × Json) → List Char
  | [] => l.line level ++ ['\x7d']
  | (k, v) :: ms =>
    ',' :: l.line (level + 1) ++ renderString k ++ ':' :: l.colon ++ write l (level + 1) v
      ++ writeMembers l level ms
end

mutual
theorem compact_eq (level : Nat) : (v : Json) → v.compact = dense.write level v
  | .null | .bool true | .bool false => rfl
  | .number n => by rw [compact, write]
  | .string s => by rw [compact, write]
  | .array [] => rfl
  | .array (v :: vs) => by
    rw [compact, write, compact_eq (level + 1) v, compactItems_eq level vs]
    rfl
  | .object [] => rfl
  | .object ((k, v) :: ms) => by
    rw [compact, write, compact_eq (level + 1) v, compactMembers_eq level ms]
    simp [dense]
theorem compactItems_eq (level : Nat) : (vs : List Json) →
    compactItems vs = dense.writeItems level vs
  | [] => rfl
  | v :: vs => by
    rw [compactItems, writeItems, compact_eq (level + 1) v, compactItems_eq level vs]
    rfl
theorem compactMembers_eq (level : Nat) : (ms : List (String × Json)) →
    compactMembers ms = dense.writeMembers level ms
  | [] => rfl
  | (k, v) :: ms => by
    rw [compactMembers, writeMembers, compact_eq (level + 1) v, compactMembers_eq level ms]
    simp [dense]
end

mutual
theorem prettyAt_eq (level : Nat) : (v : Json) → v.prettyAt level = lines.write level v
  | .null | .bool true | .bool false => rfl
  | .number n => by rw [prettyAt, write]
  | .string s => by rw [prettyAt, write]
  | .array [] => rfl
  | .array (v :: vs) => by
    rw [prettyAt, write, prettyAt_eq (level + 1) v, prettyItems_eq level vs]
    rfl
  | .object [] => rfl
  | .object ((k, v) :: ms) => by
    rw [prettyAt, write, prettyAt_eq (level + 1) v, prettyMembers_eq level ms]
    simp [lines]
theorem prettyItems_eq (level : Nat) : (vs : List Json) →
    prettyItems level vs = lines.writeItems level vs
  | [] => rfl
  | v :: vs => by
    rw [prettyItems, writeItems, prettyAt_eq (level + 1) v, prettyItems_eq level vs]
    rfl
theorem prettyMembers_eq (level : Nat) : (ms : List (String × Json)) →
    prettyMembers level ms = lines.writeMembers level ms
  | [] => rfl
  | (k, v) :: ms => by
    rw [prettyMembers, writeMembers, prettyAt_eq (level + 1) v, prettyMembers_eq level ms]
    simp [lines]
end

end Layout

/-- Where in a text a character stands: outside strings, in one, or in one behind a backslash. -/
inductive Standing where
  | outside
  | inside
  | escaped

/-- Deletes the white space outside strings. -/
def withoutBlanksFrom : Standing → List Char → List Char
  | _, [] => []
  | .outside, c :: cs =>
    if isSpace c then withoutBlanksFrom .outside cs
    else c :: withoutBlanksFrom (if c = '"' then .inside else .outside) cs
  | .inside, c :: cs =>
    c :: withoutBlanksFrom (if c = '"' then .outside else if c = '\\' then .escaped else .inside) cs
  | .escaped, c :: cs => c :: withoutBlanksFrom .inside cs

def withoutBlanks (cs : List Char) : List Char := withoutBlanksFrom .outside cs

theorem withoutBlanks_nil : withoutBlanks [] = [] := rfl

private theorem withoutBlanks_cons {c : Char} (hs : isSpace c = false)
    (hq : c ≠ '"') (cs : List Char) :
    withoutBlanks (c :: cs) = c :: withoutBlanks cs := by
  rw [withoutBlanks, withoutBlanksFrom, hs, if_neg hq]
  rfl

private theorem withoutBlanks_blank {ws : List Char} (h : ∀ c ∈ ws, isSpace c = true)
    (cs : List Char) :
    withoutBlanks (ws ++ cs) = withoutBlanks cs := by
  induction ws with
  | nil => rfl
  | cons c ws ih =>
    rw [List.cons_append, withoutBlanks, withoutBlanksFrom, if_pos (h c List.mem_cons_self)]
    exact ih fun d hd => h d (List.mem_cons_of_mem c hd)

/-- Whether a character can stand in a token that is no string. -/
def isPlain (c : Char) : Bool := !isSpace c && c != '"'

/-- Tokens other than strings stay as they are. -/
theorem withoutBlanks_token {ts : List Char} (h : ts.all isPlain = true) (cs : List Char) :
    withoutBlanks (ts ++ cs) = ts ++ withoutBlanks cs := by
  induction ts with
  | nil => rfl
  | cons c ts ih =>
    rw [List.all_cons, Bool.and_eq_true, isPlain, Bool.and_eq_true, Bool.not_eq_true',
      bne_iff_ne] at h
    rw [List.cons_append, withoutBlanks_cons h.1.1 h.1.2, ih h.2, List.cons_append]

private theorem withoutBlanksFrom_inside {c : Char}
    (hq : c ≠ '"') (hb : c ≠ '\\') (cs : List Char) :
    withoutBlanksFrom .inside (c :: cs) = c :: withoutBlanksFrom .inside cs := by
  rw [withoutBlanksFrom, if_neg hq, if_neg hb]

/-- What a character of a string is written by stays, and stays in the string. -/
private theorem withoutBlanksFrom_escapeChar (c : Char) (cs : List Char) :
    withoutBlanksFrom .inside (escapeChar c ++ cs) = escapeChar c ++ withoutBlanksFrom .inside cs := by
  rcases escapeChar_cases c with ⟨l, _, _, he, _⟩ | ⟨_, he, _⟩ | ⟨hq, hb, _, he, _⟩
  · rw [he]
    rfl
  · have hhigh := @Nat.digitChar_ne (c.toNat / 16)
    have hlow := @Nat.digitChar_ne (c.toNat % 16)
    rw [he]
    simp only [List.cons_append, List.nil_append]
    rw [withoutBlanksFrom, if_neg (by decide), if_pos rfl, withoutBlanksFrom,
      withoutBlanksFrom_inside (by decide) (by decide),
      withoutBlanksFrom_inside (by decide) (by decide),
      withoutBlanksFrom_inside (hhigh '"' rfl) (hhigh '\\' rfl),
      withoutBlanksFrom_inside (hlow '"' rfl) (hlow '\\' rfl)]
  · rw [he]
    exact withoutBlanksFrom_inside hq hb cs

private theorem withoutBlanks_renderString (s : String) (cs : List Char) :
    withoutBlanks (renderString s ++ cs) = renderString s ++ withoutBlanks cs := by
  have hchars : ∀ ds : List Char, withoutBlanksFrom .inside (ds.flatMap escapeChar ++ '"' :: cs)
      = ds.flatMap escapeChar ++ '"' :: withoutBlanks cs := by
    intro ds
    induction ds with
    | nil => rfl
    | cons d ds ih =>
      rw [List.flatMap_cons, List.append_assoc, withoutBlanksFrom_escapeChar, ih, List.append_assoc]
  rw [renderString_append, renderString_append, withoutBlanks, withoutBlanksFrom,
    if_neg (by decide), if_pos rfl, hchars]

private theorem withoutBlanks_render (n : Number) (cs : List Char) :
    withoutBlanks (n.render ++ cs) = n.render ++ withoutBlanks cs := by
  refine withoutBlanks_token (List.all_eq_true.mpr fun c hc => ?_) cs
  rw [n.render_eq_text] at hc
  rcases Numeral.forall_mem_text n.numeral_proper c hc with hd | hm
  · rw [Numeral.isDigit, Bool.and_eq_true, decide_eq_true_eq, decide_eq_true_eq] at hd
    have hne : ∀ d, d < '0' → c ≠ d := fun d hlt he => Char.not_le.mpr hlt (he ▸ hd.1)
    simp [isPlain, isSpace, hne ' ' (by decide), hne '\n' (by decide), hne '\t' (by decide),
      hne '\r' (by decide), hne '"' (by decide)]
  · exact List.all_eq_true.mp (by decide : ['-', '+', '.', 'e'].all isPlain = true) c hm

namespace Layout

mutual
/-- A written form without its white space is the compact form. -/
theorem withoutBlanks_write (l : Layout) (level : Nat) (rest : List Char) : (v : Json) →
    withoutBlanks (l.write level v ++ rest) = v.compact ++ withoutBlanks rest
  | .null => @withoutBlanks_token ['n', 'u', 'l', 'l'] rfl rest
  | .bool true => @withoutBlanks_token ['t', 'r', 'u', 'e'] rfl rest
  | .bool false => @withoutBlanks_token ['f', 'a', 'l', 's', 'e'] rfl rest
  | .number n => by rw [compact, write, withoutBlanks_render]
  | .string s => by rw [compact, write, withoutBlanks_renderString]
  | .array [] => @withoutBlanks_token ['[', ']'] rfl rest
  | .array (v :: vs) => by
    simp only [compact, write, List.cons_append, List.append_assoc]
    rw [withoutBlanks_cons rfl (by decide), withoutBlanks_blank (l.line_blank _),
      withoutBlanks_write l, withoutBlanks_writeItems l level rest vs]
  | .object [] => @withoutBlanks_token ['\x7b', '\x7d'] rfl rest
  | .object ((k, v) :: ms) => by
    simp only [compact, write, List.cons_append, List.append_assoc]
    rw [withoutBlanks_cons rfl (by decide), withoutBlanks_blank (l.line_blank _),
      withoutBlanks_renderString, withoutBlanks_cons rfl (by decide),
      withoutBlanks_blank l.colon_blank, withoutBlanks_write l,
      withoutBlanks_writeMembers l level rest ms]
theorem withoutBlanks_writeItems (l : Layout) (level : Nat) (rest : List Char) : (vs : List Json) →
    withoutBlanks (l.writeItems level vs ++ rest) = compactItems vs ++ withoutBlanks rest
  | [] => by
    rw [writeItems, List.append_assoc, withoutBlanks_blank (l.line_blank _)]
    exact withoutBlanks_token rfl rest
  | v :: vs => by
    simp only [compactItems, writeItems, List.cons_append, List.append_assoc]
    rw [withoutBlanks_cons rfl (by decide), withoutBlanks_blank (l.line_blank _),
      withoutBlanks_write l, withoutBlanks_writeItems l level rest vs]
theorem withoutBlanks_writeMembers (l : Layout) (level : Nat) (rest : List Char) :
    (ms : List (String × Json)) →
    withoutBlanks (l.writeMembers level ms ++ rest) = compactMembers ms ++ withoutBlanks rest
  | [] => by
    rw [writeMembers, List.append_assoc, withoutBlanks_blank (l.line_blank _)]
    exact withoutBlanks_token rfl rest
  | (k, v) :: ms => by
    simp only [compactMembers, writeMembers, List.cons_append, List.append_assoc]
    rw [withoutBlanks_cons rfl (by decide), withoutBlanks_blank (l.line_blank _),
      withoutBlanks_renderString, withoutBlanks_cons rfl (by decide),
      withoutBlanks_blank l.colon_blank, withoutBlanks_write l,
      withoutBlanks_writeMembers l level rest ms]
end

/-- White space in a string stays, also behind an escaped quote. -/
example : withoutBlanks "[ \"a \\\" b\",\n 1 ]".toList = "[\"a \\\" b\",1]".toList := by decide

end Layout
end Compliance.Json
