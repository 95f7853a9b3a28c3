import Compliance.Proofs.Places
import Compliance.Text.Offset
import Mathlib.Data.List.Lex
import Mathlib.Data.Prod.Lex
import Mathlib.Data.String.Basic
import Mathlib.Tactic.SplitIfs

/-! The order of paths. Paths are compared part by part, and names byte by byte in UTF-8, which is the
order of their characters. The paths of what is in a directory stand in the order of the names. -/
namespace Compliance

namespace Text

/-- A number as a byte above `first` and bytes of six bits that continue it. -/
def continued (first : Nat) : Nat → Nat → List Nat
  | 0, v => [v + first]
  | k + 1, v => continued first k (v / 64) ++ [v % 64 + 0x80]

/-- The UTF-8 encoding of a code point. -/
def encode (v : Nat) : List Nat :=
  if v ≤ 0x7F then continued 0 0 v
  else if v ≤ 0x7FF then continued 0xC0 1 v
  else if v ≤ 0xFFFF then continued 0xE0 2 v
  else continued 0xF0 3 v

private theorem map_utf8EncodeChar (c : Char) :
    (String.utf8EncodeChar c).map UInt8.toNat = encode c.val.toNat := by
  have hlimit : c.val.toNat < 0x110000 := by
    rcases c.valid with h | h
    · exact h.trans (by decide)
    · exact h.2
  rw [String.utf8EncodeChar, encode]
  generalize c.val.toNat = v at *
  split_ifs <;>
    simp only [continued, List.map_cons, List.map_nil, UInt8.toNat_ofNat', List.cons_append,
      List.nil_append, List.cons.injEq, and_true] <;>
    omega

/-- Of two encodings of the same length the first digit that differs decides. -/
private theorem continued_lt (first k : Nat) {v w : Nat} (h : v < w) (xs ys : List Nat) :
    continued first k v ++ xs < continued first k w ++ ys := by
  induction k generalizing v w xs ys with
  | zero => exact .rel (Nat.add_lt_add_right h first)
  | succ k ih =>
    rw [continued, continued, List.append_assoc, List.append_assoc]
    by_cases hfront : v / 64 < w / 64
    · exact ih hfront _ _
    · have hsame : v / 64 = w / 64 := by omega
      rw [hsame]
      exact List.Lex.append_left _ (.rel (by omega)) _

/-- Code points are ordered as their encodings, whatever follows. Longer encodings have larger first
bytes. -/
private theorem encode_lt {v w : Nat} (h : v < w) (xs ys : List Nat) :
    encode v ++ xs < encode w ++ ys := by
  unfold encode
  split_ifs <;> first
    | exact continued_lt _ _ h xs ys
    | exact .rel (by omega)

/-- Texts are ordered as their bytes. -/
theorem bytes_lt {cs ds : List Char} (h : cs < ds) :
    (bytes cs).map UInt8.toNat < (bytes ds).map UInt8.toNat := by
  induction h with
  | @nil d ds =>
    have hlength : ((bytes (d :: ds)).map UInt8.toNat).length ≠ 0 := by
      have := d.utf8Size_pos
      rw [List.length_map, length_bytes_cons]
      omega
    obtain ⟨b, bs, hbytes⟩ := List.exists_cons_of_length_pos (Nat.pos_of_ne_zero hlength)
    rw [hbytes]
    exact .nil
  | cons _ ih =>
    simp only [bytes, List.flatMap_cons, List.map_append] at ih ⊢
    exact List.Lex.append_left _ ih _
  | rel h =>
    simp only [bytes, List.flatMap_cons, List.map_append, map_utf8EncodeChar]
    exact encode_lt h _ _

end Text

namespace Path

/-- A part of a path. Nothing is left of repeated slashes and of dots that are not in front. -/
inductive Part where
  | root
  | here
  | above
  | name (s : String)
  deriving DecidableEq

namespace Part

/-- What parts are compared by: what they are, and names by their bytes. -/
def key : Part → Nat ×ₗ List Nat
  | .root => toLex (0, [])
  | .here => toLex (1, [])
  | .above => toLex (2, [])
  | .name s => toLex (3, (Text.bytes s.toList).map UInt8.toNat)

private theorem key_name_lt {a b : String} (h : a < b) : key (.name a) < key (.name b) :=
  Prod.Lex.toLex_lt_toLex.mpr (.inr ⟨rfl, Text.bytes_lt (String.lt_iff_toList_lt.mp h)⟩)

private theorem key_injective : Function.Injective key := by
  have hname : ∀ a b : String, key (.name a) = key (.name b) → a = b := by
    intro a b h
    have hbytes : StrictMono fun cs => (Text.bytes cs).map UInt8.toNat := fun _ _ => Text.bytes_lt
    exact String.toList_inj.mp (hbytes.injective (Prod.ext_iff.mp (toLex_inj.mp h)).2)
  intro p q h
  -- Names alone are compared by more than what they are.
  cases p <;> cases q <;> first
    | rfl
    | exact congrArg _ (hname _ _ h)
    | cases h

/-- The order of the parts. -/
instance : LinearOrder Part := LinearOrder.lift' key key_injective

private theorem name_lt {a b : String} (h : a < b) : Part.name a < .name b := key_name_lt h

end Part

/-- What is between two slashes, if it is a part. -/
def part? : List Char → Option Part
  | [] => none
  | ['.'] => none
  | ['.', '.'] => some .above
  | cs => some (.name (String.ofList cs))

/-- The parts between all slashes. -/
def inner (cs : List Char) : List Part := (split cs).filterMap part?

/-- The parts of a path as characters. A slash in front is a part, and so is a dot. -/
def partsOf : List Char → List Part
  | '/' :: cs => .root :: inner cs
  | cs => (if (split cs).head? = some ['.'] then [.here] else []) ++ inner cs

def parts (path : String) : List Part := partsOf path.toList

private theorem inner_append_slash (xs ys : List Char) :
    inner (xs ++ '/' :: ys) = inner xs ++ inner ys := by
  rw [inner, split_append_slash, List.filterMap_append]
  rfl

private theorem partsOf_append_slash {xs : List Char} (hxs : xs ≠ []) (ys : List Char) :
    partsOf (xs ++ '/' :: ys) = partsOf xs ++ inner ys := by
  obtain ⟨c, cs, rfl⟩ := List.exists_cons_of_ne_nil hxs
  by_cases hc : c = '/'
  · subst hc
    exact congrArg (Part.root :: ·) (inner_append_slash cs ys)
  · have hrelative : ∀ ds, partsOf (c :: ds)
        = (if (split (c :: ds)).head? = some ['.'] then [.here] else []) ++ inner (c :: ds) := by
      intro ds
      unfold partsOf
      split
      next hslash => exact absurd (List.cons.inj hslash).1 hc
      next => rfl
    have hhead : (split ((c :: cs) ++ '/' :: ys)).head? = (split (c :: cs)).head? := by
      rw [split_append_slash, List.head?_append_of_ne_nil _ (split_ne_nil _)]
    rw [List.cons_append] at hhead ⊢
    rw [hrelative, hrelative, hhead, ← List.cons_append, inner_append_slash, List.append_assoc]

private theorem inner_name {name : String} (h : IsName name) :
    inner name.toList = [.name name] := by
  have hne : ∀ cs, name.toList = cs → name = String.ofList cs := by
    rintro cs rfl
    exact String.ofList_toList.symm
  have hpart : part? name.toList = some (.name name) := by
    unfold part?
    split
    next hnil => exact absurd (hne _ hnil) h.nonempty
    next hdot => exact absurd (hne _ hdot) h.notHere
    next hdots => exact absurd (hne _ hdots) h.notAbove
    next => rw [String.ofList_toList]
  rw [inner, split_of_notMem h.whole, List.filterMap_cons_some hpart]
  rfl

/-- What is in front of a name in a path, less the last slash. -/
theorem toList_join (path name : String) : ∃ front,
    (path.toList = front ∨ path.toList = front ++ ['/']) ∧
      (join path name).toList = front ++ '/' :: name.toList := by
  unfold join
  split
  next hslash =>
    rw [String.endsWith_eq_endsWith_toSlice, String.Slice.endsWith_string_iff,
      String.copy_toSlice] at hslash
    obtain ⟨front, hfront⟩ := hslash
    refine ⟨front, .inr hfront.symm, ?_⟩
    rw [String.toList_append, ← hfront, List.append_assoc]
    rfl
  next =>
    refine ⟨path.toList, .inl rfl, ?_⟩
    rw [String.toList_append, String.toList_append, List.append_assoc]
    rfl

/-- The path of a name in a directory has that name for one more part. -/
private theorem parts_join {path name : String} (hpath : path ≠ "") (hname : IsName name) :
    parts (join path name) = parts path ++ [.name name] := by
  obtain ⟨front, hfront, hjoin⟩ := toList_join path name
  have hnotNil : path.toList ≠ [] := fun h => hpath (String.toList_eq_nil_iff.mp h)
  rw [parts, parts, hjoin, ← inner_name hname]
  rcases hfront with hfront | hfront
  · rw [hfront] at hnotNil ⊢
    exact partsOf_append_slash hnotNil _
  · rw [hfront]
    by_cases hnil : front = []
    · rw [hnil]
      rfl
    · rw [partsOf_append_slash hnil, partsOf_append_slash hnil, List.append_assoc]
      rfl

/-- In a directory paths are ordered as names. -/
theorem parts_join_lt {path a b : String} (hpath : path ≠ "") (ha : IsName a) (hb : IsName b)
    (h : a < b) : parts (join path a) < parts (join path b) := by
  rw [parts_join hpath ha, parts_join hpath hb]
  exact List.Lex.append_left _ (.rel (Part.name_lt h)) _

end Path
end Compliance
