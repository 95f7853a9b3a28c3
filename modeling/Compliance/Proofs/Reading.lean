import Compliance.Proofs.Doubles
import Compliance.Proofs.Scanning

/-! Which values reading gives, and that these are read back when they are written. Numbers fit 64
bits, objects are sorted by key, and brackets are not nested too deep. Values with doubles are not read
back: reading rounds more than once. -/
namespace Compliance

/-- Whole numbers that fit 64 bits, with or without sign, and doubles that exist. -/
def Number.Storable : Number → Prop
  | .integer (.ofNat n) => n < 0x10000000000000000
  | .integer (.negSucc n) => n < 0x8000000000000000
  | .double d => Decimal.Representable d.units

def Number.IsWhole : Number → Prop
  | .integer _ => True
  | .double _ => False

instance : DecidablePred Number.IsWhole
  | .integer _ => isTrue trivial
  | .double _ => isFalse id

namespace Json

namespace Numeral

private theorem le_foldl_digits (s : Nat) (ds : List Nat) :
    s ≤ ds.foldl (fun n d => n * 10 + d) s := by
  induction ds generalizing s with
  | nil => exact Nat.le_refl s
  | cons d ds ih => exact Nat.le_trans (by omega) (ih (s * 10 + d))

/-- Digits that fit are all taken. -/
private theorem accumulate_of_lt {s : Nat} {ds : List Nat}
    (h : ds.foldl (fun n d => n * 10 + d) s < 0x10000000000000000) :
    accumulate s ds = (ds.foldl (fun n d => n * 10 + d) s, []) := by
  induction ds generalizing s with
  | nil => rfl
  | cons d ds ih =>
    rw [accumulate, if_pos (Nat.lt_of_le_of_lt (le_foldl_digits _ ds) h)]
    exact ih h

private theorem accumulate_lt {s : Nat} (hs : s < 0x10000000000000000) (ds : List Nat) :
    (accumulate s ds).1 < 0x10000000000000000 := by
  induction ds generalizing s with
  | nil => exact hs
  | cons d ds ih =>
    rw [accumulate]
    split
    next h => exact ih h
    next => exact hs

private theorem accumulate_digitsOf {n : Nat} (h : n < 0x10000000000000000) :
    accumulate 0 (Decimal.digitsOf n) = (n, []) := by
  have hn := Decimal.ofDigits_digitsOf n
  rw [ofDigits] at hn
  rw [accumulate_of_lt (by rw [hn]; exact h), hn]

theorem toNumber_storable {n : Numeral} {m : Number} (h : n.toNumber = .ok m) : m.Storable := by
  have hlt := accumulate_lt (by decide : 0 < 0x10000000000000000) n.whole
  rw [toNumber] at h
  split at h
  next significand leftOver heq =>
  rw [heq] at hlt
  split at h
  next hwhole =>
    split at h
    next =>
      cases h
      exact hlt
    next =>
      split at h
      next =>
        rw [← Except.ok.inj h]
        exact Decimal.nearest_representable _ _
      next hsmall =>
        cases h
        match significand with
        | 0 => exact absurd (.inl rfl) hsmall
        | k + 1 =>
          have hk : ¬ 0x8000000000000000 < k + 1 := fun hlt => hsmall (.inr hlt)
          show k < 0x8000000000000000
          omega
  next =>
    -- What is left are doubles.
    split at h
    next _ _ _ =>
    extract_lets shift exponent beyond at h
    split at h
    next =>
      split at h
      next => cases h
      next =>
        rw [← Except.ok.inj h]
        exact Decimal.representable_zero
    next =>
      split at h
      next d hd =>
        rw [← Except.ok.inj h]
        exact Decimal.ofScientific_representable hd
      next => cases h

/-- A whole number that is written is read as itself. -/
theorem toNumber_numeral {n : Number} (hs : n.Storable) (hw : n.IsWhole) :
    n.numeral.toNumber = .ok n := by
  match n with
  | .integer (.ofNat n) =>
    rw [toNumber, Number.numeral]
    simp only [accumulate_digitsOf hs]
    rfl
  | .integer (.negSucc n) =>
    have hlt : n < 0x8000000000000000 := hs
    rw [toNumber, Number.numeral]
    simp only [accumulate_digitsOf (show n + 1 < 0x10000000000000000 by omega)]
    rw [if_pos (by trivial), if_neg (by decide), if_neg (by omega)]
    rfl

end Numeral

/-- Whether members are sorted by key, without a key that is repeated. -/
def SortedKeys (ms : List (String × Json)) : Prop := ms.Pairwise fun a b => a.1 < b.1

mutual
/-- Values that can be read where the given number of brackets may still be opened. -/
def Readable : Nat → Json → Prop
  | _, .null | _, .bool _ | _, .string _ => True
  | _, .number n => n.Storable
  | 0, .array _ | 0, .object _ => False
  | depth + 1, .array vs => ReadableItems depth vs
  | depth + 1, .object ms => SortedKeys ms ∧ ReadableMembers depth ms
def ReadableItems : Nat → List Json → Prop
  | _, [] => True
  | depth, v :: vs => Readable depth v ∧ ReadableItems depth vs
def ReadableMembers : Nat → List (String × Json) → Prop
  | _, [] => True
  | depth, (_, v) :: ms => Readable depth v ∧ ReadableMembers depth ms
end

mutual
def numbers : Json → List Number
  | .null | .bool _ | .string _ => []
  | .number n => [n]
  | .array vs => itemNumbers vs
  | .object ms => memberNumbers ms
def itemNumbers : List Json → List Number
  | [] => []
  | v :: vs => v.numbers ++ itemNumbers vs
def memberNumbers : List (String × Json) → List Number
  | [] => []
  | (_, v) :: ms => v.numbers ++ memberNumbers ms
end

theorem itemNumbers_eq_flatMap (vs : List Json) : itemNumbers vs = vs.flatMap numbers := by
  induction vs with
  | nil => rfl
  | cons v vs ih => rw [itemNumbers, ih, List.flatMap_cons]

theorem memberNumbers_eq_flatMap (ms : List (String × Json)) :
    memberNumbers ms = ms.flatMap fun m => m.2.numbers := by
  induction ms with
  | nil => rfl
  | cons m ms ih => rw [memberNumbers, ih, List.flatMap_cons]

theorem ok_of_bind {ε α β : Type} {x : Except ε α} {f : α → Except ε β} {b : β}
    (h : x >>= f = .ok b) : ∃ a, x = .ok a ∧ f a = .ok b := by
  cases x with
  | error e => cases h
  | ok a => exact ⟨a, rfl, h⟩

theorem ok_of_map {ε α β : Type} {x : Except ε α} {f : α → β} {b : β}
    (h : x.map f = .ok b) : ∃ a, x = .ok a ∧ f a = b := by
  cases x with
  | error e => cases h
  | ok a => exact ⟨a, rfl, Except.ok.inj h⟩

theorem ok_of_toOption {ε α : Type} {x : Except ε α} {a : α} (h : x.toOption = some a) :
    x = .ok a := by
  cases x with
  | error e => cases h
  | ok b => exact congrArg Except.ok (Option.some.inj h)

private theorem lt_of_not_lt_of_ne {a b : String} (h : ¬ a < b) (hne : a ≠ b) : b < a :=
  Decidable.byContradiction fun hba =>
    hne (String.le_antisymm (String.not_lt.mp h) (String.not_lt.mp hba)).symm

theorem mem_insertMember {key : String} {value : Json} {ms : List (String × Json)}
    {m : String × Json} (h : m ∈ insertMember key value ms) : m = (key, value) ∨ m ∈ ms := by
  induction ms with
  | nil => exact .inl (List.mem_singleton.mp h)
  | cons e ms ih =>
    obtain ⟨k, v⟩ := e
    rw [insertMember] at h
    split at h
    next => exact List.mem_cons.mp h
    next =>
      split at h
      next => exact (List.mem_cons.mp h).imp id (List.mem_cons_of_mem _)
      next =>
        rcases List.mem_cons.mp h with rfl | h
        · exact .inr List.mem_cons_self
        · exact (ih h).imp id (List.mem_cons_of_mem _)

theorem sortedKeys_insertMember {ms : List (String × Json)} (h : SortedKeys ms) (key : String)
    (value : Json) : SortedKeys (insertMember key value ms) := by
  induction ms with
  | nil => exact List.pairwise_singleton _ _
  | cons e ms ih =>
    obtain ⟨k, v⟩ := e
    obtain ⟨hk, hms⟩ := List.pairwise_cons.mp h
    rw [insertMember]
    split
    next hlt =>
      refine List.pairwise_cons.mpr ⟨fun m hm => ?_, h⟩
      rcases List.mem_cons.mp hm with rfl | hm
      · exact hlt
      · exact String.lt_trans hlt (hk m hm)
    next hnlt =>
      split
      next heq => exact List.pairwise_cons.mpr ⟨fun m hm => heq ▸ hk m hm, hms⟩
      next hne =>
        refine List.pairwise_cons.mpr ⟨fun m hm => ?_, ih hms⟩
        rcases mem_insertMember hm with rfl | hm
        · exact lt_of_not_lt_of_ne hnlt hne
        · exact hk m hm

/-- A key behind all others is put at the end. -/
theorem insertMember_of_forall_lt {key : String} {ms : List (String × Json)}
    (h : ∀ m ∈ ms, m.1 < key) (value : Json) : insertMember key value ms = ms ++ [(key, value)] := by
  induction ms with
  | nil => rfl
  | cons e ms ih =>
    obtain ⟨k, v⟩ := e
    have hk : k < key := h _ List.mem_cons_self
    have hne : key ≠ k := fun he => String.lt_irrefl k (he ▸ hk)
    have hnlt : ¬ key < k := fun hlt => String.lt_irrefl k (String.lt_trans hk hlt)
    rw [insertMember, if_neg hnlt, if_neg hne, ih fun m hm => h m (List.mem_cons_of_mem _ hm)]
    rfl

private theorem readableMembers_iff {depth : Nat} {ms : List (String × Json)} :
    ReadableMembers depth ms ↔ ∀ m ∈ ms, Readable depth m.2 := by
  induction ms with
  | nil => exact iff_of_true trivial nofun
  | cons m ms ih => rw [ReadableMembers, ih, List.forall_mem_cons]

theorem eq_null_of_tree {v : Json} (h : v.tree = .null) : v = .null := by
  cases v with
  | null => rfl
  | bool _ | number _ | string _ | array _ | object _ => rw [tree] at h; cases h

mutual
theorem storable_of_readable (depth : Nat) (v : Json) (h : Readable depth v) :
    ∀ n ∈ v.numbers, n.Storable := by
  match v, depth with
  | .null, _ | .bool _, _ | .string _, _ => nofun
  | .number n, _ => exact List.forall_mem_singleton.mpr h
  | .array vs, depth + 1 => exact storable_of_readableItems depth vs h
  | .object ms, depth + 1 => exact storable_of_readableMembers depth ms h.2
theorem storable_of_readableItems (depth : Nat) (vs : List Json) (h : ReadableItems depth vs) :
    ∀ n ∈ itemNumbers vs, n.Storable := by
  match vs with
  | [] => nofun
  | v :: vs =>
    exact List.forall_mem_append.mpr
      ⟨storable_of_readable depth v h.1, storable_of_readableItems depth vs h.2⟩
theorem storable_of_readableMembers (depth : Nat) (ms : List (String × Json))
    (h : ReadableMembers depth ms) : ∀ n ∈ memberNumbers ms, n.Storable := by
  match ms with
  | [] => nofun
  | (k, v) :: ms =>
    exact List.forall_mem_append.mpr
      ⟨storable_of_readable depth v h.1, storable_of_readableMembers depth ms h.2⟩
end

namespace Tree

mutual
/-- What is read can be read. -/
theorem value_readable (depth : Nat) (t : Tree) {v : Json} (h : value depth t = .ok v) :
    Readable depth v := by
  match t, depth with
  | .null, _ => rw [value] at h; cases h; trivial
  | .bool b, _ => rw [value] at h; cases h; trivial
  | .number n, _ =>
    rw [value] at h
    obtain ⟨m, hm, rfl⟩ := ok_of_map h
    exact Numeral.toNumber_storable hm
  | .string q, _ =>
    rw [value] at h
    obtain ⟨s, _, rfl⟩ := ok_of_map h
    trivial
  | .array items ending, 0 => cases h
  | .array items ending, depth + 1 =>
    rw [value] at h
    obtain ⟨vs, hvs, h⟩ := ok_of_bind h
    obtain ⟨_, _, h⟩ := ok_of_bind h
    cases h
    exact valueItems_readable depth items hvs
  | .object members ending, 0 => cases h
  | .object members ending, depth + 1 =>
    rw [value] at h
    obtain ⟨ms, hms, h⟩ := ok_of_bind h
    obtain ⟨_, _, h⟩ := ok_of_bind h
    cases h
    exact valueMembers_readable depth members List.Pairwise.nil trivial hms
  | .gap g, _ => rw [value] at h; cases h
theorem valueItems_readable (depth : Nat) (ts : List Tree) {vs : List Json}
    (h : valueItems depth ts = .ok vs) : ReadableItems depth vs := by
  match ts with
  | [] => cases h; trivial
  | t :: ts =>
    rw [valueItems] at h
    obtain ⟨v, hv, h⟩ := ok_of_bind h
    obtain ⟨vs, hvs, h⟩ := ok_of_bind h
    cases h
    exact ⟨value_readable depth t hv, valueItems_readable depth ts hvs⟩
theorem valueMembers_readable (depth : Nat) (ts : List (Quoted × Tree))
    {done ms : List (String × Json)} (hdone : SortedKeys done) (hread : ReadableMembers depth done)
    (h : valueMembers depth ts done = .ok ms) : SortedKeys ms ∧ ReadableMembers depth ms := by
  match ts with
  | [] => cases h; exact ⟨hdone, hread⟩
  | (key, t) :: ts =>
    rw [valueMembers] at h
    obtain ⟨k, _, h⟩ := ok_of_bind h
    obtain ⟨v, hv, h⟩ := ok_of_bind h
    refine valueMembers_readable depth ts (sortedKeys_insertMember hdone k v) ?_ h
    refine readableMembers_iff.mpr fun m hm => ?_
    rcases mem_insertMember hm with rfl | hm
    · exact value_readable depth t hv
    · exact readableMembers_iff.mp hread m hm
end

/-- Only `null` is read as `null`. -/
theorem eq_null_of_value {depth : Nat} {t : Tree} (h : value depth t = .ok .null) : t = .null := by
  match t, depth with
  | .null, _ => rfl
  | .bool _, _ | .gap _, _ => rw [value] at h; cases h
  | .number n, _ | .string q, _ =>
    rw [value] at h
    obtain ⟨_, _, h⟩ := ok_of_map h
    cases h
  | .array _ _, 0 | .object _ _, 0 => cases h
  | .array items ending, depth + 1 | .object items ending, depth + 1 =>
    rw [value] at h
    obtain ⟨_, _, h⟩ := ok_of_bind h
    obtain ⟨_, _, h⟩ := ok_of_bind h
    cases h

end Tree

mutual
/-- A value without doubles that can be read is read as itself when it is written. -/
theorem value_tree (depth : Nat) (v : Json) (h : Readable depth v)
    (hn : ∀ n ∈ v.numbers, n.IsWhole) : v.tree.value depth = .ok v := by
  match v, depth with
  | .null, _ | .bool _, _ => rw [tree, Tree.value]
  | .number n, _ =>
    rw [tree, Tree.value, Numeral.toNumber_numeral h (hn n List.mem_cons_self)]
    rfl
  | .string s, _ =>
    rw [tree, Tree.value, Quoted.text_ofText]
    rfl
  | .array vs, 0 => cases h
  | .array vs, depth + 1 =>
    rw [tree, Tree.value, valueItems_tree depth vs h hn]
    rfl
  | .object ms, 0 => cases h
  | .object ms, depth + 1 =>
    rw [tree, Tree.value, valueMembers_tree depth [] ms h.1 h.2 hn]
    rfl
theorem valueItems_tree (depth : Nat) (vs : List Json) (h : ReadableItems depth vs)
    (hn : ∀ n ∈ itemNumbers vs, n.IsWhole) : Tree.valueItems depth (treeItems vs) = .ok vs := by
  match vs with
  | [] => rfl
  | v :: vs =>
    rw [itemNumbers, List.forall_mem_append] at hn
    rw [treeItems, Tree.valueItems, value_tree depth v h.1 hn.1, valueItems_tree depth vs h.2 hn.2]
    rfl
theorem valueMembers_tree (depth : Nat) (done ms : List (String × Json))
    (hs : SortedKeys (done ++ ms)) (h : ReadableMembers depth ms)
    (hn : ∀ n ∈ memberNumbers ms, n.IsWhole) :
    Tree.valueMembers depth (treeMembers ms) done = .ok (done ++ ms) := by
  match ms with
  | [] =>
    rw [List.append_nil]
    rfl
  | (k, v) :: ms =>
    rw [memberNumbers, List.forall_mem_append] at hn
    have hlast : ∀ m ∈ done, m.1 < k := fun m hm =>
      (List.pairwise_append.mp hs).2.2 m hm (k, v) List.mem_cons_self
    rw [treeMembers, Tree.valueMembers, Quoted.text_ofText, value_tree depth v h.1 hn.1]
    show Tree.valueMembers depth (treeMembers ms) (insertMember k v done) = _
    rw [insertMember_of_forall_lt hlast, valueMembers_tree depth _ ms (by simpa using hs) h.2 hn.2,
      List.append_assoc]
    rfl
end

end Json
end Compliance
