import Compliance.Proofs.NameResolution
import Mathlib.Data.List.Pairwise
import Mathlib.Data.Nat.Find

/-! Names that move on. Under the tolerant policy a name goes from each position that has it to the
next one; the index remembers where it went last, and the shadowed positions are those that it left,
in the order of the positions that it went to. -/
namespace Compliance

namespace Keyed
variable {κ α : Type} [DecidableEq κ]

private theorem nodup_keys_assign {ps : List (κ × α)} (h : (ps.map (·.1)).Nodup) (k : κ) (a : α) :
    ((assign k a ps).map (·.1)).Nodup := by
  rw [assign, List.map_cons, List.nodup_cons]
  refine ⟨?_, h.sublist (List.filter_sublist.map _)⟩
  intro hk
  obtain ⟨e, he, hek⟩ := List.mem_map.mp hk
  exact of_decide_eq_true (List.mem_filter.mp he).2 hek

variable [BEq κ] [LawfulBEq κ]

/-- A new key adds a pair. -/
private theorem length_assign_of_none {ps : List (κ × α)} {k : κ} (h : ps.lookup k = none) (a : α) :
    (assign k a ps).length = ps.length + 1 := by
  rw [assign, List.length_cons, List.filter_eq_self.mpr]
  intro e he
  have hk : k ≠ e.1 := bne_iff_ne.mp (List.lookup_eq_none_iff.mp h e he)
  exact decide_eq_true hk.symm

/-- A known key gives up its pair for another. -/
private theorem length_assign_of_some {ps : List (κ × α)} (hn : (ps.map (·.1)).Nodup) {k : κ}
    {b : α} (h : ps.lookup k = some b) (a : α) : (assign k a ps).length = ps.length := by
  obtain ⟨before, after, rfl, _⟩ := List.lookup_eq_some_iff.mp h
  rw [List.map_append, List.map_cons, List.nodup_middle, List.nodup_cons, ← List.map_append] at hn
  have hkeep : (before ++ after).filter (fun e => decide (e.1 ≠ k)) = before ++ after := by
    rw [List.filter_eq_self]
    intro e he
    rw [decide_eq_true_eq]
    rintro rfl
    exact hn.1 (List.mem_map.mpr ⟨e, he, rfl⟩)
  rw [List.filter_append] at hkeep
  rw [assign, List.filter_append, List.filter_cons_of_neg (by simp), hkeep]
  simp only [List.length_cons, List.length_append]
  omega

end Keyed

namespace NameIndex

/-- A name that goes from a position to another. -/
structure Takeover where
  name : String
  previous : Nat
  position : Nat
  deriving DecidableEq

namespace Takeover

/-- Of the positions before the new one, the old one is the last with the name. -/
structure Of (names : List String) (e : Takeover) : Prop where
  earlier : e.previous < e.position
  had : names[e.previous]? = some e.name
  has : names[e.position]? = some e.name
  between : ∀ k, e.previous < k → k < e.position → names[k]? ≠ some e.name

/-- One more name is taken over from its last position, if it has one. All else is as before. -/
theorem of_concat {names : List String} {name : String} {e : Takeover} :
    e.Of (names ++ [name]) ↔
      e.Of names ∨ e.position = names.length ∧ e.name = name ∧ LastAt names name e.previous := by
  have hold : ∀ {k}, k < names.length → (names ++ [name])[k]? = names[k]? :=
    fun hk => List.getElem?_append_left hk
  constructor
  · rintro ⟨earlier, had, has, between⟩
    have hle := (List.getElem?_eq_some_iff.mp has).1
    rw [List.length_append, List.length_singleton] at hle
    rw [hold (by omega)] at had
    by_cases hlt : e.position < names.length
    · rw [hold hlt] at has
      exact .inl ⟨earlier, had, has, fun k hk hke => by
        rw [← hold (by omega)]
        exact between k hk hke⟩
    · have hp : e.position = names.length := by omega
      rw [hp, List.getElem?_concat_length] at has
      obtain rfl := Option.some.inj has
      refine .inr ⟨hp, rfl, had, fun k hk => ?_⟩
      have hkl := (List.getElem?_eq_some_iff.mp hk).1
      by_contra hlate
      exact between k (by omega) (by omega) ((hold hkl).trans hk)
  · rintro (⟨earlier, had, has, between⟩ | ⟨hp, rfl, had, last⟩)
    · have hlt := (List.getElem?_eq_some_iff.mp has).1
      exact ⟨earlier, (hold (by omega)).trans had, (hold hlt).trans has, fun k hk hke => by
        rw [hold (by omega)]
        exact between k hk hke⟩
    · have hlt := (List.getElem?_eq_some_iff.mp had).1
      refine ⟨by omega, (hold hlt).trans had, ?_, fun k hk hke he => ?_⟩
      · rw [hp, List.getElem?_concat_length]
      · rw [hold (by omega)] at he
        have := last k he
        omega

end Takeover

/-- All takeovers in a list of names, in the order in which they happen. -/
structure Recorded (names : List String) (es : List Takeover) : Prop where
  ordered : es.Pairwise fun a b => a.position < b.position
  complete : ∀ e, e ∈ es ↔ e.Of names

/-- What an index knows under the tolerant policy, with all takeovers so far. -/
structure Keeps (x : NameIndex) (names : List String) (es : List Takeover) : Prop where
  resolves : x.Resolves names
  recorded : Recorded names es
  shadowed : x.shadowed = es.map Takeover.previous
  keys : (x.positions.map (·.1)).Nodup
  size : x.size + es.length = names.length

section
variable {x : NameIndex} {names : List String} {es : List Takeover} {name : String}

/-- A new name is taken from nobody. -/
private theorem Keeps.fresh (h : x.Keeps names es) (hp : x.position name = none) :
    (x.assign name names.length).Keeps (names ++ [name]) es where
  resolves := h.resolves.assign name
  recorded := by
    refine ⟨h.recorded.ordered, fun e => ?_⟩
    rw [h.recorded.complete, Takeover.of_concat, or_iff_left]
    rintro ⟨_, _, hl⟩
    exact h.resolves.not_mem hp (List.mem_of_getElem? hl.1)
  shadowed := h.shadowed
  keys := Keyed.nodup_keys_assign h.keys name _
  size := by
    have hs : (x.assign name names.length).size = x.size + 1 := Keyed.length_assign_of_none hp _
    rw [hs, List.length_append, List.length_singleton, ← h.size]
    omega

/-- A known name leaves its position, which is shadowed from then on. -/
private theorem Keeps.taken (h : x.Keeps names es) {previous : Nat}
    (hp : x.position name = some previous) :
    (NameIndex.mk (x.assign name names.length).positions (x.shadowed ++ [previous])).Keeps
      (names ++ [name]) (es ++ [⟨name, previous, names.length⟩]) where
  resolves := ⟨(h.resolves.assign name).last, (h.resolves.assign name).known⟩
  recorded := by
    refine ⟨List.pairwise_append.mpr ⟨h.recorded.ordered, List.pairwise_singleton _ _, ?_⟩, ?_⟩
    · intro e he f hf
      rw [List.mem_singleton.mp hf]
      exact (List.getElem?_eq_some_iff.mp ((h.recorded.complete e).mp he).has).1
    · intro e
      rw [List.mem_append, List.mem_singleton, h.recorded.complete, Takeover.of_concat]
      refine or_congr_right ⟨?_, ?_⟩
      · rintro rfl
        exact ⟨rfl, rfl, h.resolves.last hp⟩
      · rintro ⟨hposition, rfl, hl⟩
        obtain rfl := hl.unique (h.resolves.last hp)
        rw [← hposition]
  shadowed := by rw [List.map_append, ← h.shadowed]; rfl
  keys := Keyed.nodup_keys_assign h.keys name _
  size := by
    have hs : (NameIndex.mk (x.assign name names.length).positions
        (x.shadowed ++ [previous])).size = x.size := Keyed.length_assign_of_some h.keys hp _
    rw [hs, List.length_append, List.length_append, List.length_singleton,
      List.length_singleton, ← h.size]
    omega

end

section
variable {names : List String} {es : List Takeover}

end

end NameIndex
end Compliance
