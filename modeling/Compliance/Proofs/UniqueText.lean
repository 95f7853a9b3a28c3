import Compliance.Document.Encode
import Compliance.Proofs.DecimalValues

/-! Values with the same compact form. The form is read as the tree of the value, and the tree leaves
nothing of the value out, so a value can be told from its text. -/
namespace Compliance.Json

mutual
private theorem tree_injective (v w : Json) (hv : ∀ n ∈ v.numbers, n.Exact)
    (hw : ∀ n ∈ w.numbers, n.Exact) (h : v.tree = w.tree) : v = w := by
  match v, w, h with
  | .null, .null, _ => rfl
  | .bool a, .bool b, h => cases h; rfl
  | .number m, .number n, h =>
    exact congrArg number (Number.numeral_injective (hv m List.mem_cons_self)
      (hw n List.mem_cons_self) (Tree.number.inj h))
  | .string s, .string t, h => exact congrArg string (Quoted.ofText_injective (Tree.string.inj h))
  | .array vs, .array ws, h =>
    exact congrArg array (treeItems_injective vs ws hv hw (Tree.array.inj h).1)
  | .object ms, .object ns, h =>
    exact congrArg object (treeMembers_injective ms ns hv hw (Tree.object.inj h).1)
theorem treeItems_injective (vs ws : List Json) (hv : ∀ n ∈ itemNumbers vs, n.Exact)
    (hw : ∀ n ∈ itemNumbers ws, n.Exact) (h : treeItems vs = treeItems ws) : vs = ws := by
  match vs, ws, h with
  | [], [], _ => rfl
  | v :: vs, w :: ws, h =>
    rw [itemNumbers, List.forall_mem_append] at hv hw
    obtain ⟨hhead, htail⟩ := List.cons.inj h
    rw [tree_injective v w hv.1 hw.1 hhead, treeItems_injective vs ws hv.2 hw.2 htail]
theorem treeMembers_injective (ms ns : List (String × Json))
    (hm : ∀ n ∈ memberNumbers ms, n.Exact) (hn : ∀ n ∈ memberNumbers ns, n.Exact)
    (h : treeMembers ms = treeMembers ns) : ms = ns := by
  match ms, ns, h with
  | [], [], _ => rfl
  | (k, v) :: ms, (l, w) :: ns, h =>
    rw [memberNumbers, List.forall_mem_append] at hm hn
    obtain ⟨hhead, htail⟩ := List.cons.inj h
    obtain ⟨hkey, hvalue⟩ := Prod.mk.inj hhead
    rw [Quoted.ofText_injective hkey, tree_injective v w hm.1 hn.1 hvalue,
      treeMembers_injective ms ns hm.2 hn.2 htail]
end

/-- Whether the numbers in a value are whole or doubles that exist. -/
def Exact (v : Json) : Prop := ∀ n ∈ v.numbers, n.Exact

theorem exact_string (s : String) : (string s).Exact := List.forall_mem_nil _

theorem exact_bool (b : Bool) : (bool b).Exact := List.forall_mem_nil _

theorem exact_ofNat (n : Nat) : (ofNat n).Exact := by
  intro m hm
  rw [List.mem_singleton.mp hm]
  trivial

theorem exact_object {ms : List (String × Json)} (h : ∀ m ∈ ms, m.2.Exact) : (object ms).Exact := by
  intro n hn
  rw [numbers, memberNumbers_eq_flatMap] at hn
  obtain ⟨m, hm, hn⟩ := List.mem_flatMap.mp hn
  exact h m hm n hn

theorem exact_array {vs : List Json} (h : ∀ v ∈ vs, v.Exact) : (array vs).Exact := by
  intro n hn
  rw [numbers, itemNumbers_eq_flatMap] at hn
  obtain ⟨v, hv, hn⟩ := List.mem_flatMap.mp hn
  exact h v hv n hn

theorem exact_map {α : Type} {encode : α → Json} (h : ∀ a, (encode a).Exact) {as : List α} :
    (array (as.map encode)).Exact :=
  exact_array (List.forall_mem_map.mpr fun a _ => h a)

theorem exact_optionalMember {α : Type} {key : String} {encode : α → Json} {o : Option α}
    (h : ∀ a, o = some a → (encode a).Exact) : ∀ m ∈ optionalMember key encode o, m.2.Exact := by
  cases o with
  | none => nofun
  | some a => exact List.forall_mem_singleton.mpr (h a rfl)

/-- Numbers that were read are whole or exist. -/
theorem Readable.exact {depth : Nat} {v : Json} (h : Readable depth v) : v.Exact :=
  fun n hn => (storable_of_readable depth v h n hn).exact

/-- No two values have one compact form. -/
theorem compact_injective {v w : Json} (hv : v.Exact) (hw : w.Exact) (h : v.compact = w.compact) :
    v = w := by
  have htree := scan_compact v
  rw [h, scan_compact w] at htree
  exact tree_injective v w hv hw (Prod.mk.inj htree).1.symm

end Compliance.Json
