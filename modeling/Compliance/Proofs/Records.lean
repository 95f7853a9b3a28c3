import Compliance.Json.Record
import Compliance.Proofs.Reading

/-! Readers and what their results have in common. A record that is filled in field by field has every
property that its default has and no field destroys, whether it is read from an object or an array. -/
namespace Compliance.Json

/-- A property of what is inside one more bracket. -/
def Inside {α : Type} (P : Nat → α → Prop) : Nat → α → Prop
  | 0, _ => False
  | depth + 1, a => P depth a

namespace Decoder
variable {α : Type} {P : Nat → α → Prop} {d : Decoder α} {encode : α → Json}

/-- Whatever is read has a property. -/
def Ensures (d : Decoder α) (P : Nat → α → Prop) : Prop :=
  ∀ depth t a, d depth t = .ok a → P depth a

/-- Whatever has a property is read back when it is written. -/
def Restores (d : Decoder α) (encode : α → Json) (P : Nat → α → Prop) : Prop :=
  ∀ depth a, P depth a → d depth (encode a).tree = .ok a

theorem ensures_true : d.Ensures fun _ _ => True := fun _ _ _ _ => trivial

theorem value_ensures : Ensures Tree.value Readable := fun depth t _ h =>
  Tree.value_readable depth t h

theorem natural_ensures (expected : String) :
    (natural expected).Ensures fun _ n => n < 0x10000000000000000 := by
  intro depth t n h
  unfold natural at h
  split at h
  next m =>
    obtain ⟨k, hk, h⟩ := ok_of_bind h
    have hs := Numeral.toNumber_storable hk
    split at h
    next => cases h; exact hs
    next => cases h
    next => cases h
  next => cases h

theorem optional_ensures (h : d.Ensures P) :
    (optional d).Ensures fun depth o => ∀ a, o = some a → P depth a := by
  intro depth t o ho a ha
  subst ha
  unfold optional at ho
  split at ho
  next => cases ho
  next =>
    obtain ⟨b, hb, he⟩ := ok_of_map ho
    cases he
    exact h depth _ _ hb

private theorem items_ensures (h : d.Ensures P) (depth : Nat) (ts : List Tree) {as : List α}
    (hs : items d depth ts = .ok as) : ∀ a ∈ as, P depth a := by
  induction ts generalizing as with
  | nil => cases hs; nofun
  | cons t ts ih =>
    rw [items] at hs
    obtain ⟨b, hb, hs⟩ := ok_of_bind hs
    obtain ⟨bs, hbs, hs⟩ := ok_of_bind hs
    cases hs
    exact List.forall_mem_cons.mpr ⟨h depth t b hb, ih hbs⟩

theorem list_ensures (h : d.Ensures P) :
    (list d).Ensures (Inside fun depth as => ∀ a ∈ as, P depth a) := by
  intro depth t as hs
  unfold list at hs
  split at hs
  next => cases hs
  next =>
    obtain ⟨bs, hbs, hs⟩ := ok_of_bind hs
    obtain ⟨_, _, hs⟩ := ok_of_bind hs
    cases hs
    exact items_ensures h _ _ hbs
  next => cases hs

theorem string_restores : Restores string .string fun _ _ => True := fun _ s _ => Quoted.text_ofText s

theorem natural_restores (expected : String) :
    (natural expected).Restores ofNat fun _ n => n < 0x10000000000000000 := by
  intro depth n h
  have hn : (Number.integer (.ofNat n)).numeral.toNumber = .ok (.integer (.ofNat n)) :=
    Numeral.toNumber_numeral h trivial
  show (natural expected) depth (.number (Number.integer (.ofNat n)).numeral) = _
  unfold natural
  simp only [hn]
  rfl

theorem value_restores :
    Restores Tree.value id fun depth v => Readable depth v ∧ ∀ n ∈ v.numbers, n.IsWhole :=
  fun depth v h => value_tree depth v h.1 h.2

private theorem items_restores (h : d.Restores encode P) {depth : Nat} {as : List α}
    (hs : ∀ a ∈ as, P depth a) : items d depth (treeItems (as.map encode)) = .ok as := by
  induction as with
  | nil => rfl
  | cons a as ih =>
    obtain ⟨ha, has⟩ := List.forall_mem_cons.mp hs
    rw [List.map_cons, treeItems, items, h depth a ha, ih has]
    rfl

theorem list_restores (h : d.Restores encode P) :
    (list d).Restores (fun as => .array (as.map encode))
      (Inside fun depth as => ∀ a ∈ as, P depth a) := by
  intro depth as hs
  cases depth with
  | zero => cases hs
  | succ depth =>
    rw [tree]
    show (items d depth (treeItems (as.map encode)) >>= fun as => _) = _
    rw [items_restores h hs]
    rfl

/-- What is not `null` is read as it would be if it had to be there. -/
theorem optional_of_ne_null {t : Tree} (h : t ≠ .null) (depth : Nat) :
    optional d depth t = (d depth t).map some := by
  unfold optional
  split
  next => exact absurd rfl h
  next => rfl

theorem optional_restores (h : d.Restores encode P) (hne : ∀ a, (encode a).tree ≠ .null)
    {depth : Nat} {a : α} (ha : P depth a) : optional d depth (encode a).tree = .ok (some a) := by
  rw [optional_of_ne_null (hne a), h depth a ha]
  rfl

/-- What is missing is written as `null` and read as missing. -/
theorem optional_getD (h : d.Restores encode P) (hne : ∀ a, (encode a).tree ≠ .null) {depth : Nat}
    {o : Option α} (ho : ∀ a, o = some a → P depth a) :
    optional d depth ((o.map encode).getD .null).tree = .ok o := by
  cases o with
  | none => rfl
  | some a => exact optional_restores h hne (ho a rfl)

end Decoder

namespace RecordField
variable {σ α : Type}

/-- Storing the field does not destroy a property of the record. -/
def Keeps (f : RecordField σ) (P : Nat → σ → Prop) : Prop :=
  ∀ depth t s s', f.store depth t s = .ok s' → P depth s → P depth s'

theorem Keeps.of {presence : Presence} {name : String} {d : Decoder α} {set : α → σ → σ}
    {Q : Nat → α → Prop} {P : Nat → σ → Prop} (hd : d.Ensures Q)
    (hset : ∀ depth a s, Q depth a → P depth s → P depth (set a s)) :
    (RecordField.of presence name d set).Keeps P := by
  intro depth t s s' h hs
  obtain ⟨a, ha, rfl⟩ := ok_of_map h
  exact hset depth a s (hd depth t a ha) hs

theorem Keeps.orNamed {f : RecordField σ} {P : Nat → σ → Prop} (h : f.Keeps P) (other : String) :
    (f.orNamed other).Keeps P := h

theorem of_store {presence : Presence} {name : String} {d : Decoder α}
    {set : α → σ → σ} {depth : Nat} {t : Tree} {a : α} (h : d depth t = .ok a) (s : σ) :
    (RecordField.of presence name d set).store depth t s = .ok (set a s) := by
  show (d depth t).map _ = _
  rw [h]
  rfl

theorem orNamed_store {f : RecordField σ} {depth : Nat} {t : Tree} {s s' : σ}
    (h : f.store depth t s = .ok s') (other : String) :
    (f.orNamed other).store depth t s = .ok s' := h

end RecordField

namespace RecordShape
variable {σ : Type} (r : RecordShape σ)

/-- A property that storing a field, or a member that is none, does not destroy. -/
structure Keeps (P : Nat → σ → Prop) : Prop where
  fields : ∀ f ∈ r.fields, f.Keeps P
  others : ∀ store, r.unknown = .keep store → ∀ depth key v s, r.field? key = none →
    Readable depth v → P depth s → P depth (store key v s)

variable {r} {P : Nat → σ → Prop}

private theorem Keeps.members (h : r.Keeps P) {depth : Nat} (ms : List (Quoted × Tree))
    {seen : List String}
    {s : σ} {out : List String × σ} (hs : P depth s) (hm : r.members depth ms seen s = .ok out) :
    P depth out.2 := by
  induction ms generalizing seen s with
  | nil => cases hm; exact hs
  | cons m ms ih =>
    obtain ⟨key, t⟩ := m
    rw [RecordShape.members] at hm
    obtain ⟨name, _, hm⟩ := ok_of_bind hm
    split at hm
    next f hf =>
      split at hm
      next => cases hm
      next =>
        obtain ⟨s', hs', hm⟩ := ok_of_bind hm
        exact ih (h.fields f (List.mem_of_find?_eq_some hf) depth t s s' hs' hs) hm
    next hf =>
      split at hm
      next =>
        obtain ⟨_, _, hm⟩ := ok_of_bind hm
        exact ih hs hm
      next => cases hm
      next store hstore =>
        obtain ⟨v, hv, hm⟩ := ok_of_bind hm
        exact ih (h.others store hstore depth name v s hf (Tree.value_readable depth t hv) hs) hm

private theorem Keeps.items (h : r.Keeps P) {depth : Nat} (fs : List (RecordField σ))
    (hfs : ∀ f ∈ fs, f ∈ r.fields) {position : Nat} {ts : List Tree} {ending : ArrayEnd} {s s' : σ}
    (hs : P depth s) (hi : r.items depth position fs ts ending s = .ok s') : P depth s' := by
  induction fs generalizing position ts s with
  | nil =>
    rw [RecordShape.items] at hi
    obtain ⟨_, _, hi⟩ := ok_of_bind hi
    cases hi
    exact hs
  | cons f fs ih =>
    obtain ⟨hf, hfs⟩ := List.forall_mem_cons.mp hfs
    cases ts with
    | nil =>
      rw [RecordShape.items] at hi
      obtain ⟨_, _, hi⟩ := ok_of_bind hi
      split at hi
      next => cases hi
      next => exact ih hfs hs hi
    | cons t ts =>
      rw [RecordShape.items] at hi
      obtain ⟨s₁, hs₁, hi⟩ := ok_of_bind hi
      exact ih hfs (h.fields f hf depth t s s₁ hs₁ hs) hi

theorem Keeps.decoder (h : r.Keeps P) (hdefault : ∀ depth, P depth r.default) :
    r.decoder.Ensures (Inside P) := by
  intro depth t a ha
  unfold RecordShape.decoder at ha
  split at ha
  next => cases ha
  next =>
    obtain ⟨⟨seen, s⟩, hm, ha⟩ := ok_of_bind ha
    obtain ⟨_, _, ha⟩ := ok_of_bind ha
    obtain ⟨_, _, ha⟩ := ok_of_bind ha
    cases ha
    exact h.members _ (hdefault _) hm
  next =>
    split at ha
    next =>
      split at ha
      next => cases ha
      next => exact h.items r.fields (fun _ hf => hf) (hdefault _) ha
    next => cases ha
  next => cases ha

/-- Reading members into a record succeeds, with another record. -/
def Fills (r : RecordShape σ) (depth : Nat) (ms : List (Quoted × Tree)) (seen : List String)
    (s out : σ) : Prop := ∃ all, r.members depth ms seen s = .ok (all, out)

theorem Fills.nil {depth : Nat} {seen : List String} {s : σ} : r.Fills depth [] seen s s :=
  ⟨seen, rfl⟩

/-- A member that is a field is stored. -/
theorem Fills.field {key : String} {f : RecordField σ} {depth : Nat} {t : Tree} {s s' out : σ}
    {seen : List String} {rest : List (Quoted × Tree)} (hf : r.field? key = some f)
    (hseen : f.name ∉ seen) (hstore : f.store depth t s = .ok s')
    (h : r.Fills depth rest (f.name :: seen) s' out) :
    r.Fills depth ((.ofText key, t) :: rest) seen s out := by
  obtain ⟨all, h⟩ := h
  refine ⟨all, ?_⟩
  rw [RecordShape.members, Quoted.text_ofText]
  simp only [bind, Except.bind, hf, if_neg hseen, hstore, h]

/-- A member that is no field is kept. -/
theorem Fills.keep {store : String → Json → σ → σ} {key : String} {depth : Nat} {t : Tree} {v : Json}
    {s out : σ} {seen : List String} {rest : List (Quoted × Tree)}
    (hkeep : r.unknown = .keep store) (hf : r.field? key = none) (hv : t.value depth = .ok v)
    (h : r.Fills depth rest seen (store key v s) out) :
    r.Fills depth ((.ofText key, t) :: rest) seen s out := by
  obtain ⟨all, h⟩ := h
  refine ⟨all, ?_⟩
  rw [RecordShape.members, Quoted.text_ofText]
  simp only [bind, Except.bind, hf, hkeep, hv, h]

/-- A record is read from the members of an object, if no field has to be there. -/
theorem Fills.decoder {depth : Nat} {ms : List (Quoted × Tree)} {s : σ}
    (h : r.Fills depth ms [] r.default s)
    (hoptional : r.fields.all (fun f => f.presence = .optional) = true) :
    r.decoder (depth + 1) (.object ms .closed) = .ok s := by
  obtain ⟨all, h⟩ := h
  have hmissing : r.checkMissing all = .ok () := by
    have hnone : r.fields.find? (fun f => f.presence = .mandatory ∧ f.name ∉ all) = none :=
      List.find?_eq_none.mpr fun f hf => by
        have hf := List.all_eq_true.mp hoptional f hf
        simp [of_decide_eq_true hf]
    rw [checkMissing, hnone]
  unfold RecordShape.decoder
  simp only [h, bind, Except.bind, ObjectEnd.check, hmissing]
  rfl

end RecordShape
end Compliance.Json
