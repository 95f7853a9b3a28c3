import Compliance.Traced

/-! Two computations side by side. They are alike to a reader of some of the records when those
records are the same, and both fail for the same reason or both succeed with related results. -/
namespace Compliance

/-- The ends of two computations, whose results are related if they have any. -/
inductive SameEnd {α β : Type} (R : α → β → Prop) : Except Fault α → Except Fault β → Prop where
  | ok {a : α} {b : β} (related : R a b) : SameEnd R (.ok a) (.ok b)
  | error (f : Fault) : SameEnd R (.error f) (.error f)

private theorem SameEnd.refl {α : Type} (r : Except Fault α) : SameEnd Eq r r := by
  cases r with
  | ok a => exact .ok rfl
  | error f => exact .error f

theorem SameEnd.eq {α : Type} {r q : Except Fault α} (h : SameEnd Eq r q) : r = q := by
  cases h with
  | ok related => rw [related]
  | error f => rfl

theorem SameEnd.of_map {α β γ : Type} {f : α → γ} {g : β → γ} {r : Except Fault α}
    {q : Except Fault β} (h : r.map f = q.map g) : SameEnd (fun a b => f a = g b) r q := by
  cases r with
  | error f =>
    cases q with
    | error f' =>
      obtain rfl := Except.error.inj h
      exact .error f
    | ok b => cases h
  | ok a =>
    cases q with
    | error f => cases h
    | ok b => exact .ok (Except.ok.inj h)

namespace Traced
variable {α β γ δ : Type} {seen : Event → Bool} {R : α → β → Prop} {S : γ → δ → Prop}

structure Alike (seen : Event → Bool) (R : α → β → Prop) (x : Traced α) (y : Traced β) : Prop where
  events : x.events.filter seen = y.events.filter seen
  result : SameEnd R x.result y.result

theorem Alike.refl (x : Traced α) : Alike seen Eq x x := ⟨rfl, .refl x.result⟩

theorem Alike.pure {a : α} {b : β} (h : R a b) : Alike seen R (pure a) (pure b) := ⟨rfl, .ok h⟩

theorem Alike.emitAll {es fs : List Event} (h : es.filter seen = fs.filter seen) :
    Alike seen Eq (emitAll es) (emitAll fs) := ⟨h, .ok rfl⟩

/-- A sequence of two parts is alike in both, if the second parts are alike after related results of
the first. -/
theorem Alike.bind {x : Traced α} {y : Traced β} {f : α → Traced γ} {g : β → Traced δ}
    (h : Alike seen R x y) (hf : ∀ a b, R a b → Alike seen S (f a) (g b)) :
    Alike seen S (x >>= f) (y >>= g) := by
  obtain ⟨he, hr⟩ := h
  generalize hx : x.result = p at hr
  generalize hy : y.result = q at hr
  cases hr with
  | ok related =>
    have hfg := hf _ _ related
    rw [bind_of_ok hx, bind_of_ok hy]
    exact ⟨by rw [List.filter_append, List.filter_append, he, hfg.events], hfg.result⟩
  | error f =>
    rw [bind_of_error hx, bind_of_error hy]
    exact ⟨he, .error f⟩

end Traced
end Compliance
