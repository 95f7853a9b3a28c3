import Compliance.Event

/-!
Computations that keep a log and may fail. The log lasts up to the failure.
-/
namespace Compliance

structure Traced (α : Type) where
  events : List Event
  result : Except Fault α

namespace Traced
variable {α β : Type}

def ok (a : α) : Traced α := ⟨[], .ok a⟩

def fail (f : Fault) : Traced α := ⟨[], .error f⟩

def emit (e : Event) : Traced Unit := ⟨[e], .ok ()⟩

def emitAll (es : List Event) : Traced Unit := ⟨es, .ok ()⟩

def ofExcept (r : Except Fault α) : Traced α := ⟨[], r⟩

def andThen (x : Traced α) (f : α → Traced β) : Traced β :=
  match x.result with
  | .ok a => ⟨x.events ++ (f a).events, (f a).result⟩
  | .error e => ⟨x.events, .error e⟩

instance : Monad Traced where
  pure := ok
  bind := andThen

theorem bind_of_ok {x : Traced α} {a : α} (h : x.result = .ok a) (f : α → Traced β) :
    x >>= f = ⟨x.events ++ (f a).events, (f a).result⟩ := by
  show andThen x f = _
  rw [andThen, h]

theorem bind_of_error {x : Traced α} {e : Fault} (h : x.result = .error e) (f : α → Traced β) :
    x >>= f = ⟨x.events, .error e⟩ := by
  show andThen x f = _
  rw [andThen, h]

@[simp] theorem result_pure (a : α) : (pure a : Traced α).result = .ok a := rfl

@[simp] theorem result_ok (a : α) : (ok a).result = .ok a := rfl

@[simp] theorem result_fail (f : Fault) : (fail f : Traced α).result = .error f := rfl

@[simp] theorem result_emit (e : Event) : (emit e).result = .ok () := rfl

@[simp] theorem result_emitAll (es : List Event) : (emitAll es).result = .ok () := rfl

@[simp] theorem result_ofExcept (r : Except Fault α) : (ofExcept r).result = r := rfl

@[simp] theorem events_pure (a : α) : (pure a : Traced α).events = [] := rfl

@[simp] theorem events_emit (e : Event) : (emit e).events = [e] := rfl

@[simp] theorem events_emitAll (es : List Event) : (emitAll es).events = es := rfl

@[simp] theorem events_ofExcept (r : Except Fault α) : (ofExcept r).events = [] := rfl

/-- A sequence has a result exactly when both of its parts have one. -/
theorem bind_eq_ok {x : Traced α} {f : α → Traced β} {b : β} :
    (x >>= f).result = .ok b ↔ ∃ a, x.result = .ok a ∧ (f a).result = .ok b := by
  cases h : x.result with
  | ok a => rw [bind_of_ok h]; simp
  | error e => rw [bind_of_error h]; simp

/-- A sequence fails with its first part, or with the second after a result of the first. -/
theorem bind_eq_error {x : Traced α} {f : α → Traced β} {e : Fault} :
    (x >>= f).result = .error e ↔
      x.result = .error e ∨ ∃ a, x.result = .ok a ∧ (f a).result = .error e := by
  cases h : x.result with
  | ok a => rw [bind_of_ok h]; simp
  | error e => rw [bind_of_error h]; simp

def onFail (x : Traced α) (record : Fault → Event) : Traced α :=
  match x.result with
  | .ok _ => x
  | .error e => ⟨x.events ++ [record e], x.result⟩

end Traced
end Compliance
