import Compliance.Outcome

/-!
One value for each outcome, and one for each category. `get` is the view: two such
families are equal when they agree at every index.
-/
namespace Compliance
universe u v w

structure PerOutcome (α : Type u) where
  pass : α
  fail : α
  error : α
  unknown : α
  notChecked : α
  notApplicable : α
  notSelected : α
  informational : α
  deriving DecidableEq

structure PerCategory (α : Type u) where
  pass : α
  fail : α
  unknown : α
  notApplicable : α
  deriving DecidableEq

namespace PerOutcome
variable {α : Type u} {β : Type v} {γ : Type w}

def get (t : PerOutcome α) : Outcome → α
  | .pass => t.pass
  | .fail => t.fail
  | .error => t.error
  | .unknown => t.unknown
  | .notChecked => t.notChecked
  | .notApplicable => t.notApplicable
  | .notSelected => t.notSelected
  | .informational => t.informational

def ofFn (f : Outcome → α) : PerOutcome α where
  pass := f .pass
  fail := f .fail
  error := f .error
  unknown := f .unknown
  notChecked := f .notChecked
  notApplicable := f .notApplicable
  notSelected := f .notSelected
  informational := f .informational

@[simp] theorem get_ofFn (f : Outcome → α) (o : Outcome) : (ofFn f).get o = f o := by
  cases o <;> rfl

theorem ext_get {t u : PerOutcome α} (h : ∀ o, t.get o = u.get o) : t = u := by
  cases t; cases u
  simp only [PerOutcome.mk.injEq]
  exact ⟨h .pass, h .fail, h .error, h .unknown, h .notChecked, h .notApplicable,
    h .notSelected, h .informational⟩

def modify (t : PerOutcome α) (o : Outcome) (f : α → α) : PerOutcome α :=
  ofFn fun p => if p = o then f (t.get p) else t.get p

def set (t : PerOutcome α) (o : Outcome) (a : α) : PerOutcome α := t.modify o fun _ => a

def map (f : α → β) (t : PerOutcome α) : PerOutcome β := ofFn fun o => f (t.get o)

def zipWith (f : α → β → γ) (t : PerOutcome α) (u : PerOutcome β) : PerOutcome γ :=
  ofFn fun o => f (t.get o) (u.get o)

def toList (t : PerOutcome α) : List α := Outcome.all.map t.get

def ofList? : List α → Option (PerOutcome α)
  | [a, b, c, d, e, f, g, h] => some ⟨a, b, c, d, e, f, g, h⟩
  | _ => none

@[simp] theorem get_modify (t : PerOutcome α) (o p : Outcome) (f : α → α) :
    (t.modify o f).get p = if p = o then f (t.get p) else t.get p := get_ofFn _ _

@[simp] theorem get_set (t : PerOutcome α) (o p : Outcome) (a : α) :
    (t.set o a).get p = if p = o then a else t.get p := get_modify _ _ _ _

@[simp] theorem get_map (f : α → β) (t : PerOutcome α) (o : Outcome) :
    (t.map f).get o = f (t.get o) := get_ofFn _ _

@[simp] theorem get_zipWith (f : α → β → γ) (t : PerOutcome α) (u : PerOutcome β) (o : Outcome) :
    (zipWith f t u).get o = f (t.get o) (u.get o) := get_ofFn _ _

@[simp] theorem ofList?_toList (t : PerOutcome α) : ofList? t.toList = some t := rfl

end PerOutcome

namespace PerCategory
variable {α : Type u} {β : Type v} {γ : Type w}

def get (t : PerCategory α) : Category → α
  | .pass => t.pass
  | .fail => t.fail
  | .unknown => t.unknown
  | .notApplicable => t.notApplicable

def ofFn (f : Category → α) : PerCategory α where
  pass := f .pass
  fail := f .fail
  unknown := f .unknown
  notApplicable := f .notApplicable

@[simp] theorem get_ofFn (f : Category → α) (c : Category) : (ofFn f).get c = f c := by
  cases c <;> rfl

theorem ext_get {t u : PerCategory α} (h : ∀ c, t.get c = u.get c) : t = u := by
  cases t; cases u
  simp only [PerCategory.mk.injEq]
  exact ⟨h .pass, h .fail, h .unknown, h .notApplicable⟩

def modify (t : PerCategory α) (c : Category) (f : α → α) : PerCategory α :=
  ofFn fun d => if d = c then f (t.get d) else t.get d

def set (t : PerCategory α) (c : Category) (a : α) : PerCategory α := t.modify c fun _ => a

def map (f : α → β) (t : PerCategory α) : PerCategory β := ofFn fun c => f (t.get c)

def zipWith (f : α → β → γ) (t : PerCategory α) (u : PerCategory β) : PerCategory γ :=
  ofFn fun c => f (t.get c) (u.get c)

def toList (t : PerCategory α) : List α := Category.all.map t.get

def ofList? : List α → Option (PerCategory α)
  | [a, b, c, d] => some ⟨a, b, c, d⟩
  | _ => none

@[simp] theorem get_modify (t : PerCategory α) (c d : Category) (f : α → α) :
    (t.modify c f).get d = if d = c then f (t.get d) else t.get d := get_ofFn _ _

@[simp] theorem get_set (t : PerCategory α) (c d : Category) (a : α) :
    (t.set c a).get d = if d = c then a else t.get d := get_modify _ _ _ _

@[simp] theorem get_map (f : α → β) (t : PerCategory α) (c : Category) :
    (t.map f).get c = f (t.get c) := get_ofFn _ _

@[simp] theorem get_zipWith (f : α → β → γ) (t : PerCategory α) (u : PerCategory β)
    (c : Category) : (zipWith f t u).get c = f (t.get c) (u.get c) := get_ofFn _ _

@[simp] theorem ofList?_toList (t : PerCategory α) : ofList? t.toList = some t := rfl

end PerCategory
end Compliance
