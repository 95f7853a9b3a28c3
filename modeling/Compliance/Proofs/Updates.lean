import Compliance.Proofs.Composition
import Compliance.Proofs.TargetPass

/-! One result set to another outcome in a finished report, and both passes run anew. They derive
everything from scratch, and yet only the rule and the target of the result come out different: an
item goes from one class to another and the counters follow. -/
namespace Compliance

section
variable {α : Type} {xs : List α} {i : Nat} {a : α}

private theorem take_cons_drop (h : xs[i]? = some a) : xs.take i ++ a :: xs.drop (i + 1) = xs := by
  obtain ⟨hi, rfl⟩ := List.getElem?_eq_some_iff.mp h
  rw [List.getElem_cons_drop, List.take_append_drop]

private theorem set_eq_take_cons_drop (h : xs[i]? = some a) (b : α) :
    xs.set i b = xs.take i ++ b :: xs.drop (i + 1) := by
  rw [List.set_eq_take_append_cons_drop, if_pos (List.getElem?_eq_some_iff.mp h).1]

end

namespace Partition
variable {α : Type}

/-- Two partitions that differ in the class of one item. The items before it and those after it are in
the same classes, in the same order. -/
structure Moves (p q : Partition α) (a : α) (old new : Outcome) (before after : Outcome → List α) :
    Prop where
  was : ∀ o, p.get o = before o ++ (if o = old then [a] else []) ++ after o
  is : ∀ o, q.get o = before o ++ (if o = new then [a] else []) ++ after o

private theorem get_sort_cons (o : Outcome) (a : α) (xs : List (Outcome × α)) (q : Outcome) :
    (sort ((o, a) :: xs)).get q = (if q = o then [a] else []) ++ (sort xs).get q := by
  rw [get_sort, get_sort]
  by_cases h : q = o
  · simp [h]
  · simp [h, Ne.symm h]

private theorem sort_moves (xs ys : List (Outcome × α)) (a : α) (old new : Outcome) :
    (sort (xs ++ (old, a) :: ys)).Moves (sort (xs ++ (new, a) :: ys)) a old new (sort xs).get
      (sort ys).get where
  was o := by rw [get_sort_append, get_sort_cons, List.append_assoc]
  is o := by rw [get_sort_append, get_sort_cons, List.append_assoc]

/-- The counters follow the item. -/
private theorem Moves.counts {p q : Partition α} {a : α} {old new : Outcome}
    {before after : Outcome → List α} (h : p.Moves q a old new before after) (o : Outcome) :
    q.counts.get o + (if o = old then 1 else 0) = p.counts.get o + if o = new then 1 else 0 := by
  have hlength : ∀ r : Outcome, (if o = r then [a] else []).length = if o = r then 1 else 0 := by
    intro r
    split <;> rfl
  rw [get_counts, get_counts, h.was, h.is]
  simp only [List.length_append, hlength]
  omega

/-- The positions in a list of outcomes that starts at a given position. -/
private theorem get_sort_zipIdx_from (os : List Outcome) (n : Nat) (o : Outcome) :
    (sort (os.zipIdx n)).get o = (Outcome.positionsIn os o).map (n + ·) := by
  rw [Outcome.positionsIn, ← get_sort_zipIdx, get_sort, get_sort, List.zipIdx_eq_map_add,
    List.filter_map, List.map_map, List.map_map]
  rfl

end Partition

namespace CategoryTally

/-- One unit at most is taken from one category and given to another. -/
def Shifts (t u : CategoryTally) (old new : Option Category) : Prop :=
  ∀ c, u.get c + (if old = some c then 1 else 0) = t.get c + if new = some c then 1 else 0

/-- The totals of some categories when one of them changes. -/
private theorem ofList_filterMap_shifts {α : Type} (category : α → Option Category) {xs : List α}
    {i : Nat} {a : α} (h : xs[i]? = some a) (b : α) :
    (ofList (xs.filterMap category)).Shifts (ofList ((xs.set i b).filterMap category)) (category a)
      (category b) := by
  have hwas : xs.filterMap category = (xs.take i ++ a :: xs.drop (i + 1)).filterMap category := by
    rw [take_cons_drop h]
  intro c
  rw [set_eq_take_cons_drop h, hwas]
  simp only [get_ofList, List.filterMap_append, List.filterMap_cons, List.count_append]
  cases category a <;> cases category b <;> simp [List.count_cons] <;> omega

end CategoryTally

/-- A rule with one of its targets in another class. -/
structure Rule.Moved (x y : Rule) (name : String) (old new : Outcome)
    (before after : Outcome → List String) : Prop where
  frame : y = { x with totals := y.totals, targets := y.targets, category := y.category }
  classes : x.targets.Moves y.targets name old new before after
  counters : ∀ o,
    y.totals.get o + (if o = old then 1 else 0) = x.totals.get o + if o = new then 1 else 0
  category : y.category = some y.totals.classify

/-- A target with one of its rules in another class. -/
structure Target.Moved (t u : Target) (i : Nat) (old new : Outcome)
    (before after : Outcome → List Nat) : Prop where
  frame : u = { t with results := t.results.set i new, rules := u.rules, category := u.category }
  classes : t.rules.Moves u.rules i old new before after
  category : u.category = some u.rules.counts.classify

/-- The rule at a position is settled anew when one result at the position changes. -/
private theorem Rule.moved_settledOn (x : Rule) (xs ys : List (Outcome × String)) (name : String)
    (old new : Outcome) :
    (x.settledOn (.sort (xs ++ (old, name) :: ys))).Moved
      (x.settledOn (.sort (xs ++ (new, name) :: ys))) name old new (Partition.sort xs).get
      (Partition.sort ys).get where
  frame := rfl
  classes := Partition.sort_moves xs ys name old new
  counters := (Partition.sort_moves xs ys name old new).counts
  category := rfl

/-- A target is settled anew when one of its results changes. -/
private theorem Target.moved_settle {t : Target} {i : Nat} {old : Outcome}
    (h : t.results[i]? = some old) (new : Outcome) :
    t.settle.Moved { t with results := t.results.set i new }.settle i old new
      (Outcome.positionsIn (t.results.take i))
      (fun o => (Outcome.positionsIn (t.results.drop (i + 1)) o).map (i + 1 + ·)) where
  frame := rfl
  classes := by
    have hi : (t.results.take i).length = i :=
      List.length_take_of_le (Nat.le_of_lt (List.getElem?_eq_some_iff.mp h).1)
    have hzip : ∀ o : Outcome, (t.results.take i ++ o :: t.results.drop (i + 1)).zipIdx
        = (t.results.take i).zipIdx ++ (o, i) :: (t.results.drop (i + 1)).zipIdx (i + 1) := by
      intro o
      rw [List.zipIdx_append, List.zipIdx_cons, hi, Nat.zero_add]
    have hbefore : (Partition.sort (t.results.take i).zipIdx).get
        = Outcome.positionsIn (t.results.take i) := by
      funext o
      exact Partition.get_sort_zipIdx ..
    have hafter : (Partition.sort ((t.results.drop (i + 1)).zipIdx (i + 1))).get
        = fun o => (Outcome.positionsIn (t.results.drop (i + 1)) o).map (i + 1 + ·) := by
      funext o
      exact Partition.get_sort_zipIdx_from ..
    have hm := Partition.sort_moves (t.results.take i).zipIdx
      ((t.results.drop (i + 1)).zipIdx (i + 1)) i old new
    rwa [← hzip, ← hzip, take_cons_drop h, ← set_eq_take_cons_drop h, hbefore, hafter] at hm
  category := rfl

namespace Report

/-- The results at other positions do not matter. -/
private theorem columnOf_cons_congr {t : Target} {os : List Outcome} {i : Nat}
    (h : os[i]? = t.results[i]?)
    (ts : List Target) : columnOf ({ t with results := os } :: ts) i = columnOf (t :: ts) i := by
  rw [columnOf_eq, columnOf_eq, List.filterMap_cons, List.filterMap_cons, h]

/-- Reports in which nothing is left to settle. -/
def Settled (r : Report) : Prop := r.aggregate = r

private theorem aggregate_settled (r : Report) :
    r.aggregate.Settled := aggregate_congr (bare_apply .both r)

private theorem Settled.target {r : Report} (h : r.Settled) {t : Target} (ht : t ∈ r.targets) :
    t.settle = t := by
  have htargets : r.targets.map Target.settle = r.targets.map id :=
    (congrArg Report.targets h).trans (List.map_id _).symm
  exact List.map_inj_left.mp htargets t ht

private theorem Settled.getElem?_rules {r : Report} (h : r.Settled) (i : Nat) :
    r.rules[i]? = r.rules[i]?.map fun x => x.settledOn (.sort (r.column i)) := by
  rw [← getElem?_aggregate_rules, h]

private theorem Settled.rule {r : Report} (h : r.Settled) {i : Nat} {x : Rule}
    (hx : r.rules[i]? = some x) : x.settledOn (.sort (r.column i)) = x := by
  have hs := h.getElem?_rules i
  rw [hx] at hs
  exact (Option.some.inj hs).symm

private theorem Settled.ruleTotals {r : Report} (h : r.Settled) :
    r.ruleTotals = .ofList (r.rules.filterMap (·.category)) := by
  have ht := aggregate_ruleTotals r
  rwa [h] at ht

private theorem Settled.targetTotals {r : Report} (h : r.Settled) :
    r.targetTotals = .ofList (r.targets.filterMap (·.category)) := by
  have ht := aggregate_targetTotals r
  rwa [h] at ht

section
variable {r : Report} {k : Nat} {t : Target} (ht : r.targets[k]? = some t) (i : Nat) (new : Outcome)
include ht

/-- The targets after the change, of which one has another result. -/
theorem setResult_targets : (r.edit (.setResult k i new)).targets
    = r.targets.take k ++ { t with results := t.results.set i new } :: r.targets.drop (k + 1) := by
  obtain ⟨hk, rfl⟩ := List.getElem?_eq_some_iff.mp ht
  exact List.modify_eq_take_cons_drop hk

private theorem column_cut {o : Outcome} (ho : t.results[i]? = some o) : r.column i
    = columnOf (r.targets.take k) i ++ (o, t.name) :: columnOf (r.targets.drop (k + 1)) i := by
  rw [← columnOf_cons_some ho, ← columnOf_append, take_cons_drop ht]
  rfl

private theorem column_setResult {old : Outcome} (ho : t.results[i]? = some old) :
    (r.edit (.setResult k i new)).column i
      = columnOf (r.targets.take k) i ++ (new, t.name) :: columnOf (r.targets.drop (k + 1)) i := by
  have hset : (t.results.set i new)[i]? = some new :=
    List.getElem?_set_self (List.getElem?_eq_some_iff.mp ho).1
  rw [column, setResult_targets ht, columnOf_append, columnOf_cons_some hset]

/-- The columns of the other rules stay. -/
private theorem column_setResult_of_ne {j : Nat} (hj : i ≠ j) :
    (r.edit (.setResult k i new)).column j = r.column j := by
  calc (r.edit (.setResult k i new)).column j
      = columnOf (r.targets.take k) j ++ columnOf (t :: r.targets.drop (k + 1)) j := by
        rw [column, setResult_targets ht, columnOf_append,
          columnOf_cons_congr (List.getElem?_set_ne hj)]
    _ = columnOf (r.targets.take k ++ t :: r.targets.drop (k + 1)) j := (columnOf_append ..).symm
    _ = r.column j := by rw [take_cons_drop ht, column]

/-- Of a settled report only the rule of the result comes out of the passes different. -/
private theorem rules_setResult (h : r.Settled) {x : Rule} (hx : r.rules[i]? = some x) :
    (r.edit (.setResult k i new)).aggregate.rules
      = r.rules.set i (x.settledOn (.sort ((r.edit (.setResult k i new)).column i))) := by
  have hrules : (r.edit (.setResult k i new)).rules = r.rules := rfl
  apply List.ext_getElem?
  intro j
  rw [getElem?_aggregate_rules, hrules, List.getElem?_set]
  split
  next hj =>
    subst hj
    rw [hx, if_pos (List.getElem?_eq_some_iff.mp hx).1]
    rfl
  next hj => rw [column_setResult_of_ne ht i new hj, ← h.getElem?_rules]

/-- Of a settled report only the target of the result comes out of the passes different. -/
private theorem targets_setResult (h : r.Settled) : (r.edit (.setResult k i new)).aggregate.targets
    = r.targets.set k { t with results := t.results.set i new }.settle := by
  have hkeep : ∀ ts : List Target, ts ⊆ r.targets → ts.map Target.settle = ts := by
    intro ts hts
    calc ts.map Target.settle = ts.map id := List.map_congr_left fun u hu => h.target (hts hu)
      _ = ts := List.map_id ts
  rw [aggregate_targets, setResult_targets ht, List.map_append, List.map_cons,
    hkeep _ (List.take_subset k _), hkeep _ (List.drop_subset _ _), set_eq_take_cons_drop ht]

/-- Setting the outcome that is there changes nothing. -/
private theorem setResult_self {old : Outcome} (ho : t.results[i]? = some old) :
    r.edit (.setResult k i old) = r := by
  have hresults : t.results.set i old = t.results := by
    rw [set_eq_take_cons_drop ho, take_cons_drop ho]
  have htargets := setResult_targets ht i old
  rw [hresults, take_cons_drop ht] at htargets
  show { r with targets := (r.edit (.setResult k i old)).targets } = r
  rw [htargets]

end

private theorem build_settled {d : Document} {s : Settings} {r : Report}
    (h : (build d s).result = .ok r) :
    r.Settled := by
  obtain ⟨o, _, rfl⟩ := build_eq_ok.mp h
  exact aggregate_settled o

/-- Setting one result of a finished report and running both passes changes one rule and one target
and leaves all others, the benchmark and the index. In the rule the name of the target goes from the
class of the old outcome to that of the new one, between the same names, and the two counters follow;
in the target the position of the rule does so. At most one rule and one target change category, and
the totals with them. -/
theorem build_setResult {d : Document} {s : Settings} {r : Report} (h : (build d s).result = .ok r)
    {k i : Nat} {t : Target} {x : Rule} (ht : r.targets[k]? = some t) (hx : r.rules[i]? = some x)
    (new : Outcome) :
    ∃ q old u y, q = (r.edit (.setResult k i new)).aggregate ∧ t.results[i]? = some old ∧
      q = { r with
        rules := r.rules.set i y
        targets := r.targets.set k u
        ruleTotals := q.ruleTotals
        targetTotals := q.targetTotals } ∧
      x.Moved y t.name old new (namesAt (r.targets.take k) i)
        (namesAt (r.targets.drop (k + 1)) i) ∧
      t.Moved u i old new (Outcome.positionsIn (t.results.take i))
        (fun o => (Outcome.positionsIn (t.results.drop (i + 1)) o).map (i + 1 + ·)) ∧
      r.ruleTotals.Shifts q.ruleTotals x.category y.category ∧
      r.targetTotals.Shifts q.targetTotals t.category u.category ∧
      (new = old → q = r) := by
  have hs := build_settled h
  have hlt : i < t.results.length := by
    rw [(build_accountsFor h).rectangular t (List.mem_of_getElem? ht)]
    exact (List.getElem?_eq_some_iff.mp hx).1
  have hold := List.getElem?_eq_getElem hlt
  have hrules := rules_setResult ht i new hs hx
  have htargets := targets_setResult ht i new hs
  refine ⟨_, t.results[i], { t with results := t.results.set i new }.settle,
    x.settledOn (.sort ((r.edit (.setResult k i new)).column i)), rfl, hold, ?_, ?_, ?_, ?_, ?_, ?_⟩
  · rw [← hrules, ← htargets]
    rfl
  · have hm := x.moved_settledOn (columnOf (r.targets.take k) i)
      (columnOf (r.targets.drop (k + 1)) i) t.name t.results[i] new
    rwa [← column_cut ht i hold, ← column_setResult ht i new hold, hs.rule hx, get_sort_columnOf,
      get_sort_columnOf] at hm
  · have hm := t.moved_settle hold new
    rwa [hs.target (List.mem_of_getElem? ht)] at hm
  · rw [hs.ruleTotals, aggregate_ruleTotals, hrules]
    exact CategoryTally.ofList_filterMap_shifts Rule.category hx _
  · rw [hs.targetTotals, aggregate_targetTotals, htargets]
    exact CategoryTally.ofList_filterMap_shifts Target.category ht _
  · rintro rfl
    rw [setResult_self ht i hold, hs]

/-- The only failure becomes an error. Its target has the name of another, and now stands before the
target that had the error. -/
theorem build_setResult_repeated_name :
    ∃ r q t u x y, (build (threeTargets "host") ⟨.lastWins, []⟩).result = .ok r ∧
      q = (r.edit (.setResult 0 1 .error)).aggregate ∧
      r.targets[0]? = some t ∧ r.rules[1]? = some x ∧
      x.Moved y t.name .fail .error (namesAt (r.targets.take 0) 1) (namesAt (r.targets.drop 1) 1) ∧
      (x.targets.get .fail, x.targets.get .error) = (["host"], ["down"]) ∧
      (y.targets.get .fail, y.targets.get .error) = ([], ["host", "down"]) ∧
      q.targets = r.targets.set 0 u ∧ (t.category, u.category) = (some .fail, some .unknown) ∧
      (r.ruleTotals, q.ruleTotals) = (⟨0, 1, 1, 0⟩, ⟨0, 0, 2, 0⟩) := by
  have hb : ∃ r t x, (build (threeTargets "host") ⟨.lastWins, []⟩).result = .ok r ∧
      r.targets[0]? = some t ∧ r.rules[1]? = some x := ⟨_, _, _, rfl, rfl, rfl⟩
  obtain ⟨r, t, x, h, ht, hx⟩ := hb
  obtain ⟨q, old, u, y, hq, hold, hframe, hrule, _⟩ := build_setResult h ht hx .error
  cases h
  obtain rfl := Option.some.inj ht
  obtain rfl := Option.some.inj hx
  obtain rfl := Option.some.inj hold
  refine ⟨_, q, _, u, _, y, rfl, hq, rfl, rfl, hrule, rfl, ?_, ?_, ?_, ?_⟩
  · rw [hrule.classes.is, hrule.classes.is]
    rfl
  · rw [hframe]
  · have hu : q.targets[0]? = some u := by
      rw [hframe]
      rfl
    rw [hq] at hu
    obtain rfl := Option.some.inj hu
    rfl
  · rw [hq]
    rfl

end Report
end Compliance
