import Compliance.FileTree

/-! Where paths lead, before and after a file is put in a tree. A path leads to the same place as before,
if to any, and what it finds there is new at the place of the file alone. -/
namespace Compliance

namespace Path

/-- Whether a text can be the name of something in a directory. -/
structure IsName (name : String) : Prop where
  nonempty : name ≠ ""
  notHere : name ≠ "."
  notAbove : name ≠ ".."
  whole : '/' ∉ name.toList

instance (name : String) : Decidable (IsName name) :=
  decidable_of_iff (name ≠ "" ∧ name ≠ "." ∧ name ≠ ".." ∧ '/' ∉ name.toList)
    ⟨fun ⟨h₁, h₂, h₃, h₄⟩ => ⟨h₁, h₂, h₃, h₄⟩, fun ⟨h₁, h₂, h₃, h₄⟩ => ⟨h₁, h₂, h₃, h₄⟩⟩

theorem split_ne_nil (cs : List Char) : split cs ≠ [] := by
  cases cs with
  | nil => exact List.cons_ne_nil _ _
  | cons c cs =>
    rw [split]
    split
    · exact List.cons_ne_nil _ _
    · split <;> exact List.cons_ne_nil _ _

private theorem split_cons {c : Char}
    (hc : c ≠ '/') {cs name : List Char} {names : List (List Char)}
    (h : split cs = name :: names) : split (c :: cs) = (c :: name) :: names := by
  rw [split, if_neg hc, h]

theorem split_append_slash (xs ys : List Char) : split (xs ++ '/' :: ys) = split xs ++ split ys := by
  induction xs with
  | nil => rfl
  | cons c xs ih =>
    by_cases hc : c = '/'
    · rw [List.cons_append, split, if_pos hc, ih, split, if_pos hc]
      rfl
    · obtain ⟨name, names, hs⟩ := List.exists_cons_of_ne_nil (split_ne_nil xs)
      rw [hs] at ih
      rw [split_cons hc hs, List.cons_append, split_cons hc ih]
      rfl

theorem split_of_notMem {cs : List Char} (h : '/' ∉ cs) : split cs = [cs] := by
  induction cs with
  | nil => rfl
  | cons c cs ih =>
    exact split_cons (fun hc => h (hc ▸ List.mem_cons_self)) (ih fun hm => h (List.mem_cons_of_mem c hm))

end Path

/-- What can be seen of a node before it is read. -/
def Node.kind : Node → FileKind
  | .file _ => .file
  | .directory => .directory
  | .sink => .special

theorem Node.file_ne_directory (content : Option String) : Node.file content ≠ .directory := nofun

namespace FileTree
variable {t : FileTree} {p q : Place} {n : Node} {path : String}

theorem place_eq_ok : t.place path = .ok q ↔
    ∃ here names, t.start path = .ok (here, names) ∧ t.walk here names = .ok q := by
  unfold place
  cases t.start path with
  | error e => simp [bind, Except.bind]
  | ok found =>
    obtain ⟨here, names⟩ := found
    refine ⟨fun h => ⟨here, names, rfl, h⟩, ?_⟩
    rintro ⟨_, _, hfound, h⟩
    cases hfound
    exact h

/-- A file is written where its path leads, unless the path asks for a directory. -/
theorem target_eq_ok : t.target path = .ok q ↔
    ∃ here names, t.start path = .ok (here, names) ∧
      (names.reverse.dropWhile (· = "")).length = names.length ∧ t.walk here names = .ok q := by
  unfold target
  cases t.start path with
  | error e => simp [bind, Except.bind]
  | ok found =>
    obtain ⟨here, names⟩ := found
    simp only [bind, Except.bind, List.length_reverse]
    split
    next hname =>
      refine ⟨fun h => ⟨here, names, rfl, hname, h⟩, ?_⟩
      rintro ⟨_, _, hfound, _, h⟩
      cases hfound
      exact h
    next hslash =>
      refine iff_of_false ?_ ?_
      · split <;> nofun
      · rintro ⟨_, _, hfound, hname, _⟩
        cases hfound
        exact hslash hname

theorem place_of_target (h : t.target path = .ok q) : t.place path = .ok q := by
  obtain ⟨here, names, hs, _, hw⟩ := target_eq_ok.mp h
  exact place_eq_ok.mpr ⟨here, names, hs, hw⟩

theorem ne_root (hp : t.node? p ≠ some .directory) : p ≠ [] := by
  rintro rfl
  exact hp rfl

theorem node?_put_self (hp : t.node? p ≠ some .directory) : (t.put p n).node? p = some n := by
  rw [node?_put (ne_root hp), if_pos rfl]

/-- Nothing is found behind what is no directory. -/
private theorem walk_cons_ne_ok {here : Place} (h : t.node? here ≠ some .directory) (name : String)
    (rest : List String) : t.walk here (name :: rest) ≠ .ok q := by
  rw [walk]
  split
  next => nofun
  next hd => exact absurd hd h
  next => nofun

/-- Only directories are walked through, so a walk ends where it did when something else takes the
place of something else. -/
theorem walk_put (hp : t.node? p ≠ some .directory) (hn : n ≠ .directory) {here : Place}
    {names : List String} :
    (t.put p n).walk here names = .ok q ↔ t.walk here names = .ok q := by
  induction names generalizing here with
  | nil => exact Iff.rfl
  | cons name rest ih =>
    -- Only at the place itself do the trees differ, and there neither lets a walk go on.
    by_cases hhere : here = p
    · subst hhere
      have hput : (t.put here n).node? here ≠ some .directory := by
        rw [node?_put_self hp]
        exact fun h => hn (Option.some.inj h)
      exact iff_of_false (walk_cons_ne_ok hput name rest) (walk_cons_ne_ok hp name rest)
    · rw [walk, walk, node?_put (ne_root hp), if_neg hhere]
      split
      next => exact Iff.rfl
      next =>
        cases step here name with
        | error e => exact Iff.rfl
        | ok next => exact ih
      next => exact Iff.rfl

theorem place_put (hp : t.node? p ≠ some .directory) (hn : n ≠ .directory) :
    (t.put p n).place path = .ok q ↔ t.place path = .ok q := by
  rw [place_eq_ok, place_eq_ok]
  exact exists_congr fun _ => exists_congr fun _ => and_congr_right fun _ => walk_put hp hn

private theorem target_put (hp : t.node? p ≠ some .directory) (hn : n ≠ .directory) :
    (t.put p n).target path = .ok q ↔ t.target path = .ok q := by
  rw [target_eq_ok, target_eq_ok]
  exact exists_congr fun _ => exists_congr fun _ => and_congr_right fun _ =>
    and_congr_right fun _ => walk_put hp hn

theorem look_of_place (h : t.place path = .ok q) : t.look path =
    match t.node? q with
    | some n => .ok n
    | none => .error .notFound := by
  rw [look, h]
  rfl

/-- Nothing else can be told apart from before by its path. -/
theorem look_put (hp : t.node? p ≠ some .directory) (hn : n ≠ .directory) (hq : t.place path = .ok q)
    (hne : q ≠ p) : (t.put p n).look path = t.look path := by
  rw [look_of_place hq, look_of_place ((place_put hp hn).mpr hq),
    node?_put (ne_root hp), if_neg hne]

theorem read_congr {t' : FileTree} (h : t'.look path = t.look path) : t'.read path = t.read path := by
  rw [read, read, h]

theorem place_of_look {k : Node} (h : t.look path = .ok k) :
    ∃ q, t.place path = .ok q ∧ t.node? q = some k := by
  cases hq : t.place path with
  | error e =>
    rw [look, hq] at h
    cases h
  | ok q =>
    rw [look_of_place hq] at h
    split at h
    next k' hk =>
      cases h
      exact ⟨q, rfl, hk⟩
    next => cases h

theorem kind_eq_some {k : FileKind} : t.kind path = some k ↔
    ∃ q n, t.place path = .ok q ∧ t.node? q = some n ∧ n.kind = k := by
  have hlook : t.kind path = some k ↔ ∃ n, t.look path = .ok n ∧ n.kind = k := by
    rw [kind]
    cases hl : t.look path with
    | error e => simp
    | ok n => cases n <;> simp [Node.kind]
  rw [hlook]
  constructor
  · rintro ⟨n, hn, hk⟩
    obtain ⟨q, hq, hnode⟩ := place_of_look hn
    exact ⟨q, n, hq, hnode, hk⟩
  · rintro ⟨q, n, hq, hnode, hk⟩
    exact ⟨n, by rw [look_of_place hq, hnode], hk⟩

theorem kind_ne_directory (hq : t.place path = .ok q) (h : t.node? q ≠ some .directory) :
    t.kind path ≠ some .directory := by
  intro hdir
  obtain ⟨r, m, hr, hm, hk⟩ := kind_eq_some.mp hdir
  cases hq.symm.trans hr
  cases m with
  | directory => exact h hm
  | file _ | sink => cases hk

theorem look_of_kind {k : FileKind} (h : t.kind path = some k) : ∃ m, t.look path = .ok m := by
  obtain ⟨q, m, hq, hnode, _⟩ := kind_eq_some.mp h
  exact ⟨m, by rw [look_of_place hq, hnode]⟩

theorem kind_put (hp : t.node? p ≠ some .directory) (hn : n ≠ .directory)
    (hne : t.place path ≠ .ok p) : (t.put p n).kind path = t.kind path := by
  refine Option.ext fun k => ?_
  rw [kind_eq_some, kind_eq_some]
  refine exists_congr fun q => exists_congr fun m => ?_
  rw [place_put hp hn]
  refine and_congr_right fun hq => ?_
  have hqp : q ≠ p := by
    rintro rfl
    exact hne hq
  rw [node?_put (ne_root hp), if_neg hqp]

/-- Paths of which one begins with the other start at the same place. -/
private theorem start_append {suffix : String} {here : Place} {names : List String}
    {found : Place × List String} (h : t.start path = .ok (here, names))
    (ha : t.start (path ++ suffix) = .ok found) :
    ∃ cs, (path.toList = '/' :: cs ∨ path.toList = cs ∧ cs ≠ []) ∧
      names = (Path.split cs).map String.ofList ∧
      found = (here, (Path.split (cs ++ suffix.toList)).map String.ofList) := by
  unfold start at h ha
  split at h
  next => cases h
  split at h
  next => cases h
  split at ha
  next => cases ha
  split at ha
  next => cases ha
  rw [String.toList_append] at ha
  cases hpath : path.toList with
  | nil =>
    rw [hpath] at h
    cases h
  | cons c cs =>
    rw [hpath] at h ha
    by_cases hc : c = '/'
    · subst hc
      cases h
      cases ha
      exact ⟨cs, .inl rfl, rfl, rfl⟩
    · refine ⟨c :: cs, .inr ⟨rfl, List.cons_ne_nil _ _⟩, ?_⟩
      split at h
      next hnil => cases hnil
      next hslash => exact absurd (List.cons.inj hslash).1 hc
      next =>
        cases h
        split at ha
        next hnil => cases hnil
        next hslash => exact absurd (List.cons.inj hslash).1 hc
        next =>
          cases ha
          exact ⟨rfl, rfl⟩

/-- A path in a directory goes where that of the directory goes and then on to the name. -/
theorem start_join {directory name : String} {here : Place} {names : List String}
    {found : Place × List String} (hname : Path.IsName name) (h : t.start directory = .ok (here, names))
    (hj : t.start (Path.join directory name) = .ok found) :
    ∃ front, (names = front ∨ names = front ++ [""]) ∧ found = (here, front ++ [name]) := by
  have hsplit : (Path.split name.toList).map String.ofList = [name] := by
    rw [Path.split_of_notMem hname.whole, List.map_singleton, String.ofList_toList]
  unfold Path.join at hj
  split at hj
  next hslash =>
    obtain ⟨cs, hcs, hnames, hfound⟩ := start_append h hj
    rw [String.endsWith_eq_endsWith_toSlice, String.Slice.endsWith_string_iff,
      String.copy_toSlice] at hslash
    obtain ⟨front, hfront⟩ := hslash
    by_cases hnil : cs = []
    · refine ⟨[], .inr ?_, ?_⟩
      · rw [hnames, hnil]
        rfl
      · rw [hfound, hnil, List.nil_append, hsplit, List.nil_append]
    · obtain ⟨front, rfl⟩ : ∃ front, cs = front ++ ['/'] := by
        rcases hcs with hcs | ⟨hcs, -⟩
        · cases front with
          | nil =>
            rw [hcs] at hfront
            exact absurd (List.cons.inj hfront).2.symm hnil
          | cons c front =>
            rw [hcs] at hfront
            exact ⟨front, (List.cons.inj hfront).2.symm⟩
        · exact ⟨front, hcs.symm.trans hfront.symm⟩
      refine ⟨(Path.split front).map String.ofList, .inr ?_, ?_⟩
      · rw [hnames, Path.split_append_slash, List.map_append]
        rfl
      · rw [hfound, List.append_assoc, List.singleton_append, Path.split_append_slash, List.map_append,
          hsplit]
  next =>
    rw [String.append_assoc] at hj
    obtain ⟨cs, hcs, hnames, hfound⟩ := start_append h hj
    refine ⟨names, .inl rfl, ?_⟩
    rw [hfound, hnames, String.toList_append]
    show (here, (Path.split (cs ++ '/' :: name.toList)).map String.ofList) = _
    rw [Path.split_append_slash, List.map_append, hsplit]

theorem walk_append {here : Place} (front back : List String) :
    t.walk here (front ++ back) = (t.walk here front).bind fun d => t.walk d back := by
  induction front generalizing here with
  | nil => rfl
  | cons name front ih =>
    rw [List.cons_append, walk, walk]
    split
    next => rfl
    next =>
      cases step here name with
      | error e => rfl
      | ok next => exact ih
    next => rfl

theorem step_of_walk {d : Place} {name : String} (h : t.walk d [name] = .ok q) :
    step d name = .ok q := by
  rw [walk] at h
  split at h
  next => cases h
  next =>
    cases hs : step d name with
    | error e => rw [hs] at h; cases h
    | ok next =>
      rw [hs] at h
      exact h
  next => cases h

private theorem step_name {d : Place} {name : String} (hname : Path.IsName name)
    (h : step d name = .ok q) :
    q = d ++ [name] := by
  rw [step, if_neg (not_or.mpr ⟨hname.nonempty, hname.notHere⟩), if_neg hname.notAbove] at h
  split at h
  next => cases h
  next => exact (Except.ok.inj h).symm

/-- What is in a directory is found by the path of the directory and its name. -/
theorem place_join {directory name : String} {d : Place} (hname : Path.IsName name)
    (h : t.place directory = .ok d) (hj : t.place (Path.join directory name) = .ok q) :
    q = d ++ [name] := by
  obtain ⟨here, names, hs, hw⟩ := place_eq_ok.mp h
  obtain ⟨here', names', hs', hw'⟩ := place_eq_ok.mp hj
  obtain ⟨front, hfront, hfound⟩ := start_join hname hs hs'
  cases hfound
  rw [walk_append] at hw'
  cases hd : t.walk here front with
  | error e =>
    rw [hd] at hw'
    cases hw'
  | ok d' =>
    rw [hd] at hw'
    have hsame : d' = d := by
      rcases hfront with rfl | rfl
      · rw [hd] at hw
        exact Except.ok.inj hw
      · rw [walk_append, hd] at hw
        exact Except.ok.inj (step_of_walk hw)
    exact hsame ▸ step_name hname (step_of_walk hw')

/-- Whether a name is that of a place in a directory. -/
theorem childName_eq_some {d : Place} {name : String} : childName d p = some name ↔ p = d ++ [name] := by
  rw [childName]
  constructor
  · intro h
    split at h
    next hd =>
      obtain ⟨front, rfl⟩ := List.getLast?_eq_some_iff.mp h
      rw [← hd, List.dropLast_concat]
    next => cases h
  · rintro rfl
    rw [List.dropLast_concat, if_pos rfl, List.getLast?_concat]

theorem names_of_place {d : Place} (h : t.place path = .ok d) :
    t.names path = t.nodes.filterMap fun e => childName d e.1 := by
  rw [names, h]

/-- Among the names in a directory only that of a new file is new. -/
theorem filter_names_put (hp : t.node? p ≠ some .directory) (hn : n ≠ .directory) {d : Place}
    (hd : t.place path = .ok d) {keep : String → Bool} (h : ∀ name, p = d ++ [name] → keep name = false) :
    ((t.put p n).names path).filter keep = (t.names path).filter keep := by
  have hother : ∀ e : Place × Node, e.1 = p → (childName d e.1).filter keep = none := by
    rintro e rfl
    rw [Option.filter_eq_none_iff]
    intro name hname
    rw [h name (childName_eq_some.mp hname)]
    exact Bool.false_ne_true
  rw [names_of_place hd, names_of_place ((place_put hp hn).mpr hd), List.filter_filterMap,
    List.filter_filterMap]
  show List.filterMap _ ((p, n) :: t.nodes.filter (·.1 ≠ p)) = _
  rw [List.filterMap_cons, hother (p, n) rfl, List.filterMap_filter]
  refine congrFun (congrArg List.filterMap (funext fun e => ?_)) _
  by_cases he : e.1 = p
  · rw [hother e he]
    simp
  · simp [he]

/-- A file at a place takes what is written to a path, or is created there for it. -/
structure Receives (t : FileTree) (path : String) (p : Place) : Prop where
  target : t.target path = .ok p
  notDirectory : t.node? p ≠ some .directory
  notSink : t.node? p ≠ some .sink

theorem Receives.write (h : t.Receives path p) (text : String) :
    t.write path text = .ok (t.put p (.file (some text))) := by
  simp only [FileTree.write, h.target, bind, Except.bind]
  split
  next hd => exact absurd hd h.notDirectory
  next hs => exact absurd hs h.notSink
  next => rfl
  next => rfl

/-- Where a file was written it can be written again. -/
theorem Receives.put (h : t.Receives path p) (content : Option String) :
    (t.put p (.file content)).Receives path p := by
  have hnode : (t.put p (.file content)).node? p = some (.file content) :=
    node?_put_self h.notDirectory
  refine ⟨(target_put h.notDirectory (Node.file_ne_directory _)).mpr h.target, ?_, ?_⟩ <;>
    rw [hnode] <;> nofun

/-- What becomes of writing to a path does not depend on the text. -/
theorem write_cases (t : FileTree) (path : String) :
    (∃ e, ∀ text, t.write path text = .error e) ∨ (∃ p, t.place path = .ok p ∧ t.node? p = some .sink
      ∧ ∀ text, t.write path text = .ok t) ∨ ∃ p, t.Receives path p := by
  cases ht : t.target path with
  | error e => exact .inl ⟨e, fun text => by rw [write, ht]; rfl⟩
  | ok p =>
    by_cases hd : t.node? p = some .directory
    · exact .inl ⟨.isDirectory, fun text => by simp only [write, ht, bind, Except.bind, hd]⟩
    by_cases hs : t.node? p = some .sink
    · refine .inr (.inl ⟨p, place_of_target ht, hs, fun text => ?_⟩)
      simp only [write, ht, bind, Except.bind, hs]
    · exact .inr (.inr ⟨p, ht, hd, hs⟩)

end FileTree
end Compliance
