import Compliance.Proofs.PathOrder
import Compliance.Proofs.Rerunning
import Mathlib.Data.List.Sort

/-! Looking for summary files. What is found in a directory is fixed by what is in it: the order in
which the entries are presented makes no difference. -/
namespace Compliance

namespace SummaryFiles

/-- A name is that of a summary exactly when it ends in the extension and has something in front of it. -/
private theorem isSummaryName_iff {name : String} :
    isSummaryName name = true ↔ ".json".toList <:+ name.toList ∧ name ≠ ".json" := by
  constructor
  · intro h
    refine ⟨suffix_of_isSummaryName h, ?_⟩
    rintro rfl
    revert h
    decide
  · rintro ⟨⟨stem, hstem⟩, hne⟩
    have hnotNil : stem.reverse ≠ [] := by
      intro hnil
      rw [List.reverse_eq_nil_iff.mp hnil, List.nil_append] at hstem
      exact hne (String.toList_inj.mp hstem.symm)
    have hreverse : name.toList.reverse = ['n', 'o', 's', 'j'] ++ '.' :: stem.reverse := by
      rw [← hstem, List.reverse_append]
      rfl
    have hbefore : ∀ c ∈ ['n', 'o', 's', 'j'], decide (c ≠ '.') = true := by simp
    unfold isSummaryName Path.hasExtension
    rw [hreverse, decide_eq_true_eq, List.takeWhile_append_of_pos hbefore,
      List.dropWhile_append_of_pos hbefore, List.takeWhile_cons_of_neg (by decide),
      List.dropWhile_cons_of_neg (by decide)]
    exact ⟨rfl, hnotNil⟩

private theorem pairwise_le_candidates (names : List String) :
    (candidates names).Pairwise (· ≤ ·) := by
  have hsorted : (candidates names).Pairwise fun a b => decide (a ≤ b) = true :=
    List.pairwise_mergeSort (fun a b c => by simpa using le_trans)
      (fun a b => by simpa using le_total a b) _
  exact hsorted.imp of_decide_eq_true

private theorem pairwise_candidates {names : List String} (h : names.Nodup) :
    (candidates names).Pairwise (· < ·) := by
  have hnodup : (candidates names).Nodup := (List.mergeSort_perm _ _).nodup_iff.mpr (h.filter _)
  exact (pairwise_le_candidates names).imp₂ (fun _ _ => lt_of_le_of_ne) hnodup

/-- There is only one way to put the names of summaries in order. -/
private theorem candidates_eq {names sorted : List String} (h : sorted.Pairwise (· ≤ ·))
    (hp : (names.filter isSummaryName).Perm sorted) : candidates names = sorted :=
  ((List.mergeSort_perm _ _).trans hp).eq_of_pairwise (fun _ _ _ _ => le_antisymm)
    (pairwise_le_candidates names) h

end SummaryFiles

namespace FileTree
variable {t t' : FileTree} {path : String} {p d : Place}

/-- Whether a tree can be that of a file system: nothing stands twice at a place, and names are
names, no longer than a name may be. -/
structure Lawful (t : FileTree) : Prop where
  once : (t.nodes.map Prod.fst).Nodup
  named : t.WellNamed
  bounded : ∀ e ∈ t.nodes, ∀ name ∈ e.1, name.utf8ByteSize ≤ nameLimit ∧ '\x00' ∉ name.toList

private theorem Lawful.of_perm (h : t.Lawful) (hp : t'.nodes.Perm t.nodes) : t'.Lawful where
  once := (hp.map Prod.fst).nodup_iff.mpr h.once
  named e he := h.named e (hp.mem_iff.mp he)
  bounded e he := h.bounded e (hp.mem_iff.mp he)

private theorem lookup_eq_some_iff_mem {nodes : List (Place × Node)}
    (h : (nodes.map Prod.fst).Nodup) {n : Node} : nodes.lookup p = some n ↔ (p, n) ∈ nodes := by
  rw [List.lookup_eq_some_iff]
  constructor
  · rintro ⟨before, after, rfl, _⟩
    exact List.mem_append_right _ List.mem_cons_self
  · intro hmem
    obtain ⟨before, after, rfl⟩ := List.append_of_mem hmem
    refine ⟨before, after, rfl, fun e he => bne_iff_ne.mpr ?_⟩
    rintro rfl
    rw [List.map_append, List.map_cons, List.nodup_append] at h
    exact h.2.2 e.1 (List.mem_map_of_mem he) e.1 List.mem_cons_self rfl

private theorem Lawful.node?_eq_some (h : t.Lawful) (hp : p ≠ []) {n : Node} :
    t.node? p = some n ↔ (p, n) ∈ t.nodes := by
  rw [node?, if_neg hp, lookup_eq_some_iff_mem h.once]

/-- What is where does not depend on the order of the nodes. -/
private theorem Lawful.node?_perm (h : t.Lawful) (hp : t'.nodes.Perm t.nodes) :
    t'.node? = t.node? := by
  funext q
  by_cases hq : q = []
  · rw [hq]
    rfl
  · refine Option.ext fun n => ?_
    rw [(h.of_perm hp).node?_eq_some hq, h.node?_eq_some hq, hp.mem_iff]

private theorem walk_congr (h : t'.node? = t.node?) (here : Place) (names : List String) :
    t'.walk here names = t.walk here names := by
  induction names generalizing here with
  | nil => rfl
  | cons name names ih =>
    rw [walk, walk, h]
    split
    next => rfl
    next =>
      cases step here name with
      | error e => rfl
      | ok next => exact ih next
    next => rfl

private theorem place_congr (h : t'.node? = t.node?) (hw : t'.workdir = t.workdir) (path : String) :
    t'.place path = t.place path := by
  have hstart : t'.start path = t.start path := by rw [start, start, hw]
  have hwalk : t'.walk = t.walk := funext fun here => funext fun names => walk_congr h here names
  rw [place, place, hstart, hwalk]

/-- The names in a directory are those of the places in it. -/
private theorem Lawful.mem_names (h : t.Lawful) (hd : t.place path = .ok d) {name : String} :
    name ∈ t.names path ↔ ∃ n, t.node? (d ++ [name]) = some n := by
  simp only [names_of_place hd, List.mem_filterMap, childName_eq_some,
    h.node?_eq_some (List.append_ne_nil_of_right_ne_nil d (List.cons_ne_nil name []))]
  constructor
  · rintro ⟨⟨p, n⟩, he, rfl⟩
    exact ⟨n, he⟩
  · rintro ⟨n, he⟩
    exact ⟨_, he, rfl⟩

private theorem Lawful.nodup_names (h : t.Lawful) (path : String) : (t.names path).Nodup := by
  unfold names
  split
  next d hd =>
    have hmap : (t.nodes.filterMap fun e => childName d e.1)
        = (t.nodes.map Prod.fst).filterMap (childName d) := by rw [List.filterMap_map]; rfl
    rw [hmap]
    refine h.once.filterMap fun p q name hp hq => ?_
    rw [childName_eq_some.mp hp, childName_eq_some.mp hq]
  next => exact List.nodup_nil

private theorem Lawful.isName (h : t.Lawful) {n : Node} {name : String}
    (hn : t.node? (d ++ [name]) = some n) :
    Path.IsName name ∧ name.utf8ByteSize ≤ nameLimit ∧ '\x00' ∉ name.toList := by
  rw [h.node?_eq_some (List.append_ne_nil_of_right_ne_nil d (List.cons_ne_nil name []))] at hn
  have hname : name ∈ d ++ [name] := List.mem_append_right _ List.mem_cons_self
  exact ⟨h.named _ hn name hname, h.bounded _ hn name hname⟩

private theorem ne_empty_of_place (h : t.place path = .ok p) : path ≠ "" := by
  rintro rfl
  cases h

private theorem nul_notMem_of_start {found : Place × List String} (h : t.start path = .ok found) :
    '\x00' ∉ path.toList := by
  intro hnul
  rw [start, if_pos hnul] at h
  cases h

private theorem exists_start (hnul : '\x00' ∉ path.toList) (hsize : path.utf8ByteSize ≤ pathLimit)
    (hpath : path ≠ "") : ∃ found, t.start path = .ok found := by
  rw [start, if_neg hnul, if_neg (Nat.not_lt.mpr hsize)]
  split
  next hnil => exact absurd (String.toList_eq_nil_iff.mp hnil) hpath
  next => exact ⟨_, rfl⟩
  next => exact ⟨_, rfl⟩

private theorem step_isName {name : String} (hname : Path.IsName name)
    (h : name.utf8ByteSize ≤ nameLimit) :
    step d name = .ok (d ++ [name]) := by
  rw [step, if_neg (not_or.mpr ⟨hname.nonempty, hname.notHere⟩), if_neg hname.notAbove,
    if_neg (Nat.not_lt.mpr h)]

/-- A slash behind the path of a directory leads nowhere else. -/
private theorem walk_front {here : Place} {names front : List String}
    (h : t.walk here names = .ok d)
    (hfront : names = front ∨ names = front ++ [""]) : t.walk here front = .ok d := by
  rcases hfront with rfl | rfl
  · exact h
  · rw [walk_append] at h
    cases hd : t.walk here front with
    | error e =>
      rw [hd] at h
      cases h
    | ok d' =>
      rw [hd] at h
      exact step_of_walk h

/-- What can be in a directory is found there by its path, as long as that can be followed at all. -/
private theorem place_join_of_le {name : String} (hname : Path.IsName name)
    (hlength : name.utf8ByteSize ≤ nameLimit) (hnul : '\x00' ∉ name.toList)
    (hd : t.place path = .ok d) (hdir : t.node? d = some .directory)
    (hsize : (Path.join path name).utf8ByteSize ≤ pathLimit) :
    t.place (Path.join path name) = .ok (d ++ [name]) := by
  obtain ⟨here, names, hstart, hwalk⟩ := place_eq_ok.mp hd
  obtain ⟨text, htext, hjoin⟩ := Path.toList_join path name
  have hfree : '\x00' ∉ text := by
    intro hmem
    refine nul_notMem_of_start hstart ?_
    rcases htext with htext | htext
    · exact htext ▸ hmem
    · exact htext ▸ List.mem_append_left _ hmem
  have hnotNul : '\x00' ∉ (Path.join path name).toList := by
    rw [hjoin, List.mem_append, List.mem_cons]
    rintro (hmem | hslash | hmem)
    · exact hfree hmem
    · exact absurd hslash (by decide)
    · exact hnul hmem
  have hnotEmpty : Path.join path name ≠ "" := by
    intro hempty
    rw [hempty] at hjoin
    exact List.append_ne_nil_of_right_ne_nil _ (List.cons_ne_nil _ _) hjoin.symm
  obtain ⟨found, hfound⟩ := exists_start (t := t) hnotNul hsize hnotEmpty
  obtain ⟨front, hfront, rfl⟩ := start_join hname hstart hfound
  refine place_eq_ok.mpr ⟨here, front ++ [name], hfound, ?_⟩
  rw [walk_append, walk_front hwalk hfront]
  show t.walk d [name] = _
  rw [walk, hdir]
  show (step d name).bind _ = _
  rw [step_isName hname hlength]
  rfl

/-- Whether files are listed as a directory has them: the path of every file in it whose name is that of
a summary, once and in the order of paths, and nothing else. -/
structure Lists (t : FileTree) (path : String) (directory : Place) (files : List String) : Prop where
  exact : ∀ p, p ∈ files ↔ ∃ name content, p = Path.join path name ∧
    t.place p = .ok (directory ++ [name]) ∧ t.node? (directory ++ [name]) = some (.file content) ∧
    ".json".toList <:+ name.toList ∧ name ≠ ".json"
  once : files.Nodup
  increasing : files.Pairwise fun p q => Path.parts p < Path.parts q

/-- There is one such list at most. -/
private theorem Lists.eq {files files' : List String} (h : t.Lists path d files)
    (h' : t.Lists path d files') :
    files = files' := by
  have : Std.Irrefl fun p q : String => Path.parts p < Path.parts q := ⟨fun _ => lt_irrefl _⟩
  have : Std.Asymm fun p q : String => Path.parts p < Path.parts q := ⟨fun _ _ => lt_asymm⟩
  exact h.increasing.eq_of_mem_iff h'.increasing fun p => (h.exact p).trans (h'.exact p).symm

private theorem Lawful.lists_summaryFiles (h : t.Lawful) (hd : t.place path = .ok d)
    (hdir : t.node? d = some .directory) :
    ∃ files, t.summaryFiles path = some files ∧ t.Lists path d files := by
  have hkind : t.kind path = some .directory := kind_eq_some.mpr ⟨d, _, hd, hdir, rfl⟩
  have hfiles : t.summaryFiles path = some (((SummaryFiles.candidates (t.names path)).map
      (Path.join path)).filter fun p => t.kind p = some .file) := by
    rw [summaryFiles, hkind]
  have hcandidate : ∀ name, name ∈ SummaryFiles.candidates (t.names path) ↔
      (∃ n, t.node? (d ++ [name]) = some n) ∧ ".json".toList <:+ name.toList ∧ name ≠ ".json" := by
    intro name
    rw [SummaryFiles.candidates, List.mem_mergeSort, List.mem_filter, h.mem_names hd,
      SummaryFiles.isSummaryName_iff]
  have hsorted : ((SummaryFiles.candidates (t.names path)).map (Path.join path)).Pairwise
      fun p q => Path.parts p < Path.parts q := by
    rw [List.pairwise_map]
    refine (SummaryFiles.pairwise_candidates (h.nodup_names path)).imp_of_mem fun ha hb hlt => ?_
    obtain ⟨⟨_, hna⟩, _⟩ := (hcandidate _).mp ha
    obtain ⟨⟨_, hnb⟩, _⟩ := (hcandidate _).mp hb
    exact Path.parts_join_lt (ne_empty_of_place hd) (h.isName hna).1 (h.isName hnb).1 hlt
  refine ⟨_, hfiles, ?_, (hsorted.filter _).imp fun hlt => ?_, hsorted.filter _⟩
  · -- A candidate leads nowhere else than to its place, so it leads to a file exactly if one is there.
    intro p
    rw [List.mem_filter, List.mem_map, decide_eq_true_eq, kind_eq_some]
    constructor
    · rintro ⟨⟨name, hname, rfl⟩, q, n, hq, hn, hfile⟩
      obtain ⟨⟨m, hm⟩, hsummary⟩ := (hcandidate name).mp hname
      obtain rfl := place_join (h.isName hm).1 hd hq
      cases n with
      | file content => exact ⟨name, content, rfl, hq, hn, hsummary⟩
      | directory | sink => cases hfile
    · rintro ⟨name, content, rfl, hq, hn, hsummary⟩
      exact ⟨⟨name, (hcandidate name).mpr ⟨⟨_, hn⟩, hsummary⟩, rfl⟩, _, _, hq, hn, rfl⟩
  · rintro rfl
    exact lt_irrefl _ hlt

private theorem Lists.congr {files : List String} (h : t.Lists path d files)
    (hn : t'.node? = t.node?) (hw : t'.workdir = t.workdir) : t'.Lists path d files where
  exact p := by simp only [hn, place_congr hn hw, h.exact p]
  once := h.once
  increasing := h.increasing

/-- The same is found whatever the order in which the system presents the entries. -/
private theorem Lawful.summaryFiles_perm (h : t.Lawful) (hd : t.place path = .ok d)
    (hdir : t.node? d = some .directory) (hw : t'.workdir = t.workdir)
    (hp : t'.nodes.Perm t.nodes) : t'.summaryFiles path = t.summaryFiles path := by
  have hn := h.node?_perm hp
  obtain ⟨files, hfiles, hlists⟩ := h.lists_summaryFiles hd hdir
  obtain ⟨files', hfiles', hlists'⟩ := (h.of_perm hp).lists_summaryFiles
    ((place_congr hn hw path).trans hd) ((congrFun hn d).trans hdir)
  rw [hfiles, hfiles', hlists'.eq (hlists.congr hn hw)]

end FileTree

namespace SummaryFiles
open FileTree

/-- Discovery is exact and does not depend on the order of the entries. A path to a file stands for
itself, and one to a directory for the files in it that have the name of a summary. Such a file is only
missed if its path is longer than paths may be. -/
theorem find_exact (t : FileTree) (path : String) (lawful : t.Lawful) :
    (t.kind path = some .file → (find path : InTree _).run t = (some [path], t)) ∧
    ∀ directory, t.place path = .ok directory → t.node? directory = some .directory →
      (∃ files, (find path : InTree _).run t = (some files, t) ∧ t.Lists path directory files ∧
        ∀ t' : FileTree, t'.workdir = t.workdir → t'.nodes.Perm t.nodes →
          (find path : InTree _).run t' = (some files, t')) ∧
      ∀ name n, t.node? (directory ++ [name]) = some n →
        (Path.join path name).utf8ByteSize ≤ pathLimit →
          t.place (Path.join path name) = .ok (directory ++ [name]) := by
  refine ⟨fun hfile => ?_, fun directory hd hdir => ⟨?_, fun name n hn hsize => ?_⟩⟩
  · rw [find_run, summaryFiles, hfile]
  · obtain ⟨files, hfiles, hlists⟩ := lawful.lists_summaryFiles hd hdir
    refine ⟨files, by rw [find_run, hfiles], hlists, fun t' hw hp => ?_⟩
    rw [find_run, lawful.summaryFiles_perm hd hdir hw hp, hfiles]
  · obtain ⟨hname, hlength, hnul⟩ := lawful.isName hn
    exact place_join_of_le hname hlength hnul hd hdir hsize

/-- Names with several dots, with nothing but the extension, in capitals and of a directory, presented
in no order. -/
def scrambled : FileTree :=
  ⟨[(["scans", "b.json"], .file (some "")), (["scans", ".json"], .file (some "")),
    (["scans", "nested.json", "inner.json"], .file (some "")), (["scans"], .directory),
    (["scans", "a.tar.json"], .file none), (["scans", "A.JSON"], .file (some "")),
    (["scans", "nested.json"], .directory), (["scans", "..json"], .file (some ""))], []⟩

theorem find_exact_scrambled :
    scrambled.Lawful ∧
    (find "scans/A.JSON" : InTree _).run scrambled = (some ["scans/A.JSON"], scrambled) ∧
    scrambled.Lists "scans" ["scans"] ["scans/..json", "scans/a.tar.json", "scans/b.json"] ∧
    ∃ files, (find "scans" : InTree _).run scrambled = (some files, scrambled) ∧
      (find "scans" : InTree _).run ⟨scrambled.nodes.reverse, []⟩
        = (some files, ⟨scrambled.nodes.reverse, []⟩) ∧
      files = ["scans/..json", "scans/a.tar.json", "scans/b.json"] := by
  have lawful : scrambled.Lawful := ⟨by decide, by decide, by decide⟩
  obtain ⟨⟨files, hfind, hlists, hperm⟩, -⟩ :=
    (find_exact scrambled "scans" lawful).2 ["scans"] rfl rfl
  have hcandidates : candidates (scrambled.names "scans")
      = ["..json", "a.tar.json", "b.json", "nested.json"] := candidates_eq (by decide) (by decide)
  have hfound : scrambled.summaryFiles "scans"
      = some ["scans/..json", "scans/a.tar.json", "scans/b.json"] := by
    show some (List.filter _ (List.map _ (candidates _))) = _
    rw [hcandidates]
    decide +kernel
  have hfiles : files = ["scans/..json", "scans/a.tar.json", "scans/b.json"] := by
    rw [find_run, hfound] at hfind
    exact (Option.some.inj (Prod.mk.inj hfind).1).symm
  exact ⟨lawful, (find_exact scrambled "scans/A.JSON" lawful).1 rfl, hfiles ▸ hlists, files, hfind,
    hperm _ rfl (List.reverse_perm _), hfiles⟩

end SummaryFiles
end Compliance
