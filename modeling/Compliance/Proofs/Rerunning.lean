import Compliance.Proofs.Running

/-! Running again on what a run left. A results file that is kept apart from what runs read is not
noticed by the next one, which finds the same job and writes the same file again. -/
namespace Compliance

/-- What is taken for a summary ends in its extension. -/
theorem SummaryFiles.suffix_of_isSummaryName {name : String} (h : isSummaryName name = true) :
    ".json".toList <:+ name.toList := by
  obtain ⟨htake, hdrop⟩ := of_decide_eq_true h
  have hname : name.toList.reverse.takeWhile (· ≠ '.') ++ name.toList.reverse.dropWhile (· ≠ '.')
      = name.toList.reverse := List.takeWhile_append_dropWhile
  have hdot := List.head?_dropWhile_not (fun c : Char => decide (c ≠ '.')) name.toList.reverse
  cases hrest : name.toList.reverse.dropWhile (· ≠ '.') with
  | nil =>
    rw [hrest] at hdrop
    exact absurd rfl hdrop
  | cons c rest =>
    rw [hrest] at hdot hname
    obtain rfl : c = '.' := Decidable.not_not.mp (of_decide_eq_false hdot)
    rw [htake] at hname
    refine ⟨rest.reverse, ?_⟩
    rw [← List.reverse_reverse name.toList, ← hname, List.reverse_append, List.reverse_cons,
      List.reverse_reverse, List.append_assoc]
    rfl

namespace FileTree
variable {t : FileTree} {o : Options} {p : Place} {n : Node} {written path : String}

/-- Whether all names in a tree can be names. -/
def WellNamed (t : FileTree) : Prop := ∀ e ∈ t.nodes, ∀ name ∈ e.1, Path.IsName name

instance (t : FileTree) : Decidable t.WellNamed :=
  inferInstanceAs (Decidable (∀ e ∈ t.nodes, ∀ name ∈ e.1, Path.IsName name))

/-- Whether a path leads to a file at a place. -/
def LeadsToFile (t : FileTree) (path : String) (p : Place) : Prop :=
  t.kind path = some .file ∧ t.place path = .ok p

/-- A place that is apart from what a run reads: neither is it that of the input file or the settings
file, nor could something there be taken for a summary in the input directory. -/
structure Apart (t : FileTree) (o : Options) (p : Place) : Prop where
  input : ¬ t.LeadsToFile o.input p
  settings : ∀ path, o.settings = some path → ¬ t.LeadsToFile path p
  siblings : ∀ directory name, t.kind o.input = some .directory → t.place o.input = .ok directory →
    p = directory ++ [name] → ¬ ".json".toList <:+ name.toList

private theorem job_eq_ok {j : Job} : t.job o = .ok j ↔ (t.kind o.input).isSome ∧ ∃ s paths,
    t.settings o = .ok s ∧ t.summaryFiles o.input = some paths ∧ j = ⟨s, paths⟩ := by
  unfold job
  cases t.kind o.input with
  | none => simp
  | some k =>
    cases t.settings o with
    | error f => simp
    | ok s =>
      cases t.summaryFiles o.input with
      | none => simp
      | some paths => simp [eq_comm]

/-- What is seen by a path is the same after a file was written somewhere else. -/
theorem Receives.look_put (h : t.Receives written p) (hn : n ≠ .directory) {m : Node}
    (hm : t.look path = .ok m) (hfile : ¬ t.LeadsToFile path p) :
    (t.put p n).look path = t.look path := by
  obtain ⟨q, hq, hnode⟩ := place_of_look hm
  refine FileTree.look_put h.notDirectory hn hq ?_
  rintro rfl
  cases m with
  | file content => exact hfile ⟨kind_eq_some.mpr ⟨q, _, hq, hnode, rfl⟩, hq⟩
  | directory => exact h.notDirectory hnode
  | sink => exact h.notSink hnode

private theorem Receives.read_put (h : t.Receives written p) (hn : n ≠ .directory) {text : String}
    (htext : t.read path = .ok text) (hfile : ¬ t.LeadsToFile path p) :
    (t.put p n).read path = .ok text := by
  cases hm : t.look path with
  | error e =>
    rw [read, hm] at htext
    cases htext
  | ok m => rw [read_congr (h.look_put hn hm hfile), htext]

private theorem Receives.kind_put (h : t.Receives written p) (hn : n ≠ .directory) {k : FileKind}
    (hk : t.kind path = some k) (hfile : ¬ t.LeadsToFile path p) :
    (t.put p n).kind path = some k := by
  obtain ⟨m, hm⟩ := look_of_kind hk
  rw [kind, h.look_put hn hm hfile, ← kind, hk]

private theorem settings_put (h : t.Receives written p) (hn : n ≠ .directory) (apart : t.Apart o p)
    {s : Settings} (hs : t.settings o = .ok s) : (t.put p n).settings o = .ok s := by
  unfold settings at hs ⊢
  cases ho : o.settings with
  | none =>
    rw [ho] at hs
    exact hs
  | some path =>
    rw [ho] at hs
    dsimp only at hs ⊢
    cases htext : t.read path with
    | error e =>
      rw [htext] at hs
      cases hs
    | ok text => rw [h.read_put hn htext (apart.settings path ho), ← htext, hs]

/-- The files in the input directory that a run looks at are not at that place. -/
private theorem place_candidate_ne (named : t.WellNamed) (apart : t.Apart o p)
    (hdir : t.kind o.input = some .directory) {name : String}
    (hname : name ∈ SummaryFiles.candidates (t.names o.input)) :
    t.place (Path.join o.input name) ≠ .ok p := by
  intro hp
  rw [SummaryFiles.candidates, List.mem_mergeSort, List.mem_filter] at hname
  obtain ⟨hmem, hsummary⟩ := hname
  obtain ⟨d, _, hd, _, _⟩ := kind_eq_some.mp hdir
  rw [names_of_place hd, List.mem_filterMap] at hmem
  obtain ⟨e, he, hchild⟩ := hmem
  have hisName : Path.IsName name := by
    refine named e he name ?_
    rw [childName_eq_some.mp hchild]
    exact List.mem_append_right _ List.mem_cons_self
  exact apart.siblings d name hdir hd (place_join hisName hd hp)
    (SummaryFiles.suffix_of_isSummaryName hsummary)

private theorem candidates_put (h : t.Receives written p) (hn : n ≠ .directory)
    (apart : t.Apart o p) (hdir : t.kind o.input = some .directory) :
    SummaryFiles.candidates ((t.put p n).names o.input)
      = SummaryFiles.candidates (t.names o.input) := by
  obtain ⟨d, _, hd, _, _⟩ := kind_eq_some.mp hdir
  rw [SummaryFiles.candidates, SummaryFiles.candidates, filter_names_put h.notDirectory hn hd]
  intro name hp
  rw [← Bool.not_eq_true]
  exact fun hs => apart.siblings d name hdir hd hp (SummaryFiles.suffix_of_isSummaryName hs)

/-- The same summary files are found again, with the same in them. -/
private theorem summaryFiles_put (h : t.Receives written p) (hn : n ≠ .directory)
    (named : t.WellNamed)
    (apart : t.Apart o p) {paths : List String} (hpaths : t.summaryFiles o.input = some paths) :
    (t.put p n).summaryFiles o.input = some paths ∧
      ∀ path ∈ paths, (t.put p n).look path = t.look path := by
  cases hk : t.kind o.input with
  | none =>
    rw [summaryFiles, hk] at hpaths
    cases hpaths
  | some k =>
    rw [summaryFiles, hk] at hpaths
    rw [summaryFiles, h.kind_put hn hk apart.input]
    cases k with
    | special => cases hpaths
    | file =>
      cases hpaths
      obtain ⟨m, hm⟩ := look_of_kind hk
      exact ⟨rfl, List.forall_mem_singleton.mpr (h.look_put hn hm apart.input)⟩
    | directory =>
      cases hpaths
      refine ⟨?_, ?_⟩
      · dsimp only
        rw [candidates_put h hn apart hk]
        refine congrArg some (List.filter_congr fun path hpath => ?_)
        obtain ⟨name, hname, rfl⟩ := List.mem_map.mp hpath
        rw [FileTree.kind_put h.notDirectory hn (place_candidate_ne named apart hk hname)]
      · intro path hpath
        obtain ⟨hcandidate, hfile⟩ := List.mem_filter.mp hpath
        obtain ⟨name, hname, rfl⟩ := List.mem_map.mp hcandidate
        obtain ⟨m, hm⟩ := look_of_kind (of_decide_eq_true hfile)
        exact h.look_put hn hm fun hp => place_candidate_ne named apart hk hname hp.2

/-- A run finds the same job again, and the same in its files. -/
private theorem job_put (h : t.Receives written p) (hn : n ≠ .directory) (named : t.WellNamed)
    (apart : t.Apart o p) {j : Job} (hj : t.job o = .ok j) :
    (t.put p n).job o = .ok j ∧ (t.put p n).attempts j = t.attempts j := by
  obtain ⟨hsome, s, paths, hs, hpaths, rfl⟩ := job_eq_ok.mp hj
  obtain ⟨hpaths', hlooks⟩ := summaryFiles_put h hn named apart hpaths
  refine ⟨job_eq_ok.mpr ⟨?_, s, paths, settings_put h hn apart hs, hpaths', rfl⟩, ?_⟩
  · obtain ⟨k, hk⟩ := Option.isSome_iff_exists.mp hsome
    rw [h.kind_put hn hk apart.input]
    rfl
  · refine List.map_congr_left fun path hpath => ?_
    rw [read_congr (hlooks path hpath)]

end FileTree

namespace Run
variable {t : FileTree} {o : Options} {s : Settings} {entries : List Entry} {requested : String}
  {p : Place} {text : Results.Stamp → String}

/-- Writing results where they go does not change where they go. -/
private theorem outputPath_put (h : t.Receives (outputPath t o requested) p)
    (content : Option String) :
    outputPath (t.put p (.file content)) o requested = outputPath t o requested := by
  have hn := Node.file_ne_directory content
  by_cases hplace : t.place requested = .ok p
  · have hput := (FileTree.place_put h.notDirectory hn).mpr hplace
    rw [outputPath, outputPath, if_neg (FileTree.kind_ne_directory hplace h.notDirectory),
      if_neg (FileTree.kind_ne_directory hput (h.put content).notDirectory)]
  · rw [outputPath, outputPath, FileTree.kind_put h.notDirectory hn hplace]

/-- Results that are saved in a file are saved there again. -/
private theorem Saves.again (h : Saves t o s entries requested p text) (content : Option String)
    (stamp : Results.Stamp) :
    (saveResults o s entries stamp : InTree _).run (t.put p (.file content)) =
      (.ok (some (outputPath t o requested)), t.put p (.file (some (text stamp)))) := by
  have hpath := outputPath_put h.receives content
  have hsaves : Saves (t.put p (.file content)) o s entries requested p text :=
    ⟨h.asked, h.built, h.made, hpath.symm ▸ h.receives.put content⟩
  rw [hsaves.run stamp, hpath, FileTree.put_put]

/-- The results of a run go to a place that is apart from what it reads. -/
def OutputApart (t : FileTree) (o : Options) : Prop :=
  ∀ requested p, o.output = some requested → t.place (outputPath t o requested) = .ok p → t.Apart o p

/-- A run can be repeated: on what the first one left, the second one ends in the same way, with the
same log and the same output but for the time that it took, and changes no more than the marks in the
results file. -/
theorem perform_again (t : FileTree) (o : Options) (stamp stamp' : RunStamp) (named : t.WellNamed)
    (apart : OutputApart t o) :
    let once := (perform (pure stamp) o : InTree Run).run t
    let again := (perform (pure stamp') o : InTree Run).run once.2
    Repeats t o once again := by
  intro once again
  obtain hidle | ⟨j, requested, p, text, hj, hempty, h⟩ := perform_cases t o
  · have hleft : once.2 = t := (hidle stamp).1
    rw [show again = (perform (pure stamp') o : InTree Run).run once.2 from rfl, hleft]
    exact (hidle stamp).2 stamp'
  · -- The second run finds the same job, although there is a file that may not have been there.
    obtain ⟨hjob, hattempts⟩ := FileTree.job_put h.receives
      (Node.file_ne_directory (some (text stamp.file))) named
      (apart requested p h.asked (FileTree.place_of_target h.receives.target)) hj
    have honce : once = _ := perform_run stamp hj hempty (h.run stamp.file)
    have hagain := perform_run stamp' hjob hempty (hattempts ▸ h.again _ stamp'.file)
    rw [show again = (perform (pure stamp') o : InTree Run).run once.2 from rfl, honce, hagain,
      hattempts]
    exact h.repeats stamp stamp' _

def scans : FileTree :=
  ⟨[(["scans"], .directory), (["scans", "a.json"], .file (some
    "\x7b\x22benchmark\x22: \x7b\x7d, \x22rules\x22: [], \x22targets\x22: []\x7d"))], []⟩

/-- Asks for results in the directory itself, under a name that no summary has. -/
def besideScans : Options := ⟨"scans", some "scans/results.txt", .full, none, false, false, false⟩

theorem perform_again_besideScans :
    let first : RunStamp := ⟨⟨"id-1", "today"⟩, "0.01", "10"⟩
    let second : RunStamp := ⟨⟨"id-2", "tomorrow"⟩, "0.02", "20"⟩
    let once := (perform (pure first) besideScans : InTree Run).run scans
    scans.WellNamed ∧ OutputApart scans besideScans ∧ once.1.result.toOption = some 0 ∧
      scans.node? ["scans", "results.txt"] = none ∧
      (once.2.node? ["scans", "results.txt"]).isSome ∧
      Repeats scans besideScans once ((perform (pure second) besideScans : InTree Run).run once.2) := by
  have named : scans.WellNamed := by decide
  have hinput : scans.place "scans" = .ok ["scans"] := rfl
  have houtput : scans.place (outputPath scans besideScans "scans/results.txt")
      = .ok ["scans", "results.txt"] := rfl
  have apart : OutputApart scans besideScans := by
    intro requested p asked hp
    cases asked
    cases houtput.symm.trans hp
    refine ⟨fun h => ?_, nofun, fun directory name _ hd hp => ?_⟩
    · cases hinput.symm.trans h.2
    · cases hinput.symm.trans hd
      cases hp
      decide
  exact ⟨named, apart, by decide +kernel, rfl, by decide +kernel,
    perform_again scans besideScans _ _ named apart⟩

end Run
end Compliance
