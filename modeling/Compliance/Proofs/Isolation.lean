import Compliance.Proofs.Gathering
import Compliance.Run.Perform

/-! Runs over files of which some are bad. What such a run leaves behind is what it would leave with the
bad files taken away, but for its counters and its exit code, and the results file is all that it
changes. -/
namespace Compliance

namespace FileTree

/-- What writing a text does to a tree: it becomes the content of the one file that the path leads
to, unless it leads to a device, which takes it. -/
inductive Writes (path text : String) (t : FileTree) : FileTree → Prop where
  | taken {p : Place} (at_place : t.place path = .ok p) (device : t.node? p = some .sink) :
      Writes path text t t
  | stored {t' : FileTree} {p : Place} (at_place : t.place path = .ok p)
      (content : t'.node? p = some (.file (some text))) (reads : t'.read path = .ok text)
      (others : ∀ q, q ≠ p → t'.node? q = t.node? q) (workdir : t'.workdir = t.workdir) :
      Writes path text t t'

private theorem writes_of_write {t t' : FileTree} {path text : String}
    (h : t.write path text = .ok t') :
    Writes path text t t' := by
  obtain ⟨e, he⟩ | ⟨p, hplace, hsink, hw⟩ | ⟨p, hp⟩ := write_cases t path
  · rw [he] at h
    cases h
  · rw [hw] at h
    cases h
    exact .taken hplace hsink
  · rw [hp.write] at h
    cases h
    have hplace := place_of_target hp.target
    have hcontent : (t.put p (.file (some text))).node? p = some (.file (some text)) :=
      node?_put_self hp.notDirectory
    have hothers : ∀ q, q ≠ p → (t.put p (.file (some text))).node? q = t.node? q := fun q hq => by
      rw [node?_put (ne_root hp.notDirectory), if_neg hq]
    refine .stored hplace hcontent ?_ hothers rfl
    rw [read, look_of_place ((place_put hp.notDirectory (Node.file_ne_directory _)).mpr hplace),
      hcontent]
    rfl

private theorem write_run (t : FileTree) (path text : String) :
    (FileStore.write path text : InTree _).run t =
      match t.write path text with
      | .ok t' => (.ok (), t')
      | .error e => (.error e, t) := by
  show (match t.write path text with
    | .ok t' => (do set t'; return .ok () : InTree (Except FileError Unit))
    | .error e => return .error e) t = _
  cases t.write path text <;> rfl

end FileTree

namespace Transcript

/-- What is printed about some attempts before any results are saved. -/
def body (o : Options) (s : Settings) (as : List Attempt) (stamp : RunStamp) : List String :=
  head as.length ++ (as.zipIdx 1).map (fun a => a.1.progress a.2 as.length)
    ++ (Console.resultLines s.systems (Gathered.ofAttempts as).entries
      ++ execution o (Gathered.ofAttempts as).counts stamp)

end Transcript

namespace Run
open Session (run_bind run_lift run_log run_unless)
open Transcript (extend_extend)

variable (t : FileTree) (o : Options) (s : Settings)

def outputPath (requested : String) : String :=
  if t.kind requested = some .directory then Path.join requested o.format.fileName else requested

/-- What a run over some reports leaves behind: its result, and the file tree. -/
inductive Leaves (stamp : Results.Stamp) (entries : List Entry) (code : Nat) :
    Except RunError Nat → FileTree → Prop where
  | asBefore (idle : o.output = none ∨ entries = []) : Leaves stamp entries code (.ok code) t
  | written {requested text : String} {t' : FileTree} (asked : o.output = some requested)
      (built : entries ≠ [])
      (made : Results.text o.format stamp s.systems entries = .ok text)
      (writes : FileTree.Writes (outputPath t o requested) text t t') :
      Leaves stamp entries code (.ok code) t'
  | refused {requested text : String} {e : FileError} (asked : o.output = some requested)
      (built : entries ≠ [])
      (made : Results.text o.format stamp s.systems entries = .ok text)
      (fails : t.write (outputPath t o requested) text = .error e) :
      Leaves stamp entries code (.error (.unwritable (outputPath t o requested) e)) t

/-- A results file can be made of reports in either format. -/
theorem exists_text (format : Results.Format) (stamp : Results.Stamp) (systems : List LinkSystem)
    {entries : List Entry} (h : entries ≠ []) :
    ∃ text, Results.text format stamp systems entries = .ok text := by
  cases format with
  | summary => exact ⟨_, rfl⟩
  | full => exact ⟨_, if_neg h⟩

private theorem save_run (requested text : String) :
    (save requested o.format (.ok text) : InTree _).run t =
      match t.write (outputPath t o requested) text with
      | .ok t' => (.ok (outputPath t o requested), t')
      | .error e => (.error (.unwritable (outputPath t o requested) e), t) := by
  have hwrite := FileTree.write_run t (outputPath t o requested) text
  rw [save, InTree.run_bind (InTree.kind_run t requested)]
  show ((FileStore.write (outputPath t o requested) text : InTree _) >>= _).run t = _
  cases h : t.write (outputPath t o requested) text with
  | ok t' =>
    rw [h] at hwrite
    rw [InTree.run_bind hwrite]
    rfl
  | error e =>
    rw [h] at hwrite
    rw [InTree.run_bind hwrite]
    rfl

theorem saveResults_idle (stamp : Results.Stamp) {entries : List Entry}
    (h : o.output = none ∨ entries = []) :
    (saveResults o s entries stamp : InTree _).run t = (.ok none, t) := by
  unfold saveResults
  rcases h with h | rfl
  · rw [h]
    rfl
  · cases o.output <;> rfl

theorem saveResults_run (stamp : Results.Stamp) {entries : List Entry} {requested text : String}
    (asked : o.output = some requested) (built : entries ≠ [])
    (made : Results.text o.format stamp s.systems entries = .ok text) :
    (saveResults o s entries stamp : InTree _).run t =
      match t.write (outputPath t o requested) text with
      | .ok t' => (.ok (some (outputPath t o requested)), t')
      | .error e => (.error (.unwritable (outputPath t o requested) e), t) := by
  obtain ⟨first, others, rfl⟩ := List.exists_cons_of_ne_nil built
  have hrun : (saveResults o s (first :: others) stamp : InTree _).run t =
      (((save requested o.format (.ok text) : InTree _).run t).1.map some,
        ((save requested o.format (.ok text) : InTree _).run t).2) := by
    unfold saveResults
    rw [asked, ← made]
    rfl
  rw [hrun, save_run]
  cases t.write (outputPath t o requested) text <;> rfl

private theorem leaves_saveResults (stamp : Results.Stamp) (entries : List Entry) (code : Nat) :
    Leaves t o s stamp entries code
      (((saveResults o s entries stamp : InTree _).run t).1.map fun _ => code)
      ((saveResults o s entries stamp : InTree _).run t).2 := by
  by_cases hidle : o.output = none ∨ entries = []
  · rw [saveResults_idle t o s stamp hidle]
    exact .asBefore hidle
  obtain ⟨hasked, hbuilt⟩ := not_or.mp hidle
  obtain ⟨requested, asked⟩ := Option.ne_none_iff_exists'.mp hasked
  obtain ⟨text, hmade⟩ := exists_text o.format stamp s.systems hbuilt
  rw [saveResults_run t o s stamp asked hbuilt hmade]
  cases hw : t.write (outputPath t o requested) text with
  | ok t' => exact .written asked hbuilt hmade (FileTree.writes_of_write hw)
  | error e => exact .refused asked hbuilt hmade hw

variable (paths : List String)

/-- How a run ends, as its results were saved, were not to be saved, or could not be. -/
def ending (stamp : RunStamp) (as : List Attempt) (r : Transcript) :
    Except RunError (Option String) → Except RunError Nat × Transcript
  | .error e => (.error e, r.extend o (Transcript.body o s as stamp)
      (.runStarted as.length :: as.flatMap Attempt.events))
  | .ok saved =>
    let counts := (Gathered.ofAttempts as).counts
    (.ok counts.exitCode, r.extend o
      (Transcript.body o s as stamp ++ (saved.map Transcript.saved).getD [])
      (.runStarted as.length :: as.flatMap Attempt.events
        ++ [.runCompleted counts.total counts.aggregated counts.failed stamp.milliseconds]))

/-- A run changes what saving its results changes, and ends as that ends. -/
theorem report_run (stamp : RunStamp) (r : Transcript) :
    ((report (pure stamp) o ⟨s, paths⟩ : Session InTree _).run r).run t =
      let as := attempts t s paths
      let saved :=
        (saveResults o s (Gathered.ofAttempts as).entries stamp.file : InTree _).run t
      (ending o s stamp as r saved.1, saved.2) := by
  have hlength : paths.length = (attempts t s paths).length := (List.length_map _).symm
  have hstamp : (pure stamp : InTree RunStamp).run t = (stamp, t) := rfl
  rw [report, run_bind (run_log o _ r t)]
  dsimp only
  rw [run_unless, run_bind (gather_run t o s paths _), run_bind (run_lift hstamp _), run_unless]
  cases h : (saveResults o s (Gathered.ofAttempts (attempts t s paths)).entries stamp.file
      : InTree _).run t with
  | mk saved t' =>
    rw [run_bind (run_lift h _), hlength]
    cases saved with
    | error e =>
      simp only [extend_extend, List.nil_append, List.append_nil]
      rfl
    | ok saved =>
      cases saved with
      | none =>
        dsimp only
        rw [run_bind (run_log o _ _ t'), ending]
        simp only [extend_extend, List.nil_append, Option.map_none, Option.getD_none,
          List.append_nil]
        rfl
      | some path =>
        dsimp only
        rw [run_unless, run_bind (run_log o _ _ t')]
        simp only [extend_extend, List.nil_append, List.append_nil]
        rfl

theorem ending_result (stamp : RunStamp) (as : List Attempt) (r : Transcript)
    (saved : Except RunError (Option String)) : (ending o s stamp as r saved).1
      = saved.map fun _ => (Gathered.ofAttempts as).counts.exitCode := by
  cases saved <;> rfl

private theorem ending_getLast? {stamp : RunStamp} {as : List Attempt} {r : Transcript}
    {saved : Except RunError (Option String)} {code : Nat}
    (h : (ending o s stamp as r saved).1 = .ok code) :
    (ending o s stamp as r saved).2.events.getLast? =
      let counts := (Gathered.ofAttempts as).counts
      some (.runCompleted counts.total counts.aggregated counts.failed stamp.milliseconds) := by
  cases saved with
  | error e => cases h
  | ok path =>
    rw [ending, Transcript.extend, ← List.append_assoc]
    exact List.getLast?_concat

/-- A bad file is counted and changes nothing else: the reports are those of the files that can be
built by themselves, in their order, and the results file of just these is all that is written. -/
theorem report_isolated (stamp : RunStamp) (r : Transcript) :
    let gathered := ((gather o s paths : Session InTree _).run r).run t
    let entries := gathered.1.1.entries
    let counts := gathered.1.1.counts
    let left := ((report (pure stamp) o ⟨s, paths⟩ : Session InTree _).run r).run t
    gathered.2 = t ∧
    entries = paths.filterMap (alone t s) ∧
    (counts.total = paths.length ∧ counts.aggregated = entries.length ∧
      counts.aggregated + counts.failed = counts.total) ∧
    counts.exitCode = (if ∀ p ∈ paths, (alone t s p).isSome then 0 else 2) ∧
    Leaves t o s stamp.file entries counts.exitCode left.1.1 left.2 ∧
    ∀ code, left.1.1 = .ok code → left.1.2.events.getLast?
      = some (.runCompleted paths.length entries.length counts.failed stamp.milliseconds) := by
  intro gathered entries counts left
  have hgathered : gathered = _ := gather_run t o s paths r
  have hleft : left = _ := report_run t o s paths stamp r
  have hlength : (attempts t s paths).length = paths.length := List.length_map _
  have hmade : gathered.1.1 = .ofAttempts (attempts t s paths) := by rw [hgathered]
  have hentries : entries = (Gathered.ofAttempts (attempts t s paths)).entries :=
    congrArg Gathered.entries hmade
  have hcounts : counts = (Gathered.ofAttempts (attempts t s paths)).counts :=
    congrArg Gathered.counts hmade
  refine ⟨by rw [hgathered], ?_, ⟨?_, ?_, ?_⟩, ?_, ?_, ?_⟩
  · rw [hentries, entries_attempts]
  · rw [hcounts, ← hlength]
    rfl
  · rw [hcounts, hentries]
    rfl
  · rw [hcounts, aggregated_add_failed]
    rfl
  · rw [hcounts, exitCode_attempts]
  · rw [hleft, ending_result, hcounts, hentries]
    exact leaves_saveResults t o s stamp.file _ _
  · rw [hleft, hcounts, hentries, ← hlength]
    exact fun code => ending_getLast? o s

end Run
end Compliance
