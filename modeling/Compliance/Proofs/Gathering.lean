import Compliance.Proofs.Places
import Compliance.Proofs.Stages
import Compliance.Run.Gather

/-! The loop over the summary files of a run. One file is taken by a step, and by induction all of them
are: what the loop has gathered, printed and logged in the end is that of attempts to build each file by
itself. -/
namespace Compliance

/-- A summary file, and the attempt to build its report. -/
structure Attempt where
  path : String
  built : Traced Report

namespace Attempt

def make (s : Settings) (path : String) (content : Except FileError String) : Attempt :=
  ⟨path, Report.buildFileInStages path content s⟩

def entry (a : Attempt) : Option Entry :=
  match a.built.result with
  | .ok r => some ⟨a.path, r⟩
  | .error _ => none

/-- The records of the attempt, and one about what came of it. -/
def events (a : Attempt) : List Event :=
  a.built.events ++ [match a.built.result with
    | .ok r => Event.fileAggregated a.path r.summaryLine
    | .error f => Event.fileFailed a.path f]

def progress (a : Attempt) (number total : Nat) : String :=
  match a.built.result with
  | .ok r => Console.progressLine number total ⟨a.path, r⟩
  | .error f => Console.failureLine number total a.path f

end Attempt

namespace Gathered

def add (g : Gathered) (a : Attempt) : Gathered :=
  match a.entry with
  | some e => ⟨g.entries ++ [e], { g.counts with aggregated := g.counts.aggregated + 1 }⟩
  | none => ⟨g.entries, { g.counts with failed := g.counts.failed + 1 }⟩

def ofAttempts (as : List Attempt) : Gathered where
  entries := as.filterMap Attempt.entry
  counts := ⟨as.length, (as.filterMap Attempt.entry).length, as.countP fun a => a.entry.isNone⟩

private theorem foldl_add (g : Gathered) (as : List Attempt) : as.foldl add g =
    ⟨g.entries ++ (ofAttempts as).entries, g.counts.total,
      g.counts.aggregated + (ofAttempts as).counts.aggregated,
      g.counts.failed + (ofAttempts as).counts.failed⟩ := by
  induction as generalizing g with
  | nil => rw [ofAttempts, List.filterMap_nil, List.append_nil]; rfl
  | cons a as ih =>
    rw [List.foldl_cons, ih, add]
    cases h : a.entry <;> simp [ofAttempts, h, Nat.add_assoc, Nat.add_comm 1]

/-- Counted one after the other, attempts come to the same. -/
private theorem foldl_add_start (as : List Attempt) :
    as.foldl add ⟨[], ⟨as.length, 0, 0⟩⟩ = ofAttempts as := by
  rw [foldl_add, List.nil_append, Nat.zero_add, Nat.zero_add]
  rfl

end Gathered

namespace Transcript

/-- A transcript with further records, and with further lines, of which a quiet run prints none. -/
def extend (r : Transcript) (o : Options) (lines : List String) (events : List Event) :
    Transcript :=
  ⟨r.output ++ (if o.quiet then [] else lines), r.events ++ events⟩

theorem extend_extend (r : Transcript) (o : Options) (lines lines' : List String)
    (events events' : List Event) : (r.extend o lines events).extend o lines' events'
      = r.extend o (lines ++ lines') (events ++ events') := by
  simp only [extend, List.append_assoc]
  split <;> rfl

@[simp] theorem extend_nil (r : Transcript) (o : Options) : r.extend o [] [] = r := by
  rw [extend, ite_self, List.append_nil, List.append_nil]

end Transcript

namespace Session
variable {α β : Type} {r r' : Transcript} {t t' : FileTree} {a : α}

theorem run_bind {x : Session InTree α} (h : (x.run r).run t = ((a, r'), t'))
    (f : α → Session InTree β) : ((x >>= f).run r).run t = ((f a).run r').run t' := by
  rw [StateT.run_bind, InTree.run_bind h]

theorem run_lift {x : InTree α} (h : x.run t = (a, t')) (r : Transcript) :
    ((liftM x : Session InTree α).run r).run t = ((a, r), t') := by
  show (x >>= fun a => pure (a, r) : InTree (α × Transcript)).run t = _
  rw [InTree.run_bind h]
  rfl

theorem run_log (o : Options) (events : List Event) (r : Transcript) (t : FileTree) :
    ((log events : Session InTree Unit).run r).run t = (((), r.extend o [] events), t) := by
  rw [Transcript.extend, ite_self, List.append_nil]
  rfl

/-- Whoever prints asks in this form whether the run is to be quiet. -/
theorem run_unless (o : Options) (lines : List String) (x : Session InTree α) (r : Transcript)
    (t : FileTree) :
    ((if o.quiet = true then x else print lines >>= fun _ => x).run r).run t
      = (x.run (r.extend o lines [])).run t := by
  rw [Transcript.extend, List.append_nil]
  cases o.quiet with
  | true => rw [if_pos rfl, if_pos rfl, List.append_nil]
  | false => rfl

end Session

namespace Run
open Session (run_bind run_lift run_log run_unless)
open Transcript (extend_extend)

variable (t : FileTree) (o : Options) (s : Settings)

/-- The report of a file that is built by itself, with its path. -/
def alone (path : String) : Option Entry :=
  match (Report.buildFile path (t.read path) s).result with
  | .ok r => some ⟨path, r⟩
  | .error _ => none

variable (paths : List String)

def attempts : List Attempt := paths.map fun p => .make s p (t.read p)

/-- A step of the loop counts the attempt to build a file, and says what came of it. -/
private theorem gatherFile_run (r : Transcript) (number : Nat) (path : String) (g : Gathered) :
    let a := Attempt.make s path (t.read path)
    ((gatherFile o s number path g : Session InTree _).run r).run t
      = ((g.add a, r.extend o [a.progress number g.counts.total] a.events), t) := by
  intro a
  have hbuilt : Report.buildFileInStages path (t.read path) s = a.built := rfl
  have hpath : a.path = path := rfl
  rw [gatherFile, run_bind (run_lift (InTree.read_run t path) r), hbuilt]
  dsimp only
  rw [run_bind (run_log o _ r t), Gathered.add, Attempt.entry, Attempt.progress, Attempt.events,
    hpath]
  cases a.built.result with
  | ok report =>
    dsimp only
    rw [run_bind (run_log o _ _ t), run_unless, extend_extend, extend_extend, List.append_nil]
    rfl
  | error fault =>
    dsimp only
    rw [run_unless, run_bind (run_log o _ _ t), extend_extend, extend_extend]
    rfl

/-- However many files are left, the loop is through with all of them. -/
private theorem gatherFrom_run (r : Transcript) (number : Nat) (g : Gathered) :
    ((gatherFrom o s number paths g : Session InTree _).run r).run t
      = (((attempts t s paths).foldl Gathered.add g, r.extend o
          (((attempts t s paths).zipIdx number).map fun a => a.1.progress a.2 g.counts.total)
          ((attempts t s paths).flatMap Attempt.events)), t) := by
  induction paths generalizing r number g with
  | nil => exact congrArg (fun r => ((g, r), t)) (r.extend_nil o).symm
  | cons p ps ih =>
    have htotal : (g.add (.make s p (t.read p))).counts.total = g.counts.total := by
      rw [Gathered.add]
      split <;> rfl
    rw [gatherFrom, run_bind (gatherFile_run t o s r number p g), ih, extend_extend, htotal]
    rfl

theorem gather_run (r : Transcript) : ((gather o s paths : Session InTree _).run r).run t
    = ((.ofAttempts (attempts t s paths), r.extend o
        (((attempts t s paths).zipIdx 1).map fun a => a.1.progress a.2 paths.length)
        ((attempts t s paths).flatMap Attempt.events)), t) := by
  have hlength : paths.length = (attempts t s paths).length := (List.length_map _).symm
  rw [gather, gatherFrom_run, hlength, Gathered.foldl_add_start]

private theorem entry_make (path : String) :
    (Attempt.make s path (t.read path)).entry = alone t s path := by
  rw [Attempt.entry, Attempt.make, Report.result_buildFileInStages]
  rfl

theorem entries_attempts :
    (Gathered.ofAttempts (attempts t s paths)).entries = paths.filterMap (alone t s) := by
  rw [Gathered.ofAttempts, attempts, List.filterMap_map]
  exact congrFun (congrArg List.filterMap (funext fun p => entry_make t s p)) paths

private theorem failed_attempts : (Gathered.ofAttempts (attempts t s paths)).counts.failed
    = paths.countP fun p => (alone t s p).isNone := by
  rw [Gathered.ofAttempts, attempts, List.countP_map]
  exact List.countP_congr fun p _ => by rw [Function.comp_apply, entry_make]

theorem exitCode_attempts : (Gathered.ofAttempts (attempts t s paths)).counts.exitCode =
    if ∀ p ∈ paths, (alone t s p).isSome then 0 else 2 := by
  have hiff : (Gathered.ofAttempts (attempts t s paths)).counts.failed = 0 ↔
      ∀ p ∈ paths, (alone t s p).isSome = true := by
    rw [failed_attempts, List.countP_eq_zero]
    simp only [Option.isNone_iff_eq_none, Option.isSome_iff_ne_none, ne_eq]
  rw [FileCounts.exitCode]
  by_cases h : (Gathered.ofAttempts (attempts t s paths)).counts.failed = 0
  · rw [h, if_neg (Nat.lt_irrefl 0), if_pos (hiff.mp h)]
  · rw [if_pos (Nat.pos_of_ne_zero h), if_neg (mt hiff.mpr h)]

/-- Every file counts once, as a report or as a failure. -/
theorem aggregated_add_failed (as : List Attempt) :
    (Gathered.ofAttempts as).counts.aggregated + (Gathered.ofAttempts as).counts.failed
      = as.length := by
  have hfailed : (as.countP fun a => a.entry.isNone) = as.countP fun a => ¬ a.entry.isSome :=
    List.countP_congr fun a _ => by cases a.entry <;> rfl
  show (as.filterMap Attempt.entry).length + as.countP _ = _
  rw [List.length_filterMap_eq_countP, hfailed]
  exact (List.length_eq_countP_add_countP _).symm

end Run
end Compliance
