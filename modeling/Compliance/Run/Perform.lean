import Compliance.FileStore
import Compliance.Run.Gather
import Compliance.Settings
import Compliance.SummaryFiles

/-!
A whole run: the settings are read, a report is built from each summary file, and the results are
written if that was asked for. Writing comes last, so a run never reads what it writes. That an
input cannot be listed is no error here, since listing does not fail.
-/
namespace Compliance

/-- Why a run stops. A summary file without a report does not stop it. -/
inductive RunError where
  | inputNotFound (path : String)
  | settings (f : Fault)
  | invalidInput (path : String)
  | results (e : Results.Error)
  | unwritable (path : String) (e : FileError)
  deriving DecidableEq

def RunError.message : RunError → String
  | .inputNotFound path => "Input path does not exist: " ++ path
  | .settings f => "Configuration error: " ++ f.message
  | .invalidInput path => "Invalid path: " ++ path
  | .results e => "Output generation failed: " ++ e.message
  | .unwritable path e => "Failed to write " ++ path ++ ": " ++ e.message

/-- What a run leaves behind, its results file apart. The result is the exit code. -/
structure Run where
  result : Except RunError Nat
  output : List String
  events : List Event

structure Job where
  settings : Settings
  paths : List String

namespace Job

variable {m : Type → Type} [Monad m] [FileStore m]

/-- The settings with what the command line says about them. -/
def adjust (o : Options) (s : Settings) : Settings :=
  if o.allowDuplicateNames then s.withDuplicateNames .lastWins else s

def readSettings (o : Options) : m (Except Fault Settings) :=
  match o.settings with
  | none => return .ok (adjust o .default)
  | some path => do
    let content ← FileStore.read path
    return (Settings.ofFile path content).map (adjust o)

def read (o : Options) : m (Except RunError Job) := do
  if (← FileStore.kind o.input).isNone then return .error (.inputNotFound o.input)
  match ← readSettings o with
  | .error f => return .error (.settings f)
  | .ok settings =>
    match ← SummaryFiles.find o.input with
    | none => return .error (.invalidInput o.input)
    | some paths => return .ok ⟨settings, paths⟩

end Job

namespace Run
open Session (print log)

variable {m : Type → Type} [Monad m] [FileStore m]

/-- Writes a results file and gives its path. In a directory it has the name of its format. -/
def save (requested : String) (format : Results.Format) (text : Except Results.Error String) :
    m (Except RunError String) := do
  let kind ← FileStore.kind requested
  let path := if kind = some .directory then Path.join requested format.fileName else requested
  match text with
  | .error e => return .error (.results e)
  | .ok text =>
    match ← FileStore.write path text with
    | .error e => return .error (.unwritable path e)
    | .ok () => return .ok path

/-- Writes the results if a file for them was named and there are any. -/
def saveResults (o : Options) (s : Settings) (entries : List Entry) (stamp : Results.Stamp) :
    m (Except RunError (Option String)) :=
  match o.output, entries with
  | none, _ | some _, [] => return .ok none
  | some requested, entries => do
    let saved ← save requested o.format (Results.text o.format stamp s.systems entries)
    return saved.map some

/-- Reports on the files of a job. The stamp is taken when all reports are there. -/
def report (takeStamp : m RunStamp) (o : Options) (j : Job) : Session m (Except RunError Nat) := do
  log [.runStarted j.paths.length]
  unless o.quiet do print (Transcript.head j.paths.length)
  let g ← gather o j.settings j.paths
  let stamp ← (takeStamp : m _)
  unless o.quiet do
    print (Console.resultLines j.settings.systems g.entries
      ++ Transcript.execution o g.counts stamp)
  match ← (saveResults o j.settings g.entries stamp.file : m _) with
  | .error e => return .error e
  | .ok saved =>
    if let some path := saved then
      unless o.quiet do print (Transcript.saved path)
    log [.runCompleted g.counts.total g.counts.aggregated g.counts.failed stamp.milliseconds]
    return .ok g.counts.exitCode

/-- The session that some options ask for. Without any file there is nothing to report on. -/
def session (takeStamp : m RunStamp) (o : Options) : Session m (Except RunError Nat) := do
  match ← (Job.read o : m _) with
  | .error e => return .error e
  | .ok j =>
    if j.paths.isEmpty then
      unless o.quiet do print (Transcript.nothingFound o.input)
      return .ok 0
    else report takeStamp o j

def perform (takeStamp : m RunStamp) (o : Options) : m Run := do
  let (result, r) ← (session takeStamp o).run ⟨[], []⟩
  return ⟨result, r.output, r.events⟩

end Run
end Compliance
