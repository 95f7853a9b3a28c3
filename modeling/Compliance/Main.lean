import Compliance.Results.Full
import Compliance.Run.Perform
import Std.Time.Format

/-!
The program: it hands the files of the machine to a run, prints what the run has to say, and
exits with its code.
-/
namespace Compliance

/-- The reason that the system gives for a failure, if it is one that can be told apart. Some
calls give the negative of its number. -/
def FileError.ofCode? (code : UInt32) : Option FileError :=
  [(2, notFound), (20, notDirectory), (21, isDirectory), (36, nameTooLong)].findSome?
    fun e : UInt32 × FileError => if code = e.1 ∨ code = -e.1 then some e.2 else none

def FileError.ofError? : IO.Error → Option FileError
  | .noFileOrDirectory _ code _ | .inappropriateType _ code _ | .invalidArgument _ code _ =>
    ofCode? code
  | _ => none

def attempt {α : Type} (act : IO α) : IO (Except FileError α) := do
  try return .ok (← act)
  catch e =>
    match FileError.ofError? e with
    | some f => return .error f
    | none => throw e

/-- The kind of a file on the machine. Nothing can be seen of what cannot be looked at. -/
def kindOf (path : String) : IO (Option FileKind) := do
  try
    let place := (← IO.currentDir) / path
    match (← place.metadata).type with
    | .file => return some .file
    | .dir => return some .directory
    | _ => return some .special
  catch _ => return none

instance : FileStore IO where
  kind := kindOf
  names path := do
    let place := (← IO.currentDir) / path
    return (← place.readDir).toList.map (·.fileName)
  read path := do
    let bytes ← attempt (IO.FS.readBinFile path)
    return bytes.bind fun b => (String.fromUTF8? b).elim (.error .invalidText) .ok
  write path text := attempt (IO.FS.writeFile path text)

def timeText : IO String := do
  let now := Std.Time.DateTime.ofTimestamp (← Std.Time.Timestamp.now) .UTC
  return now.format "uuuu-MM-dd'T'HH:mm:ss.SSSSSSSSS'Z'"

def takeStamp (start : Nat) : IO RunStamp := do
  let bytes ← IO.getRandomBytes 16
  let file := ⟨Results.identifier bytes.toList, ← timeText⟩
  return .ofDuration file ((← IO.monoNanosNow) - start)

def Level.severity : Level → Nat
  | .error => 0
  | .warn => 1
  | .info => 2
  | .debug => 3

def Run.shown (r : Run) (least : Level) : List Event :=
  r.events.filter fun e => e.level.severity ≤ least.severity

def usage : String :=
  "Usage: scan_reporter [-o FILE] [-f full|summary] [-c FILE] [--allow-duplicate-names] [-q | -v] "
    ++ "INPUT"

def refuse (r : CommandLine.Refusal) : IO UInt32 := do
  match r with
  | .helpWanted => IO.println usage
  | .versionWanted => IO.println ("scan_reporter " ++ Results.version)
  | _ => IO.eprintln usage
  return r.exitCode.toUInt32

def carryOut (o : Options) : IO UInt32 := do
  let r ← Run.perform (takeStamp (← IO.monoNanosNow)) o
  r.output.forM IO.println
  (r.shown o.logLevel).forM fun e => IO.eprintln ("[" ++ e.level.name ++ "] " ++ e.message)
  match r.result with
  | .ok code => return code.toUInt32
  | .error e =>
    IO.eprintln ("Error: " ++ e.message)
    return 2

end Compliance

def main (args : List String) : IO UInt32 :=
  match Compliance.CommandLine.parse args with
  | .ok o => Compliance.carryOut o
  | .error r => Compliance.refuse r
