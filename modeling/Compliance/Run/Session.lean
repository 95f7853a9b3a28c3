import Compliance.CommandLine
import Compliance.Console
import Compliance.Event

/-!
What a run says while it goes on: lines on the console and records in the log. Nothing here knows
of runs that are to be quiet; whoever prints asks for that first.
-/
namespace Compliance

/-- What sets a run apart from another one on the same files. -/
structure RunStamp where
  file : Results.Stamp
  /-- The duration of the run in seconds, and in milliseconds. -/
  seconds : String
  milliseconds : String
  deriving DecidableEq

def RunStamp.ofDuration (file : Results.Stamp) (nanoseconds : Nat) : RunStamp :=
  let hundredths := (nanoseconds + 5000000) / 10000000
  { file := file
    seconds := toString (hundredths / 100) ++ "." ++ toString (hundredths / 10 % 10)
      ++ toString (hundredths % 10)
    milliseconds := toString (nanoseconds / 1000000) }

/-- How many summary files a run has, and what came of those that it has been through. -/
structure FileCounts where
  total : Nat
  aggregated : Nat
  failed : Nat
  deriving DecidableEq

def FileCounts.exitCode (c : FileCounts) : Nat := if 0 < c.failed then 2 else 0

structure Transcript where
  output : List String
  events : List Event
  deriving DecidableEq

abbrev Session (m : Type → Type) := StateT Transcript m

namespace Session
variable {m : Type → Type} [Monad m]

def print (lines : List String) : Session m Unit :=
  modify fun r => { r with output := r.output ++ lines }

def log (events : List Event) : Session m Unit :=
  modify fun r => { r with events := r.events ++ events }

end Session

namespace Transcript

def nothingFound (path : String) : List String := ["No summary files found in: " ++ path]

def head (files : Nat) : List String :=
  ["", "Scan Reporter v" ++ Results.version,
   "Aggregating " ++ toString files ++ " summary file(s)...", ""]

def line : String := String.ofList (List.replicate 80 '─')

def execution (o : Options) (c : FileCounts) (stamp : RunStamp) : List String :=
  [line,
   "  Files:        " ++ toString c.aggregated ++ " aggregated, " ++ toString c.failed ++ " failed",
   "  Duration:     " ++ stamp.seconds ++ "s"]
    ++ (o.output.toList.map fun path =>
      "  Output:       " ++ path ++ " (" ++ o.format.name ++ ")")
    ++ [line, ""]

def saved (path : String) : List String := ["Results saved to: " ++ path, ""]

end Transcript
end Compliance
