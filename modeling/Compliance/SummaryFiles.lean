import Compliance.FileStore

/-!
The summary files that a path stands for: a file stands for itself, and a directory for the
JSON files directly in it.
-/
namespace Compliance.SummaryFiles

def isSummaryName (name : String) : Bool := Path.hasExtension name "json"

/-- The candidates among the names in a directory, in order. -/
def candidates (names : List String) : List String :=
  (names.filter isSummaryName).mergeSort fun a b => decide (a ≤ b)

variable {m : Type → Type} [Monad m] [FileStore m]

def onlyFiles : List String → m (List String)
  | [] => return []
  | path :: paths => do
    let kind ← FileStore.kind path
    let rest ← onlyFiles paths
    return if kind = some .file then path :: rest else rest

/-- The paths of the summary files, unless there is neither a file nor a directory. -/
def find (path : String) : m (Option (List String)) := do
  match ← FileStore.kind path with
  | some .file => return some [path]
  | some .directory => do
    let names ← FileStore.names path
    return some (← onlyFiles ((candidates names).map (Path.join path)))
  | some .special | none => return none

end Compliance.SummaryFiles
