import Compliance.FileStore
import Compliance.Report.Build
import Compliance.Report.Text
import Compliance.Run.Session

/-!
The summary files of a run, one after the other. A file without a report is counted and does not
touch the others.
-/
namespace Compliance

structure Gathered where
  entries : List Entry
  counts : FileCounts

namespace Run
open Session (print log)

variable {m : Type → Type} [Monad m] [FileStore m]

def gatherFile (o : Options) (s : Settings) (number : Nat) (path : String) (g : Gathered) :
    Session m Gathered := do
  let content ← (FileStore.read path : m _)
  let built := Report.buildFileInStages path content s
  log built.events
  match built.result with
  | .ok report =>
    let counts := { g.counts with aggregated := g.counts.aggregated + 1 }
    log [.fileAggregated path report.summaryLine]
    unless o.quiet do print [Console.progressLine number counts.total ⟨path, report⟩]
    return ⟨g.entries ++ [⟨path, report⟩], counts⟩
  | .error fault =>
    let counts := { g.counts with failed := g.counts.failed + 1 }
    unless o.quiet do print [Console.failureLine number counts.total path fault]
    log [.fileFailed path fault]
    return ⟨g.entries, counts⟩

/-- Goes through the files that are left, of which the first one has a number. -/
def gatherFrom (o : Options) (s : Settings) : Nat → List String → Gathered → Session m Gathered
  | _, [], g => return g
  | number, path :: paths, g => do
    let g ← gatherFile o s number path g
    gatherFrom o s (number + 1) paths g

def gather (o : Options) (s : Settings) (paths : List String) : Session m Gathered :=
  gatherFrom o s 1 paths ⟨[], ⟨paths.length, 0, 0⟩⟩

end Run
end Compliance
