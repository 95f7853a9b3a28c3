import Compliance.Document.Decode
import Compliance.Report.OfDocument
import Compliance.Report.Passes

/-!
Building reports: a document is checked, completed and put through both passes. The detailed
form does the same and also keeps a record of every stage.
-/
namespace Compliance.Report

def build (d : Document) (s : Settings) : Traced Report := do
  let r ← ofDocument d s
  .emitAll r.aggregateEvents
  return r.aggregate

def buildText (text : String) (s : Settings) : Traced Report := do
  let d ← Traced.ofExcept ((Document.parse text).mapError .notDocument)
  build d s

def readInput (path : String) (content : Except FileError String) : Except Fault String :=
  content.mapError (.unreadable path)

def buildFile (path : String) (content : Except FileError String) (s : Settings) :
    Traced Report := do
  let text ← Traced.ofExcept (readInput path content)
  buildText text s

/-- The finished report of a file, with a record of every stage. -/
def buildFileInStages (path : String) (content : Except FileError String) (s : Settings) :
    Traced Report := do
  .emit (.reading path)
  let text ← (Traced.ofExcept (readInput path content)).onFail .readingFailed
  let d ← (Traced.ofExcept ((Document.parse text).mapError Fault.notDocument)).onFail
    .parsingFailed
  .emit .normalizing
  let r ← (ofDocument d s).onFail .normalizingFailed
  .emit (.normalized r.rules.length r.targets.length
    (r.targets.filter fun t => t.unevaluated).length)
  .emit .aggregatingByRule
  .emitAll r.ruleEvents
  let r := r.aggregateRules
  .emit (.aggregatedByRule r.ruleTotals)
  .emit .aggregatingByTarget
  .emitAll r.targetEvents
  let r := r.aggregateTargets
  .emit (.aggregatedByTarget r.targetTotals)
  return r

end Compliance.Report
