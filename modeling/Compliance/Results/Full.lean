import Compliance.Results.Summary
import Compliance.Sha256

/-!
The full results file: every report with the links of its references, in an envelope that
holds a hash of the reports. Its identifier is random: 128 bits in hexadecimal, with hyphens
between the groups, of which six are fixed and say that the others are random.
-/
namespace Compliance.Results

/-- What sets one results file apart from another with the same reports. -/
structure Stamp where
  id : String
  time : String
  deriving DecidableEq

def markRandom (bytes : List UInt8) : List UInt8 :=
  (bytes.modify 6 fun b => b &&& 0x0f ||| 0x40).modify 8 fun b => b &&& 0x3f ||| 0x80

def identifier (bytes : List UInt8) : String :=
  let digits := Text.hexDigits (markRandom bytes)
  let group (start length : Nat) := String.ofList ((digits.drop start).take length)
  "-".intercalate [group 0 8, group 8 4, group 12 4, group 16 4, group 20 12]

def displayJson (d : ReferenceDisplay) : Json :=
  .object (("text", .string d.text) :: Json.optionalMember "url" .string d.url)

def linksJson (systems : List LinkSystem) (r : Report) : Json :=
  .array (r.rules.map fun rule =>
    .array (rule.references.map fun x => displayJson (Link.display systems x)))

def entryJson (systems : List LinkSystem) (e : Entry) : Json :=
  .object (("source", .string e.source)
    :: e.report.members ++ [("reference_links", linksJson systems e.report)])

def reportsJson (systems : List LinkSystem) (entries : List Entry) : Json :=
  .array (entries.map (entryJson systems))

def contentHash (text : List Char) : String :=
  "sha256:"
    ++ String.ofList (Text.hexDigits (Sha256.digest (String.ofList text).toUTF8.toList))

/-- The envelope. The hash is taken of the compact form of the reports. -/
def envelopeJson (stamp : Stamp) (systems : List LinkSystem) (entries : List Entry) : Json :=
  .object [("report_id", .string stamp.id), ("generated_at", .string stamp.time),
    ("tool", toolJson), ("report_count", Json.ofNat entries.length),
    ("content_hash", .string (contentHash (reportsJson systems entries).compact))]

def fullJson (stamp : Stamp) (systems : List LinkSystem) (entries : List Entry) : Json :=
  .object [("envelope", envelopeJson stamp systems entries),
    ("reports", reportsJson systems entries)]

end Compliance.Results
