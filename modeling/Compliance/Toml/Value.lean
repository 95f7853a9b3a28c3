import Compliance.Decimal.Literal
import Compliance.Shape

/-!
TOML values, and why a text cannot be read as settings: it is no TOML, it says something twice, or
it has another shape. Tables keep their keys in the order in which they were first written; dates
and times are told from other values, but what they say is not kept. Nor is it said why a text is
malformed, or where.
-/
namespace Compliance.Toml

inductive Value where
  | string (s : String)
  | integer (n : Int)
  | floating (x : Decimal.Literal)
  | boolean (b : Bool)
  | datetime
  | array (items : List Value)
  | table (members : List (String × Value))

inductive Error where
  | malformed
  /-- A key that has a value already. The table is named by its path when it is known. -/
  | duplicateKey (key : String) (table : Option (List String))
  | notVariant
  | shape (e : ShapeError)
  deriving DecidableEq

def Error.message : Error → String
  | .malformed => "malformed TOML"
  | .duplicateKey key none => "duplicate key `" ++ key ++ "`"
  | .duplicateKey key (some []) => "duplicate key `" ++ key ++ "` in document root"
  | .duplicateKey key (some path) =>
    "duplicate key `" ++ key ++ "` in table `" ++ ".".intercalate path ++ "`"
  | .notVariant => "wanted string or table"
  | .shape e => e.message

end Compliance.Toml
