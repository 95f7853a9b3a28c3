/-!
HTML fragments: escaped text, and references shown as links.
-/
namespace Compliance

namespace Html

def replaceChar (c : Char) (entity : List Char) (cs : List Char) : List Char :=
  cs.flatMap fun d => if d = c then entity else [d]

/-- Text that may stand in an element or in a quoted attribute. The ampersand is replaced
first, because the other replacements bring in new ones. -/
def escapeChars (cs : List Char) : List Char :=
  replaceChar '\'' "&#39;".toList
    (replaceChar '"' "&quot;".toList
      (replaceChar '>' "&gt;".toList
        (replaceChar '<' "&lt;".toList
          (replaceChar '&' "&amp;".toList cs))))

def escape (s : String) : String := String.ofList (escapeChars s.toList)

end Html

/-- How a reference is shown: its text, and where it leads when its system is known. -/
structure ReferenceDisplay where
  text : String
  url : Option String
  deriving DecidableEq

namespace ReferenceDisplay

def isLink (d : ReferenceDisplay) : Bool := d.url.isSome

def toHtml (d : ReferenceDisplay) : String :=
  match d.url with
  | some url =>
    "<a href=\"" ++ Html.escape url ++ "\" target=\"_blank\"><nobr>" ++ Html.escape d.text
      ++ "</nobr></a>"
  | none => Html.escape d.text

end ReferenceDisplay
end Compliance
