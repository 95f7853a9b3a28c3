/-!
Sets of characters given as ranges of code points; white space of all scripts, and text without
it at its ends; lines of a text, and cutting and padding them to a width in characters.
-/
namespace Compliance.Text

/-- Ascending ranges of code points, both ends included. -/
abbrev Ranges := List (Nat × Nat)

def Ranges.contains (r : Ranges) (c : Char) : Bool :=
  r.any fun e => e.1 ≤ c.toNat && c.toNat ≤ e.2

def blankRanges : Ranges :=
  [(0x9, 0xD), (0x20, 0x20), (0x85, 0x85), (0xA0, 0xA0), (0x1680, 0x1680), (0x2000, 0x200A),
   (0x2028, 0x2029), (0x202F, 0x202F), (0x205F, 0x205F), (0x3000, 0x3000)]

def isBlank (c : Char) : Bool := blankRanges.contains c

def trimStart (cs : List Char) : List Char := cs.dropWhile isBlank

def trimEnd (cs : List Char) : List Char := (cs.reverse.dropWhile isBlank).reverse

def trim (cs : List Char) : List Char := trimEnd (trimStart cs)

/-- Lines of a text, given the current one in reverse. A line ends at a line feed, and a
carriage return before it belongs to the end; text after the last line feed is a line too. -/
def linesAfter : List Char → List Char → List (List Char)
  | [], [] => []
  | before, [] => [before.reverse]
  | before, c :: rest =>
    if c = '\n' then
      (match before with
        | '\r' :: line => line.reverse
        | line => line.reverse) :: linesAfter [] rest
    else linesAfter (c :: before) rest

def lines (s : String) : List String := (linesAfter [] s.toList).map String.ofList

/-- A line of at most `width` characters: a longer one loses its end to three dots. -/
def clip (line : String) (width : Nat) : String :=
  if line.length > width then
    String.ofList (line.toList.take (width - 3) ++ ['.', '.', '.'])
  else line

def padRight (s : String) (width : Nat) : String :=
  String.ofList (s.toList ++ List.replicate (width - s.length) ' ')

def padLeft (s : String) (width : Nat) : String :=
  String.ofList (List.replicate (width - s.length) ' ' ++ s.toList)

end Compliance.Text
