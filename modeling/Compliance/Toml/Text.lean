/-!
Strings and keys of TOML at the start of a text. Each reader returns what it read and the text
after it, or nothing when the text is malformed.
-/
namespace Compliance.Toml

def isBlank (c : Char) : Bool := c == ' ' || c == '\t'

def skipBlank (cs : List Char) : List Char := cs.dropWhile isBlank

def lineBreak? : List Char → Option (List Char)
  | '\n' :: rest => some rest
  | '\r' :: '\n' :: rest => some rest
  | _ => none

/-- Controls other than the tab stand in no comment and in no string. -/
def isAllowed (c : Char) : Bool := c == '\t' || (0x20 ≤ c.toNat && c.toNat ≠ 0x7F)

def skipComment : List Char → List Char
  | '#' :: rest => rest.dropWhile isAllowed
  | cs => cs

def hexDigit? (c : Char) : Option Nat :=
  if '0' ≤ c ∧ c ≤ '9' then some (c.toNat - '0'.toNat)
  else if 'a' ≤ c ∧ c ≤ 'f' then some (c.toNat - 'a'.toNat + 10)
  else if 'A' ≤ c ∧ c ≤ 'F' then some (c.toNat - 'A'.toNat + 10)
  else none

/-- The character whose code point is written by the given number of hex digits. -/
def hexChar? : Nat → Nat → List Char → Option (Char × List Char)
  | 0, n, rest => if n.isValidChar then some (Char.ofNat n, rest) else none
  | k + 1, n, c :: rest => do
    let d ← hexDigit? c
    hexChar? k (n * 16 + d) rest
  | _ + 1, _, [] => none

/-- The character that an escape stands for, after its backslash. -/
def escape? : List Char → Option (Char × List Char)
  | 'b' :: rest => some ('\x08', rest)
  | 't' :: rest => some ('\t', rest)
  | 'n' :: rest => some ('\n', rest)
  | 'f' :: rest => some ('\x0c', rest)
  | 'r' :: rest => some ('\r', rest)
  | '"' :: rest => some ('"', rest)
  | '\\' :: rest => some ('\\', rest)
  | 'u' :: rest => hexChar? 4 0 rest
  | 'U' :: rest => hexChar? 8 0 rest
  | _ => none

def skipLines : List Char → List Char
  | [] => []
  | '\r' :: '\n' :: rest => skipLines rest
  | c :: rest => if isBlank c || c == '\n' then skipLines rest else c :: rest

/-- The characters of a basic string up to its closing quote. Fuel is the length of the text. -/
def basic? : Nat → List Char → Option (List Char × List Char)
  | 0, _ => none
  | fuel + 1, cs =>
    match cs with
    | [] => none
    | '"' :: rest => some ([], rest)
    | '\\' :: rest => do
      let (c, rest) ← escape? rest
      let (s, rest) ← basic? fuel rest
      return (c :: s, rest)
    | c :: rest =>
      if isAllowed c then (basic? fuel rest).map fun (s, rest) => (c :: s, rest) else none

/-- The characters of a literal string up to its closing quote. -/
def literal? : List Char → Option (List Char × List Char)
  | [] => none
  | c :: rest =>
    if c = '\'' then some ([], rest)
    else if isAllowed c then (literal? rest).map fun (s, rest) => (c :: s, rest)
    else none

/-- Splits off the quotes that end a string of several lines: three of them close it, and one
or two before these belong to the string. -/
def closing? (quote : Char) : List Char → Option (List Char × List Char)
  | a :: b :: c :: rest =>
    if a = quote ∧ b = quote ∧ c = quote then
      match rest with
      | d :: e :: rest =>
        if d = quote ∧ e = quote then some ([quote, quote], rest)
        else if d = quote then some ([quote], e :: rest)
        else some ([], d :: e :: rest)
      | [d] => if d = quote then some ([quote], []) else some ([], [d])
      | [] => some ([], [])
    else none
  | _ => none

/-- A backslash at the end of a line: the line break and the blanks around it do not count. -/
def joinedLine? (cs : List Char) : Option (List Char) :=
  (lineBreak? (skipBlank cs)).map skipLines

def multiBasic? : Nat → List Char → Option (List Char × List Char)
  | 0, _ => none
  | fuel + 1, cs =>
    match closing? '"' cs with
    | some r => some r
    | none =>
      match lineBreak? cs with
      | some rest => (multiBasic? fuel rest).map fun (s, rest) => ('\n' :: s, rest)
      | none =>
        match cs with
        | [] => none
        | '\\' :: rest =>
          match joinedLine? rest with
          | some rest => multiBasic? fuel rest
          | none => do
            let (c, rest) ← escape? rest
            let (s, rest) ← multiBasic? fuel rest
            return (c :: s, rest)
        | c :: rest =>
          if isAllowed c then (multiBasic? fuel rest).map fun (s, rest) => (c :: s, rest) else none

def multiLiteral? : Nat → List Char → Option (List Char × List Char)
  | 0, _ => none
  | fuel + 1, cs =>
    match closing? '\'' cs with
    | some r => some r
    | none =>
      match lineBreak? cs with
      | some rest => (multiLiteral? fuel rest).map fun (s, rest) => ('\n' :: s, rest)
      | none =>
        match cs with
        | [] => none
        | c :: rest =>
          if isAllowed c then (multiLiteral? fuel rest).map fun (s, rest) => (c :: s, rest)
          else none

/-- A line break right after the opening quotes does not count. -/
def dropFirstBreak (cs : List Char) : List Char := (lineBreak? cs).getD cs

/-- A string of any of the four kinds; the text starts with a quote. -/
def string? (cs : List Char) : Option (String × List Char) :=
  let read := match cs with
    | '"' :: '"' :: '"' :: rest => multiBasic? (rest.length + 1) (dropFirstBreak rest)
    | '"' :: rest => basic? (rest.length + 1) rest
    | '\'' :: '\'' :: '\'' :: rest => multiLiteral? (rest.length + 1) (dropFirstBreak rest)
    | '\'' :: rest => literal? rest
    | _ => none
  read.map fun (s, rest) => (String.ofList s, rest)

def isBareKeyChar (c : Char) : Bool := c.isAlphanum || c == '-' || c == '_'

def keyPart? (cs : List Char) : Option (String × List Char) :=
  match cs with
  | '"' :: rest => (basic? (rest.length + 1) rest).map fun (s, rest) => (String.ofList s, rest)
  | '\'' :: rest => (literal? rest).map fun (s, rest) => (String.ofList s, rest)
  | cs =>
    if (cs.takeWhile isBareKeyChar).isEmpty then none
    else some (String.ofList (cs.takeWhile isBareKeyChar), cs.dropWhile isBareKeyChar)

/-- Whether a text starts like a part of a key. What starts like one and goes on otherwise is
malformed. -/
def startsKeyPart (cs : List Char) : Bool :=
  match skipBlank cs with
  | c :: _ => c == '"' || c == '\'' || isBareKeyChar c
  | [] => false

/-- Parts of a key with dots between them, and the text after the last part: a dot that no part
follows is left there. Fuel is the length of the text. -/
def keyParts? : Nat → List Char → Option (List String × List Char)
  | 0, _ => none
  | fuel + 1, cs => do
    let (part, rest) ← keyPart? (skipBlank cs)
    match skipBlank rest with
    | '.' :: after =>
      if startsKeyPart after then do
        let (parts, rest) ← keyParts? fuel after
        return (part :: parts, rest)
      else return ([part], '.' :: after)
    | rest => return ([part], rest)

/-- How deep values may be nested, and how many parts a key may have. -/
def depthLimit : Nat := 79

def key? (cs : List Char) : Option (List String × List Char) := do
  let (parts, rest) ← keyParts? (cs.length + 1) cs
  if parts.length ≤ depthLimit then some (parts, rest) else none

end Compliance.Toml
