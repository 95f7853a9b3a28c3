import Compliance.Toml.Value

/-!
Numbers, truth values, dates and times of TOML at the start of a text.
-/
namespace Compliance.Toml

def isDigit (c : Char) : Bool := '0' ≤ c && c ≤ '9'

/-- Digits that may have single underscores between them, without the underscores. The flag
says whether a digit has to come next. -/
def grouped? (digit : Char → Bool) : Bool → List Char → Option (List Char × List Char)
  | true, [] => none
  | false, [] => some ([], [])
  | needed, c :: rest =>
    if digit c then (grouped? digit false rest).map fun (ds, rest) => (c :: ds, rest)
    else if needed then none
    else if c = '_' then grouped? digit true rest
    else some ([], c :: rest)

def ofDigits (base : Nat) (ds : List Char) : Nat :=
  ds.foldl (fun n c => n * base +
    (if isDigit c then c.toNat - '0'.toNat else c.toLower.toNat - 'a'.toNat + 10)) 0

/-- Digits of a decimal number before the point: a leading zero stands alone. -/
def decimal? (cs : List Char) : Option (List Char × List Char) :=
  match cs with
  | '0' :: rest => some (['0'], rest)
  | cs => grouped? isDigit true cs

def sign (cs : List Char) : Bool × List Char :=
  match cs with
  | '-' :: rest => (true, rest)
  | '+' :: rest => (false, rest)
  | rest => (false, rest)

def wordSized? (n : Int) (rest : List Char) : Option (Value × List Char) :=
  if -0x8000000000000000 ≤ n ∧ n < 0x8000000000000000 then some (.integer n, rest) else none

/-- A whole number: decimal with an optional sign, or in another base without one. -/
def integer? (cs : List Char) : Option (Value × List Char) :=
  let inBase (base : Nat) (digit : Char → Bool) (rest : List Char) := do
    let (ds, rest) ← grouped? digit true rest
    wordSized? (ofDigits base ds) rest
  match cs with
  | '0' :: 'x' :: rest =>
    inBase 16 (fun c => isDigit c || ('a' ≤ c.toLower && c.toLower ≤ 'f')) rest
  | '0' :: 'o' :: rest => inBase 8 (fun c => '0' ≤ c && c ≤ '7') rest
  | '0' :: 'b' :: rest => inBase 2 (fun c => c == '0' || c == '1') rest
  | cs => do
    let (negative, rest) := sign cs
    let (ds, rest) ← decimal? rest
    wordSized? (if negative then -(ofDigits 10 ds : Int) else ofDigits 10 ds) rest

/-- The exponent at the start of a text, if there is one there. -/
def exponent? (cs : List Char) : Option (Option Int × List Char) :=
  match cs with
  | c :: rest =>
    if c = 'e' ∨ c = 'E' then do
      let (negative, rest) := sign rest
      let (ds, rest) ← grouped? isDigit true rest
      return (some (if negative then -(ofDigits 10 ds : Int) else ofDigits 10 ds), rest)
    else some (none, cs)
  | [] => some (none, [])

/-- The digits after the point at the start of a text, if there is a point there. -/
def fraction? (cs : List Char) : Option (Option (List Char) × List Char) :=
  match cs with
  | '.' :: rest => (grouped? isDigit true rest).map fun r => (some r.1, r.2)
  | rest => some (none, rest)

/-- A floating-point number. It has a fraction or an exponent, and it is not too large. -/
inductive FloatScan where
  | absent
  | malformed
  | read (v : Value) (rest : List Char)

/-- Words for the floating-point numbers that are not finite. -/
def floatWord? (negative : Bool) : List Char → Option (Value × List Char)
  | 'i' :: 'n' :: 'f' :: rest => some (.floating (.infinite negative), rest)
  | 'n' :: 'a' :: 'n' :: rest => some (.floating .notANumber, rest)
  | _ => none

def float (cs : List Char) : FloatScan :=
  let (negative, rest) := sign cs
  match floatWord? negative rest with
  | some (v, rest) => .read v rest
  | none =>
    match decimal? rest with
    | none => .absent
    | some (whole, rest) =>
      match fraction? rest with
      | none => .malformed
      | some (fraction, rest) =>
        match exponent? rest with
        | none => .malformed
        | some (exponent, rest) =>
          if fraction.isNone && exponent.isNone then .absent
          else
            let digits := fraction.getD []
            let significand := ofDigits 10 (whole ++ digits)
            let exponent := exponent.getD 0 - digits.length
            if Decimal.nearestToDecimal significand exponent ≤ Decimal.maxUnits then
              .read (.floating (.finite negative significand exponent)) rest
            else if negative then .read (.floating (.infinite true)) rest
            else .malformed

def fixed? : Nat → Nat → List Char → Option (Nat × List Char)
  | 0, n, rest => some (n, rest)
  | k + 1, n, c :: rest =>
    if isDigit c then fixed? k (n * 10 + (c.toNat - '0'.toNat)) rest else none
  | _ + 1, _, [] => none

def isLeapYear (y : Nat) : Bool := y % 4 == 0 && (y % 100 != 0 || y % 400 == 0)

def daysInMonth (year month : Nat) : Nat :=
  if month = 2 then (if isLeapYear year then 29 else 28)
  else if month = 4 ∨ month = 6 ∨ month = 9 ∨ month = 11 then 30
  else 31

def date? (cs : List Char) : Option (List Char) := do
  let (year, rest) ← fixed? 4 0 cs
  match rest with
  | '-' :: rest => do
    let (month, rest) ← fixed? 2 0 rest
    match rest with
    | '-' :: rest => do
      let (day, rest) ← fixed? 2 0 rest
      if 1 ≤ month ∧ month ≤ 12 ∧ 1 ≤ day ∧ day ≤ daysInMonth year month then some rest else none
    | _ => none
  | _ => none

def hourMinute? (cs : List Char) : Option (List Char) := do
  let (hour, rest) ← fixed? 2 0 cs
  match rest with
  | ':' :: rest => do
    let (minute, rest) ← fixed? 2 0 rest
    if hour ≤ 23 ∧ minute ≤ 59 then some rest else none
  | _ => none

/-- The text after a time of day, with its seconds and any fraction of them. A point that no digit
follows is left there. -/
def time? (cs : List Char) : Option (List Char) := do
  let rest ← hourMinute? cs
  match rest with
  | ':' :: rest => do
    let (second, rest) ← fixed? 2 0 rest
    if 60 < second then none
    else match rest with
      | '.' :: d :: more =>
        if isDigit d then some (more.dropWhile isDigit) else some ('.' :: d :: more)
      | rest => some rest
  | _ => none

/-- The text after an offset from universal time; there may be none. -/
def offset? (cs : List Char) : Option (List Char) :=
  match cs with
  | c :: rest =>
    if c = 'Z' ∨ c = 'z' then some rest
    else if c = '+' ∨ c = '-' then hourMinute? rest
    else some cs
  | [] => some []

/-- Whether the text starts like a date, with a year and a hyphen. -/
def startsDate (cs : List Char) : Bool :=
  match fixed? 4 0 cs with
  | some (_, '-' :: _) => true
  | _ => false

def startsTime (cs : List Char) : Bool :=
  match fixed? 2 0 cs with
  | some (hour, ':' :: _) => hour ≤ 23
  | _ => false

/-- A date, which a time of day may follow after a `T` or a blank. -/
def datetime? (cs : List Char) : Option (Value × List Char) := do
  let rest ← date? cs
  match rest with
  | c :: after =>
    if (c = 'T' ∨ c = 't' ∨ c = ' ') ∧ startsTime after then do
      let rest ← time? after
      let rest ← offset? rest
      return (.datetime, rest)
    else return (.datetime, rest)
  | [] => return (.datetime, [])

def numeric? (cs : List Char) : Option (Value × List Char) :=
  if startsDate cs then datetime? cs
  else if startsTime cs then (time? cs).map fun rest => (.datetime, rest)
  else match float cs with
    | .read v rest => some (v, rest)
    | .malformed => none
    | .absent => integer? cs

def boolean? : List Char → Option (Value × List Char)
  | 't' :: 'r' :: 'u' :: 'e' :: rest => some (.boolean true, rest)
  | 'f' :: 'a' :: 'l' :: 's' :: 'e' :: rest => some (.boolean false, rest)
  | _ => none

end Compliance.Toml
