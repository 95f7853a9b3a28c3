import Compliance.Results.File

/-!
The command line. Arguments are read from left to right. The value of an option is looked at
only when the next argument that is known comes along, so an unknown argument is reported
before a bad value that stands just before it.
-/
namespace Compliance

structure Options where
  /-- A summary file, or a directory of them. -/
  input : String
  output : Option String
  format : Results.Format
  settings : Option String
  allowDuplicateNames : Bool
  quiet : Bool
  verbose : Bool
  deriving DecidableEq

namespace CommandLine

/-- Why there is nothing to run. Help and version are asked for, the rest are mistakes. -/
inductive Refusal where
  | helpWanted
  | versionWanted
  | unknownArgument
  | invalidValue
  | tooManyValues
  | conflict
  | missingInput
  deriving DecidableEq

def Refusal.exitCode : Refusal → Nat
  | .helpWanted | .versionWanted => 0
  | _ => 2

/-- What is given as a value. Only the input has no option of its own. -/
inductive Slot where
  | input | output | format | settings
  deriving DecidableEq

inductive Switch where
  | allowDuplicateNames | quiet | verbose
  deriving DecidableEq

inductive Flag where
  /-- An option with a value. -/
  | value (s : Slot)
  | switch (s : Switch)
  | help
  | version
  deriving DecidableEq

def longNames : List (String × Flag) :=
  [("output", .value .output), ("format", .value .format), ("config", .value .settings),
   ("allow-duplicate-names", .switch .allowDuplicateNames), ("quiet", .switch .quiet),
   ("verbose", .switch .verbose), ("help", .help), ("version", .version)]

def shortNames : List (Char × Flag) :=
  [('o', .value .output), ('f', .value .format), ('c', .value .settings),
   ('q', .switch .quiet), ('v', .switch .verbose), ('h', .help), ('V', .version)]

structure Draft where
  values : List (Slot × String)
  switches : List Switch
  /-- The last option, or the input, with its value unless it is still to come. -/
  pending : Option (Slot × Option String)
  deriving DecidableEq

/-- Whether a value is one for its slot: paths are not empty, formats are known. -/
def Slot.accepts : Slot → String → Bool
  | .format, v => [Results.Format.full, .summary].any (·.name = v)
  | _, v => v ≠ ""

namespace Draft

def empty : Draft := ⟨[], [], none⟩

def value (d : Draft) (s : Slot) : Option String := d.values.lookup s

/-- Stores a value. Nothing can be given twice. -/
def store (d : Draft) (s : Slot) (v : String) : Except Refusal Draft :=
  if (d.value s).isSome then .error .conflict
  else if s.accepts v then .ok { d with values := (s, v) :: d.values }
  else .error .invalidValue

def settle (d : Draft) : Except Refusal Draft :=
  match d.pending with
  | none => .ok d
  | some (_, none) => .error .invalidValue
  | some (s, some v) => { d with pending := none }.store s v

def turnOn (d : Draft) (s : Switch) : Except Refusal Draft := do
  let d ← d.settle
  if s ∈ d.switches then .error .conflict else .ok { d with switches := s :: d.switches }

/-- An option with a value, which may be part of the same argument. -/
def option (d : Draft) (s : Slot) (attached : Option String) : Except Refusal Draft := do
  let d ← d.settle
  match attached with
  | some v => d.store s v
  | none => .ok { d with pending := some (s, none) }

def refuse (d : Draft) (r : Refusal) : Except Refusal Draft := do
  let _ ← d.settle
  .error r

def positional (d : Draft) (arg : String) : Except Refusal Draft :=
  if (d.value .input).isSome ∨ d.pending.any (·.1 = .input) then .error .unknownArgument
  else do
    let d ← d.settle
    return { d with pending := some (.input, some arg) }

/-- An argument after two hyphens. A value follows an equals sign. -/
def long (d : Draft) (arg : List Char) : Except Refusal Draft :=
  let name := String.ofList (arg.takeWhile (· ≠ '='))
  let attached := (arg.dropWhile (· ≠ '=')).tail?.map String.ofList
  match longNames.lookup name, attached with
  | none, _ => .error .unknownArgument
  | some (.value s), attached => d.option s attached
  | some _, some _ => .error .tooManyValues
  | some (.switch s), none => d.turnOn s
  | some .help, none => d.refuse .helpWanted
  | some .version, none => d.refuse .versionWanted

/-- Letters after a hyphen. The first option with a value has what follows it as its value,
without an equals sign in front. -/
def short (d : Draft) : List Char → Except Refusal Draft
  | [] => .ok d
  | c :: rest =>
    match shortNames.lookup c with
    | none => .error .unknownArgument
    | some (.switch s) => do (← d.turnOn s).short rest
    | some .help => d.refuse .helpWanted
    | some .version => d.refuse .versionWanted
    | some (.value s) =>
      d.option s (match rest with
        | [] => none
        | '=' :: v => some (String.ofList v)
        | v => some (String.ofList v))

/-- Reads an argument before any `--`. What looks like an option is never a value. -/
def argument (d : Draft) (arg : String) : Except Refusal Draft :=
  match arg.toList with
  | '-' :: '-' :: rest => d.long rest
  | '-' :: c :: rest => d.short (c :: rest)
  | _ =>
    match d.pending with
    | some (s, none) => .ok { d with pending := some (s, some arg) }
    | _ => d.positional arg

/-- Reads all arguments. After `--` there are no options. -/
def arguments (d : Draft) : List String → Except Refusal Draft
  | [] => .ok d
  | "--" :: rest => rest.foldlM positional d
  | arg :: rest => do (← d.argument arg).arguments rest

def finish (d : Draft) : Except Refusal Options := do
  let d ← d.settle
  if .quiet ∈ d.switches ∧ .verbose ∈ d.switches then .error .conflict
  match d.value .input with
  | none => .error .missingInput
  | some input => .ok {
      input := input
      output := d.value .output
      format := if d.value .format = some Results.Format.summary.name then .summary else .full
      settings := d.value .settings
      allowDuplicateNames := .allowDuplicateNames ∈ d.switches
      quiet := .quiet ∈ d.switches
      verbose := .verbose ∈ d.switches }

end Draft

def parse (args : List String) : Except Refusal Options := do
  (← Draft.empty.arguments args).finish

end CommandLine

/-- The least severe records that are of interest: `error`, `warn` or `info`. -/
def Options.logLevel (o : Options) : Level :=
  if o.verbose then .info else if o.quiet then .error else .warn

end Compliance
