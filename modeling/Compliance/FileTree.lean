import Compliance.FileStore
import Compliance.Keyed

/-!
A file system in memory. It is a list of places, each named by the names that lead to it from
the root, and a working directory from which relative paths start. There are no links and no
permissions, a directory that is there can be listed, and the streams of the process are not in it.
-/
namespace Compliance

inductive Node where
  /-- A file. Its content is missing when it is no UTF-8 text. -/
  | file (content : Option String)
  | directory
  /-- A device that takes what is written to it out of the tree and never has anything to read. -/
  | sink
  deriving DecidableEq

abbrev Place := List String

structure FileTree where
  nodes : List (Place × Node)
  workdir : Place
  deriving DecidableEq

namespace FileTree

/-- Longest name, and longest path, in bytes. -/
def nameLimit : Nat := 255
def pathLimit : Nat := 4095

def empty : FileTree := ⟨[], []⟩

/-- The root is always there. -/
def node? (t : FileTree) (p : Place) : Option Node :=
  if p = [] then some .directory else t.nodes.lookup p

def put (t : FileTree) (p : Place) (n : Node) : FileTree :=
  { t with nodes := Keyed.assign p n t.nodes }

theorem node?_put {t : FileTree} {p q : Place} {n : Node} (hp : p ≠ []) :
    (t.put p n).node? q = if q = p then some n else t.node? q := by
  by_cases hq : q = []
  · subst hq
    simp [node?, Ne.symm hp]
  · simp [node?, put, hq]

@[simp] theorem put_put (t : FileTree) (p : Place) (m n : Node) : (t.put p m).put p n = t.put p n := by
  simp [put]

/-- Goes from a directory to a name in it, which need not be there. -/
def step (here : Place) (name : String) : Except FileError Place :=
  if name = "" ∨ name = "." then .ok here
  else if name = ".." then .ok here.dropLast
  else if nameLimit < name.utf8ByteSize then .error .nameTooLong
  else .ok (here ++ [name])

/-- Follows names from a place. Only the last one may be missing. -/
def walk (t : FileTree) (here : Place) : List String → Except FileError Place
  | [] => .ok here
  | name :: rest =>
    match t.node? here with
    | none => .error .notFound
    | some .directory => do walk t (← step here name) rest
    | some _ => .error .notDirectory

def start (t : FileTree) (path : String) : Except FileError (Place × List String) :=
  if '\x00' ∈ path.toList then .error .nulInName
  else if pathLimit < path.utf8ByteSize then .error .nameTooLong
  else match path.toList with
    | [] => .error .notFound
    | '/' :: rest => .ok ([], (Path.split rest).map String.ofList)
    | cs => .ok (t.workdir, (Path.split cs).map String.ofList)

/-- The place that a path leads to, where something may or may not be. -/
def place (t : FileTree) (path : String) : Except FileError Place := do
  let (here, names) ← t.start path
  t.walk here names

def look (t : FileTree) (path : String) : Except FileError Node := do
  match t.node? (← t.place path) with
  | some n => .ok n
  | none => .error .notFound

def kind (t : FileTree) (path : String) : Option FileKind :=
  match t.look path with
  | .ok (.file _) => some .file
  | .ok .directory => some .directory
  | .ok .sink => some .special
  | .error _ => none

def childName (directory : Place) (p : Place) : Option String :=
  if p.dropLast = directory then p.getLast? else none

def names (t : FileTree) (path : String) : List String :=
  match t.place path with
  | .ok p => t.nodes.filterMap fun e => childName p e.1
  | .error _ => []

def read (t : FileTree) (path : String) : Except FileError String := do
  match ← t.look path with
  | .file (some s) => .ok s
  | .file none => .error .invalidText
  | .directory => .error .isDirectory
  | .sink => .ok ""

/-- The place at which a file is written. It has to be in a directory, and a slash after its
name asks for a directory. -/
def target (t : FileTree) (path : String) : Except FileError Place := do
  let (here, names) ← t.start path
  let given := (names.reverse.dropWhile (· = "")).reverse
  if given.length = names.length then t.walk here names
  else do
    let _ ← t.walk here (given.dropLast ++ [""])
    .error .isDirectory

def write (t : FileTree) (path text : String) : Except FileError FileTree := do
  let p ← t.target path
  match t.node? p with
  | some .directory => .error .isDirectory
  | some .sink => .ok t
  | some (.file _) | none => .ok (t.put p (.file (some text)))

def putDirectory (t : FileTree) : Place → Place → FileTree
  | _, [] => t
  | here, name :: rest =>
    let p := here ++ [name]
    putDirectory (if (t.node? p).isSome then t else t.put p .directory) p rest

/-- Puts a node in the tree, with the directories that it is in. -/
def insert (t : FileTree) (p : Place) (n : Node) : FileTree :=
  (t.putDirectory [] p.dropLast).put p n

def textualPlace (t : FileTree) (path : String) : Place :=
  let (here, cs) := match path.toList with
    | '/' :: rest => ([], rest)
    | cs => (t.workdir, cs)
  (Path.split cs).foldl (fun p name =>
    if name = [] ∨ name = ['.'] then p
    else if name = ['.', '.'] then p.dropLast
    else p ++ [String.ofList name]) here

/-- The texts of the files that are new or have another content than before. -/
def changes (before after : FileTree) : List (Place × String) :=
  after.nodes.filterMap fun e =>
    match e.2 with
    | .file (some s) => if before.node? e.1 = some e.2 then none else some (e.1, s)
    | _ => none

end FileTree

abbrev InTree := StateM FileTree

/-- What comes after a computation starts from what that came to. -/
theorem InTree.run_bind {α β : Type} {x : InTree α} {t t' : FileTree} {a : α} (h : x.run t = (a, t'))
    (f : α → InTree β) : (x >>= f).run t = (f a).run t' := by
  rw [StateT.run_bind, h]
  rfl

instance : FileStore InTree where
  kind path := return (← get).kind path
  names path := return (← get).names path
  read path := return (← get).read path
  write path text := do
    match (← get).write path text with
    | .ok t => set t; return .ok ()
    | .error e => return .error e

namespace InTree
variable (t : FileTree) (path : String)

theorem kind_run : (FileStore.kind path : InTree _).run t = (t.kind path, t) := rfl

theorem names_run : (FileStore.names path : InTree _).run t = (t.names path, t) := rfl

theorem read_run : (FileStore.read path : InTree _).run t = (t.read path, t) := rfl

end InTree
end Compliance
