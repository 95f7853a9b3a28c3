import Compliance.Fault

/-!
What a run needs of a file system: it looks at paths, reads files, and writes one. Paths are
text in which a slash separates names. Listing a directory does not fail.
-/
namespace Compliance

inductive FileKind where
  | file
  | directory
  /-- A device or the like, which can be read but is no file. -/
  | special
  deriving DecidableEq

class FileStore (m : Type → Type) where
  /-- What a path leads to, if to anything. -/
  kind : String → m (Option FileKind)
  /-- The names in a directory, in any order. -/
  names : String → m (List String)
  read : String → m (Except FileError String)
  /-- Writes a text as the whole content of a file, which is created if need be. -/
  write : String → String → m (Except FileError Unit)

namespace Path

def join (directory name : String) : String :=
  if directory.endsWith "/" then directory ++ name else directory ++ "/" ++ name

def split (path : List Char) : List (List Char) :=
  match path with
  | [] => [[]]
  | c :: rest =>
    if c = '/' then [] :: split rest
    else match split rest with
      | [] => [[c]]
      | name :: names => (c :: name) :: names

/-- Whether a name has an extension. What begins with its only dot has none. -/
def hasExtension (name extension : String) : Bool :=
  let reversed := name.toList.reverse
  reversed.takeWhile (· ≠ '.') = extension.toList.reverse
    ∧ ((reversed.dropWhile (· ≠ '.')).drop 1) ≠ []

end Path
end Compliance
