import ScopeLexer.Config
import ScopeLexer.Error
import ScopeLexer.Text.Pieces

/-!
Files by path. What is read is given as a function from paths to contents, so loading a document is a
plain function too. Names in a path are divided by `/`; a path that starts with one is absolute.
-/
namespace ScopeLexer

namespace Path

/-- Whether a path starts at the root. -/
def isAbsolute (path : String) : Bool := path.toList.head? = some '/'

/-- A path taken from a directory. An absolute path stays as it is. -/
def join (directory path : String) : String :=
  if isAbsolute path || directory.isEmpty then path
  else if directory.toList.getLast? = some '/' then directory ++ path
  else directory ++ "/" ++ path

/-- Drops empty names, and names that stand for the directory at hand, from the start of reversed
pieces. The first piece of a path says whether it is absolute, and stays. -/
def dropIdle : List String → List String
  | [] => []
  | [first] => [first]
  | piece :: pieces => if piece = "" || piece = "." then dropIdle pieces else piece :: pieces

/-- The directory that a path lies in, if it has a last name. -/
def parent? (path : String) : Option String :=
  match dropIdle (Text.pieces '/' path).reverse with
  | [] | [""] => none
  | [_] => some ""
  | _ :: pieces =>
    match dropIdle pieces with
    | [""] => some "/"
    | pieces => some ("/".intercalate pieces.reverse)

/-- The length of the longest name, in bytes. -/
def maxNameLength : Nat := 255

/-- The length of the longest path, in bytes. -/
def maxLength : Nat := 4095

end Path

/-- What files there are. -/
structure Disk where
  /-- The text of the file at a path. -/
  read : String → Except FileError String

/-- Files in a directory and the directories inside it. -/
structure FileTree where
  /-- The directory from which relative paths are taken: the names down to it. -/
  home : List String
  /-- Files: the names of the directories down to the file and its own, with the text. -/
  files : List (List String × String)

namespace FileTree

/-- The tree of some files, whose paths are taken from a directory. -/
def ofFiles (home : String) (files : List (String × String)) : FileTree :=
  let names (path : String) := (Text.pieces '/' path).filter fun name => name ≠ "" && name ≠ "."
  { home := names home
    files := files.map fun (path, content) => (names (Path.join home path), content) }

/-- Whether there is a directory at a place. -/
def isDirectory (tree : FileTree) (place : List String) : Bool :=
  place.isPrefixOf tree.home || tree.files.any fun (file, _) => place.isPrefixOf file && place ≠ file

/-- The place that names lead to from a place. Every name but the last has to be that of a directory,
and none may be too long. -/
def locate (tree : FileTree) : List String → List String → Except FileError (List String)
  | place, [] => .ok place
  | place, name :: names =>
    if tree.isDirectory place then
      if Path.maxNameLength < name.utf8ByteSize then .error .nameTooLong
      else
        locate tree
          (if name = "" || name = "." then place
          else if name = ".." then place.dropLast
          else place ++ [name]) names
    else if (tree.files.lookup place).isSome then .error .notADirectory
    else .error .notFound

def read (tree : FileTree) (path : String) : Except FileError String :=
  if path.toList.contains '\x00' then .error .nulInPath
  else if path.isEmpty then .error .notFound
  else if Path.maxLength < path.utf8ByteSize then .error .nameTooLong
  else
    match tree.locate (if Path.isAbsolute path then [] else tree.home) (Text.pieces '/' path) with
    | .error error => .error error
    | .ok place =>
      match tree.files.lookup place with
      | some content => .ok content
      | none => .error (if tree.isDirectory place then .isDirectory else .notFound)

def toDisk (tree : FileTree) : Disk := ⟨tree.read⟩

end FileTree

namespace Disk

def readDocument {α : Type} (disk : Disk) (ofText : String → Except Json.DecodeError α)
    (path : String) : Except Error α :=
  match disk.read path with
  | .error .isDirectory => .error (.unreadable .isDirectory)
  | .error error => .error (.file error)
  | .ok text =>
    match ofText text with
    | .ok document => .ok document
    | .error error => .error (.document error)

end Disk

/-- Takes the relative paths of a configuration from a directory. -/
def RegistryConfig.resolvePaths (config : RegistryConfig) (directory : String) : RegistryConfig :=
  { config with
    grammars := config.grammars.map (Path.join directory)
    theme := config.theme.map (Path.join directory) }

/-- Reads the configuration at a path. Its paths are taken from the directory it lies in. -/
def RegistryConfig.load (disk : Disk) (path : String) : Except Error RegistryConfig := do
  let config ← disk.readDocument RegistryConfig.ofText path
  return match Path.parent? path with
    | some directory => config.resolvePaths directory
    | none => config

end ScopeLexer
