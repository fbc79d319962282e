import Routes.Text.Split
import Routes.Text.Utf8
/-!
Files and directories by their paths. A path is followed from the root where a slash begins it and
from the working directory where not. There are no links, so that paths name one file where they
lead to one location. What a system refuses beyond that, such as a name that is too long or a place
without permission, is not described.
-/
namespace Routes

inductive FileStore.Content where
  | text (s : String)
  | bytes (bs : List UInt8)
deriving DecidableEq, Repr

/-- The text of a file, unless its bytes are no UTF-8. -/
def FileStore.Content.text? : FileStore.Content → Option String
  | text s => some s
  | bytes bs => (Text.Utf8.decode? bs).map String.ofList

/-- The names that lead to a place from the root. -/
abbrev FileStore.Location := List String

structure FileStore where
  working : FileStore.Location
  files : List (FileStore.Location × FileStore.Content)
  directories : List FileStore.Location
deriving DecidableEq, Repr

/-- Why a file cannot be written. -/
inductive FileStore.Error where
  | notFound
  | exists
  | notDirectory
  | isDirectory
  | zeroInName
deriving DecidableEq, Repr

namespace FileStore

def Error.message : Error → String
  | notFound => "No such file or directory (os error 2)"
  | «exists» => "File exists (os error 17)"
  | notDirectory => "Not a directory (os error 20)"
  | isDirectory => "Is a directory (os error 21)"
  | zeroInName => "file name contained an unexpected NUL byte"

/-- The names in a path, without those that stay where they are. -/
def names (path : String) : List String :=
  (((Text.pieces '/' path.toList).filter fun p => p ≠ [] ∧ p ≠ ['.']).map String.ofList)

/-- Where a name leads. Two dots lead back, but not beyond the root. -/
def goTo (l : Location) (name : String) : Location :=
  if name = ".." then l.dropLast else l ++ [name]

/-- The locations that names lead to, one for each name. -/
def trail (l : Location) : List String → List Location
  | [] => []
  | name :: rest => goTo l name :: trail (goTo l name) rest

/-- Where a path is followed from. -/
def origin (working : Location) (path : String) : Location :=
  if path.startsWith "/" then [] else working

def location (working : Location) (path : String) : Location :=
  (names path).foldl goTo (origin working path)

/-- The locations that a path leads through before its last name. -/
def way (working : Location) (path : String) : List Location :=
  (trail (origin working path) (names path)).dropLast

/-- A path with a slash or a dot as its end names a directory. -/
def namesDirectory (path : String) : Bool :=
  match (Text.pieces '/' path.toList).getLast? with
  | some [] | some ['.'] | some ['.', '.'] => true
  | _ => false

/-- The last name of a path. -/
def fileName? (path : String) : Option String :=
  match (names path).getLast? with
  | some ".." => none
  | name => name

/-- What follows the last dot of a name, unless nothing precedes that dot. -/
def extension? (path : String) : Option String :=
  match fileName? path with
  | none => none
  | some name =>
    match (Text.pieces '.' name.toList).reverse with
    | [_] | [] => none
    | [_, []] => none
    | last :: _ => some (String.ofList last)

def file? (s : FileStore) (l : Location) : Option Content :=
  (s.files.find? (·.1 == l)).map (·.2)

/-- The working directory and those that it lies in are there. -/
def isDirectory (s : FileStore) (l : Location) : Bool :=
  l.isPrefixOf s.working || s.directories.contains l

def holdsZero (name : String) : Bool := name.toList.contains '\x00'

/-- Why a path names nothing, whatever there is. -/
def flaw? (path : String) : Option Error :=
  if path = "" then some .notFound else if holdsZero path then some .zeroInName else none

/-- The locations that have to be directories for a path to be followed. One dot as its last name
asks this of the place where it stands. -/
def passed (working : Location) (path : String) : List Location :=
  match ((Text.pieces '/' path.toList).filter (· ≠ [])).getLast? with
  | some ['.'] => trail (origin working path) (names path)
  | _ => way working path

/-- Why a path cannot be followed. -/
def obstacle? (s : FileStore) (path : String) : Option Error :=
  (flaw? path).or
    (((passed s.working path).find? fun l => !s.isDirectory l).map fun l =>
      if (s.file? l).isSome then .notDirectory else .notFound)

/-- The file that a path names, if there is one. -/
def fileAt? (s : FileStore) (path : String) : Option Content :=
  if (s.obstacle? path).isSome || namesDirectory path then none
  else s.file? (location s.working path)

/-- The text of the file at a path, if there is one. -/
def read? (s : FileStore) (path : String) : Option String := (s.fileAt? path).bind (·.text?)

/-- A file or a directory is at a path. -/
def contains (s : FileStore) (path : String) : Bool :=
  (s.obstacle? path).isNone && s.isDirectory (location s.working path) || (s.fileAt? path).isSome

/-- Makes directories one after the other, those that are there apart; `fresh` says that one has
been made. What has been made before a failure stays. -/
def makeWay (s : FileStore) (fresh : Bool) : List Location → Except Error Unit × FileStore
  | [] => (.ok (), s)
  | l :: ls =>
    if s.isDirectory l then makeWay s fresh ls
    else if (s.file? l).isSome then
      -- A file is met as such only where a directory is to be made in its place: the last one is
      -- tried first, and from the first that could be made on it is each in turn.
      (.error (if fresh || ls.isEmpty then .exists else .notDirectory), s)
    else makeWay { s with directories := s.directories ++ [l] } true ls

/-- Makes the directories that a path leads through. -/
def makeParents (s : FileStore) (path : String) : Except Error Unit × FileStore :=
  if (names path).dropLast.any holdsZero then (.error .zeroInName, s)
  else s.makeWay false (way s.working path)

/-- Writes a file into a directory that is there. -/
def write (s : FileStore) (path text : String) : Except Error FileStore :=
  let l := location s.working path
  match s.obstacle? path with
  | some e => .error e
  | none =>
    if s.isDirectory l || namesDirectory path then .error .isDirectory
    else .ok { s with files := s.files.filter (·.1 != l) ++ [(l, .text text)] }

/-- The store of some files, with the directories that their paths lead through. -/
def ofFiles (working : Location) (files : List (String × Content)) : FileStore :=
  ⟨working, files.map fun (path, c) => (location working path, c),
    (files.flatMap fun (path, _) => way working path).eraseDups⟩

end FileStore
end Routes
