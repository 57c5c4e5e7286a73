/-
Files: what the program asks of a file system, and a file system that is a plain value.
-/
import ControlPlane.SortedMap
import ControlPlane.Text.Split

namespace ControlPlane

/-- What reading a file gives. -/
inductive FileText where
  /-- There is nothing at the place. -/
  | absent
  /-- There is something that may not be opened. -/
  | denied
  /-- There is something that has no text, such as a directory. -/
  | unreadable
  | text (text : String)
deriving DecidableEq, Repr

/-- A monad in which files are read and written. Places are named by texts with `/` between names. -/
class MonadFiles (m : Type → Type) where
  readFile : String → m FileText
  /-- Creates a directory with all that it lies in, and tells whether it is there now. -/
  createDirectories : String → m Bool
  /-- Puts a text in place of a file in an existing directory, and tells whether that is done. -/
  writeFile : String → String → m Bool

export MonadFiles (readFile createDirectories writeFile)

/-! ## Places -/

/-- The longest text that names a place, in bytes. -/
def maxPlaceSize : Nat := 4095

/-- The longest name of a file or directory, in bytes. -/
def maxNameSize : Nat := 255

/-- Whether a text can name a place. -/
def isPlace (place : String) : Bool :=
  place ≠ "" && place.utf8ByteSize ≤ maxPlaceSize && !place.contains '\x00'

/-- Whether a file or directory may have the name. -/
def isName (name : String) : Bool := name.utf8ByteSize ≤ maxNameSize

/-- The place of a name in a directory; a name that starts with `/` is a place of its own. -/
def joinPlace (dir name : String) : String :=
  if name.startsWith "/" || dir.isEmpty then name
  else if dir.endsWith "/" then dir ++ name
  else dir ++ "/" ++ name

/-- The names of a place, after the place that they start from: `/`, or the empty one. -/
def namesOf (place : String) : String × List String :=
  match (Text.split '/' [] place.toList).map String.ofList with
  | "" :: rest@(_ :: _) => ("/", rest)
  | names => ("", names)

/-- The names of the directories that are created on the way to a place, each in the one before. A
place whose last name is `.` is not created itself: `.` has to be in it already. -/
def namesToCreate (names : List String) : List String :=
  let wanted := names.filter fun name => name ≠ "" ∧ name ≠ "."
  if (names.filter (· ≠ "")).getLast? = some "." then wanted.dropLast else wanted

/-! ## A tree of files -/

/-- What lies at a place. -/
inductive FileEntry where
  | directory
  | file (text : String)
deriving DecidableEq, Repr

/-- Directories and files. The directory that other places start from is always there. -/
structure FileTree where
  /-- What lies at a place, under the names on the way to it with `/` between them. -/
  entries : SortedMap String FileEntry

namespace FileTree

def empty : FileTree := ⟨.empty⟩

instance : Inhabited FileTree := ⟨empty⟩

/-- What lies at the end of a way. -/
def get? (t : FileTree) (way : List String) : Option FileEntry :=
  if way = [] ∨ way = [""] then some .directory else t.entries.get? ("/".intercalate way)

def isDirectory (t : FileTree) (way : List String) : Bool := t.get? way == some .directory

/-- The tree with something put at the end of a way. -/
def put (t : FileTree) (way : List String) (e : FileEntry) : FileTree :=
  ⟨t.entries.insert ("/".intercalate way) e⟩

/-- The way that goes one name further; `.` stays and `..` goes back. -/
def goTo (way : List String) (name : String) : List String :=
  if name = "" ∨ name = "." then way
  else if name = ".." then (if way = [""] then way else way.dropLast)
  else way ++ [name]

/-- The way that a place starts with. -/
def startOf (place : String) : List String := if place = "" then [] else [""]

/-- Goes on from a way that has to lead through directories. -/
def follow? (t : FileTree) (way : List String) : List String → Option (List String)
  | [] => some way
  | name :: names =>
    if t.isDirectory way && isName name then t.follow? (goTo way name) names else none

/-- The way to a place, where something may lie or not. -/
def find? (t : FileTree) (place : String) : Option (List String) :=
  if isPlace place then t.follow? (startOf (namesOf place).1) (namesOf place).2 else none

/-- What lies at a place. -/
def entry? (t : FileTree) (place : String) : Option FileEntry := (t.find? place).bind t.get?

/-- What reading a place gives. -/
def read (t : FileTree) (place : String) : FileText :=
  match t.entry? place with
  | none => .absent
  | some .directory => .unreadable
  | some (.file text) => .text text

/-- Writes a file. -/
def write (t : FileTree) (place text : String) : Bool × FileTree :=
  match t.find? place with
  | none => (false, t)
  | some way => if t.isDirectory way then (false, t) else (true, t.put way (.file text))

/-- Goes on from a way and creates the directories that are missing, up to a name that cannot be one. -/
def createFrom (way : List String) : List String → FileTree → FileTree
  | [], t => t
  | name :: names, t =>
    let next := goTo way name
    if !isName name then t
    else
      match t.get? next with
      | some .directory => createFrom next names t
      | some (.file _) => t
      | none => createFrom next names (t.put next .directory)

/-- Creates a directory with all that it lies in. The empty place needs no directory. -/
def createDirectories (t : FileTree) (place : String) : Bool × FileTree :=
  if place = "" then (true, t)
  else if isPlace place then
    let after := createFrom (startOf (namesOf place).1) (namesToCreate (namesOf place).2) t
    (after.entry? place == some .directory, after)
  else (false, t)

/-- The files of a directory, by name. -/
def filesIn (t : FileTree) (dir : String) : List (String × String) :=
  t.entries.entries.filterMap fun
    | (name, .file text) =>
      match Text.dropStart? (dir ++ "/").toList name.toList with
      | some rest => if rest.contains '/' then none else some (String.ofList rest, text)
      | none => none
    | _ => none

end FileTree

/-- File trees as the state of a computation. -/
instance : MonadFiles (StateM FileTree) where
  readFile place := return (← get).read place
  createDirectories place := modifyGet fun t => t.createDirectories place
  writeFile place text := modifyGet fun t => t.write place text

end ControlPlane
