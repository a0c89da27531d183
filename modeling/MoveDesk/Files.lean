import MoveDesk.Text.Split
import MoveDesk.Text.Utf8

/-!
# Files

A tree of files under the working folder. A path is followed name by name, as the system does:
each name but the last has to be a folder's. What lies outside of the tree is not known, and there
only folders are found on the way up.
-/

namespace MoveDesk

/-- Why a file cannot be read. -/
inductive FileError where
  /-- There is nothing of that name. -/
  | notFound
  /-- A folder has no content. -/
  | isFolder
  /-- A file has nothing in it that has a name. -/
  | notFolder
  /-- The path or a name in it is longer than the system allows. -/
  | tooLong
  /-- The path holds a character that ends it for the system. -/
  | badPath
  /-- The content is no text. -/
  | notText
  /-- The system refuses for another reason. -/
  | refused (reason : String)
deriving DecidableEq, Repr

/-- The text of the error. -/
def FileError.message : FileError → String
  | notFound => "No such file or directory (os error 2)"
  | isFolder => "Is a directory (os error 21)"
  | notFolder => "Not a directory (os error 20)"
  | tooLong => "File name too long (os error 36)"
  | badPath => "file name contained an unexpected NUL byte"
  | notText => "stream did not contain valid UTF-8"
  | refused reason => reason

/-- The content of the file that a path leads to, or why there is none. -/
abbrev FileAccess := String → Except FileError Bytes

namespace FileAccess

/-- The bytes as a text. -/
def asText (content : Bytes) : Except FileError String :=
  match Text.decode? content with
  | some text => .ok text
  | none => .error .notText

/-- The text of the file that the path leads to. -/
def readText (access : FileAccess) (path : String) : Except FileError String :=
  (access path).bind asText

end FileAccess

/-- What stands under a name. -/
inductive FileNode where
  /-- A file with its content. -/
  | file (content : Bytes)
  /-- A folder. -/
  | folder
deriving DecidableEq, Repr

/-- Files and folders under the working folder, the later ones in place of earlier ones. -/
structure Files where
  /-- Each with the names that lead to it. -/
  entries : List (List String × FileNode) := []
deriving DecidableEq, Repr

namespace Files

/-- A place that a path leads to. -/
inductive Place where
  /-- What the names lead to from the working folder. -/
  | inside (names : List String)
  /-- A folder outside of the working folder. -/
  | outside
deriving DecidableEq, Repr

/-- What the names lead to: what was put there, or a folder if something was put below. -/
def node? (files : Files) (names : List String) : Option FileNode :=
  match files.entries.reverse.lookup names with
  | some node => some node
  | none =>
    if names.isEmpty || files.entries.any (names.isPrefixOf ·.1) then some .folder else none

/-- The names in a path, the empty ones included. -/
def namesOf (path : String) : List String := (Text.split '/' path.toList).map String.ofList

/-- The name stands for the folder that it is looked up in. -/
def isHere (name : String) : Bool := name = "" || name = "."

/-- The largest number of bytes of a name. -/
def nameLimit : Nat := 255

/-- The largest number of bytes of a path. -/
def pathLimit : Nat := 4095

/-- Why nothing of that name is in a folder. -/
def missing (name : String) : FileError :=
  if nameLimit < name.utf8ByteSize then .tooLong else .notFound

/-- The place that a name leads to from a place. -/
def step (files : Files) (place : Place) (name : String) : Except FileError Place :=
  match place with
  | .outside => if isHere name || name = ".." then .ok .outside else .error (missing name)
  | .inside names =>
    match files.node? names with
    | none => .error .notFound
    | some (.file _) => .error .notFolder
    | some .folder =>
      if isHere name then .ok place
      else if name = ".." then
        .ok (if names.isEmpty then .outside else .inside names.dropLast)
      else if (files.node? (names ++ [name])).isSome then .ok (.inside (names ++ [name]))
      else .error (missing name)

/-- The place that a path leads to. -/
def find (files : Files) (path : String) : Except FileError Place :=
  let start : Place := if path.toList.head? = some '/' then .outside else .inside []
  if path.contains '\x00' then .error .badPath
  else if path = "" then .error .notFound
  else if pathLimit < path.utf8ByteSize then .error .tooLong
  else (namesOf path).foldlM files.step start

/-- The content of the file that the path leads to. -/
def read (files : Files) (path : String) : Except FileError Bytes := do
  match ← files.find path with
  | .outside => .error .isFolder
  | .inside names =>
    match files.node? names with
    | some (.file content) => .ok content
    | some .folder => .error .isFolder
    | none => .error .notFound

end Files

end MoveDesk
