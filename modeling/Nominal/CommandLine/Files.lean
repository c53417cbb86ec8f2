import Nominal.CommandLine.FileFault
import Nominal.CommandLine.Run

/-!
# Directories as Values

A directory is a list of files, each with its path from the directory downwards. A
directory below it exists as long as a file in it does. In it a command runs without a
computer, and what it leaves behind is a directory again.

A path is followed name by name, and each name but the last has to lead to a directory
that exists. Nothing is taken back before it has been looked at: two dots behind a name
lead back only from a directory. Further up than the directory itself there are more
directories, and of what is in them nothing is known. Nothing is found there, and what
is written there leaves the directory as it is.

A slash at the end of a path asks for a directory. So no file can be read or written by
such a path.

## Main definitions

* `Path`: A path cut into names.
* `Place`: Where a path leads.
* `Files`: A directory.
* `Files.read`: The text of a file.
* `Files.write`: A directory with a file in it.
* `Files.surroundings`: A directory as the surroundings of a command.
-/

namespace Nominal

namespace CommandLine

/-- A path cut into names. -/
structure Path where
  /-- Whether the path starts at the very top. -/
  isAbsolute : Bool
  /-- The names between the slashes, dots among them. -/
  names : List String
  /-- Whether a slash stands at the end. -/
  endsInSlash : Bool
deriving DecidableEq, Repr

namespace Path

/-- A text cut at its slashes. -/
def cut : List Char → List (List Char)
  | [] => [[]]
  | c :: cs =>
    if c = '/' then [] :: cut cs
    else
      match cut cs with
      | part :: parts => (c :: part) :: parts
      | [] => [[c]]

/-- The names of a path. Slashes in a row are like one. -/
def namesOf (text : String) : List String :=
  ((cut text.toList).filter fun part => part != []).map String.ofList

/-- The number of bytes that is too long for a path. -/
def tooLong : Nat := 4096

/-- The number of bytes that a name may have. -/
def longestName : Nat := 255

/-- The path that a text is. -/
def ofText (text : String) : Except FileFault Path :=
  if text.isEmpty then .error .missing
  else if tooLong ≤ text.utf8ByteSize then .error .nameTooLong
  else .ok ⟨text.toList.head? == some '/', namesOf text, text.toList.getLast? == some '/'⟩

/-- The last name. A path of nothing but slashes leads to where it starts. -/
def last (p : Path) : String := p.names.getLast?.getD "."

end Path

/-- Where a path leads. -/
inductive Place where
  /-- What names lead to from the directory downwards. -/
  | below (names : List String)
  /-- A directory further up. -/
  | above
  /-- Something in a directory further up. -/
  | beside
deriving DecidableEq, Repr

namespace Place

/-- The place that a name leads to. -/
def child (p : Place) (name : String) : Place :=
  match p, name with
  | p, "." => p
  | below [], ".." => above
  | below names, ".." => below names.dropLast
  | _, ".." => above
  | below names, name => below (names ++ [name])
  | _, _ => beside

/-- The place that a name leads to, unless the name is too long. -/
def step (p : Place) (name : String) : Except FileFault Place :=
  if Path.longestName < name.utf8ByteSize then .error .nameTooLong else .ok (p.child name)

end Place

/-- What there is at a place. -/
inductive Entry where
  | file (text : String)
  | directory
  | nothing
deriving DecidableEq, Repr

/-- A directory: the paths of its files and their texts. -/
abbrev Files := List (String × String)

namespace Files

/-- The device that is always empty and keeps nothing. -/
def nullDevice : String := "/dev/null"

/-- What there is at a place. -/
def entry (files : Files) : Place → Entry
  | .above => .directory
  | .beside => .nothing
  | .below names =>
    match files.find? fun f => Path.namesOf f.1 == names with
    | some f => .file f.2
    | none =>
      if names.isEmpty || files.any fun f => names.isPrefixOf (Path.namesOf f.1) then
        .directory
      else .nothing

/-- The directory that a name leads to from a directory. -/
def enter (files : Files) (p : Place) (name : String) : Except FileFault Place := do
  let p ← p.step name
  match entry files p with
  | .directory => return p
  | .file _ => .error .notADirectory
  | .nothing => .error .missing

/-- The directory that the last name of a path belongs to. -/
def parent (files : Files) (path : Path) : Except FileFault Place :=
  path.names.dropLast.foldlM (enter files) (if path.isAbsolute then .above else .below [])

/-- The text of a file. -/
def read (files : Files) (path : String) : Except FileFault String := do
  if path = nullDevice then return ""
  let path ← Path.ofText path
  let p ← (← parent files path).step path.last
  match entry files p with
  | .file text => if path.endsInSlash then .error .notADirectory else return text
  | .directory => .error .isADirectory
  | .nothing => .error .missing

/-- A directory with a text at a place. -/
def put (files : Files) (p : Place) (text : String) : Files :=
  match p with
  | .below names =>
    if files.any fun f => Path.namesOf f.1 == names then
      files.map fun f => if Path.namesOf f.1 == names then (f.1, text) else f
    else files ++ [("/".intercalate names, text)]
  | _ => files

/-- A directory with a file in it. -/
def write (files : Files) (path text : String) : Except FileFault Files := do
  if path = nullDevice then return files
  let path ← Path.ofText path
  let directory ← parent files path
  if path.endsInSlash then .error .isADirectory
  let p ← directory.step path.last
  match entry files p with
  | .directory => .error .isADirectory
  | _ => return put files p text

/-- A directory as the surroundings of a command with something to read as its input. -/
def surroundings (input : String) : Surroundings (StateM Files) where
  readInput := return .ok input
  readFile path := return (read (← get) path).mapError FileFault.message
  writeFile path text := do
    match write (← get) path text with
    | .ok files => do
      set files
      return .ok ()
    | .error fault => return .error fault.message
  isTerminal := false

end Files

end CommandLine

end Nominal
