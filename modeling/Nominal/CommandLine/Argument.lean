import Nominal.Text.Position

/-!
# Reading the Arguments of a Command

A command takes a file and options. An option is written by its long name behind two
dashes or by its letter behind one dash. A value follows an option as the next argument,
or in the same argument behind an equals sign, or right behind a letter. Letters may share
a dash, and the last of them may have a value. Behind an argument of two dashes everything
counts as a file.

A value that is an argument of its own is taken down first and looked at when the next
option or file is read. So a mistake in such a value goes unnoticed when the next argument
is one that the command does not know.

## Main definitions

* `UsageError`: Why arguments cannot be understood.
* `Slot`: What the arguments of a command tell.
* `Reading`: What has been read of the arguments.
* `Reading.ofArguments`: What arguments tell, if they can be understood.
-/

namespace Nominal

namespace CommandLine

open Text (Position)

/-- Why arguments cannot be understood. -/
inductive UsageError where
  /-- There are no arguments. -/
  | nothingGiven
  | unknownCommand
  | unknownArgument
  /-- A value is missing or is not one of those allowed. -/
  | invalidValue
  /-- A value does not have the form it should have. -/
  | malformedValue
  /-- There is a value where none belongs. -/
  | surplusValue
  /-- Options exclude each other, or the same one is given twice. -/
  | conflict
  /-- Help was asked for. -/
  | helpWanted
deriving DecidableEq, Repr

/-- What the arguments of a command tell. -/
inductive Slot where
  | path | text | raw | spans | color | format | position | name | style | output | write
  | help
deriving DecidableEq, Repr

namespace Slot

/-- Every option, with the file left out. -/
def options : List Slot :=
  [.text, .raw, .spans, .color, .format, .position, .name, .style, .output, .write, .help]

/-- The name behind two dashes. -/
def long : Slot → String
  | path => ""
  | text => "source"
  | raw => "raw"
  | spans => "spans"
  | color => "color"
  | format => "format"
  | position => "at"
  | name => "name"
  | style => "style"
  | output => "output"
  | write => "write"
  | help => "help"

/-- The letter behind one dash. -/
def letter? : Slot → Option Char
  | text => some 's'
  | output => some 'o'
  | write => some 'w'
  | help => some 'h'
  | _ => none

/-- Whether an option has a value. -/
def hasValue : Slot → Bool
  | raw | spans | write | help => false
  | _ => true

/-- The values that are allowed, if there are only some. -/
def allowed? : Slot → Option (List String)
  | color => some ["auto", "always", "never"]
  | format => some ["text", "json"]
  | style => some ["property", "field"]
  | _ => none

/-- What is wrong with a value. -/
def mistake? (slot : Slot) (value : String) : Option UsageError :=
  match slot with
  | path | output => if value.isEmpty then some .invalidValue else none
  | position =>
    match Position.parse value with
    | .ok _ => none
    | .error _ => some .malformedValue
  | _ =>
    match slot.allowed? with
    | some values => if values.contains value then none else some .invalidValue
    | none => none

/-- The slots that exclude a slot. -/
def rivals : Slot → List Slot
  | path => [text]
  | text => [path, write]
  | output => [write]
  | write => [output, text]
  | _ => []

end Slot

/-- What has been read of the arguments. -/
structure Reading where
  /-- What the arguments told, in their order. -/
  given : List (Slot × String)
  /-- An option or file that has not been looked at, and its value unless it is still to
      come. -/
  pending : Option (Slot × Option String)
deriving DecidableEq, Repr

namespace Reading

/-- Nothing has been read. -/
def empty : Reading := ⟨[], none⟩

/-- What was told for a slot. -/
def value? (r : Reading) (slot : Slot) : Option String := r.given.lookup slot

/-- Whether something was told for a slot. -/
def has (r : Reading) (slot : Slot) : Bool := (r.value? slot).isSome

/-- Keeps a value, unless there is one or there is something wrong with it. -/
def store (r : Reading) (slot : Slot) (value : String) : Except UsageError Reading :=
  if r.has slot then .error .conflict
  else
    match slot.mistake? value with
    | some e => .error e
    | none => .ok { r with given := r.given ++ [(slot, value)] }

/-- Looks at what is pending. -/
def commit (r : Reading) : Except UsageError Reading :=
  match r.pending with
  | none => .ok r
  | some (_, none) => .error .invalidValue
  | some (slot, some value) => store { r with pending := none } slot value

/-- Takes an option that has no value. -/
def takeFlag (r : Reading) (slot : Slot) : Except UsageError Reading := do
  let r ← r.commit
  if slot = .help then .error .helpWanted else r.store slot ""

/-- Takes an option that has a value, which may be in the next argument. -/
def takeOption (r : Reading) (slot : Slot) (value : Option String) :
    Except UsageError Reading := do
  let r ← r.commit
  match value with
  | some value => r.store slot value
  | none => return { r with pending := some (slot, none) }

/-- Takes a file. There is only one. -/
def takePath (r : Reading) (value : String) : Except UsageError Reading :=
  if r.has .path || (r.pending.map Prod.fst) == some .path then .error .unknownArgument
  else do return { ← r.commit with pending := some (.path, some value) }

/-- Takes an argument behind two dashes. -/
def takeLong (slots : List Slot) (r : Reading) (body : List Char) : Except UsageError Reading :=
  let name := String.ofList (body.takeWhile (· != '='))
  let value : Option String :=
    match body.dropWhile (· != '=') with
    | [] => none
    | _ :: value => some (String.ofList value)
  match slots.find? fun s => s != .path && s.long == name with
  | none => .error .unknownArgument
  | some slot =>
    if slot.hasValue then r.takeOption slot value
    else if value.isSome then .error .surplusValue
    else r.takeFlag slot

/-- Takes the letters behind one dash. -/
def takeLetters (slots : List Slot) : List Char → Reading → Except UsageError Reading
  | [], r => .ok r
  | c :: cs, r =>
    match slots.find? fun s => s.letter? == some c with
    | none => .error .unknownArgument
    | some slot =>
      if slot.hasValue then
        match cs with
        | [] => r.takeOption slot none
        | '=' :: value => r.takeOption slot (some (String.ofList value))
        | value => r.takeOption slot (some (String.ofList value))
      else
        match r.takeFlag slot with
        | .ok r => takeLetters slots cs r
        | .error e => .error e

/-- Takes an argument that is no option: the value of a pending option, or a file. -/
def takePlain (r : Reading) (value : String) : Except UsageError Reading :=
  match r.pending with
  | some (slot, none) => .ok { r with pending := some (slot, some value) }
  | _ => r.takePath value

/-- Takes an argument. -/
def take (slots : List Slot) (r : Reading) (argument : String) : Except UsageError Reading :=
  match argument.toList with
  | '-' :: '-' :: body => takeLong slots r body
  | '-' :: c :: cs => takeLetters slots (c :: cs) r
  | _ => r.takePlain argument

/-- Takes arguments one after the other. -/
def takeAll (slots : List Slot) (r : Reading) : List String → Except UsageError Reading
  | [] => .ok r
  | "--" :: paths => paths.foldlM takePath r
  | argument :: arguments => do takeAll slots (← r.take slots argument) arguments

/-- Whether what was told excludes itself. -/
def isContradictory (r : Reading) : Bool := r.given.any fun g => g.1.rivals.any r.has

/-- What arguments tell of the slots of a command, if they can be understood. -/
def ofArguments (slots : List Slot) (arguments : List String) : Except UsageError Reading := do
  let r ← (← takeAll slots empty arguments).commit
  if r.isContradictory then .error .conflict else return r

end Reading

end CommandLine

end Nominal
