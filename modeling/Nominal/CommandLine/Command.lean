import Nominal.CommandLine.Argument
import Nominal.Extraction.Declaration

/-!
# Commands

There are three commands. One shows the tree of a source, one reports what could be
extracted from it, and one extracts. The source is named the same way for all of them.

## Main definitions

* `SourceArguments`: Where the source comes from.
* `Command`: What to do.
* `Command.ofArguments`: The command that arguments ask for.
-/

namespace Nominal

namespace CommandLine

open Text (Position)

/-- When colors are used. -/
inductive Coloring where
  /-- If the output is shown on a terminal. -/
  | auto
  | always
  | never
deriving DecidableEq, Repr

namespace Coloring

/-- Whether colors are used, given whether the output is shown on a terminal. -/
def isOn : Coloring → Bool → Bool
  | auto, isTerminal => isTerminal
  | always, _ => true
  | never, _ => false

/-- The choice that a word stands for. -/
def ofWord : Option String → Coloring
  | some "always" => always
  | some "never" => never
  | _ => auto

end Coloring

/-- Where the source comes from. -/
structure SourceArguments where
  path : Option String
  /-- The source itself. -/
  text : Option String
deriving DecidableEq, Repr

/-- What to do. -/
inductive Command where
  /-- Show the tree, with blanks and comments or spans if asked for. -/
  | ast (source : SourceArguments) (withTrivia withSpans : Bool) (coloring : Coloring)
  /-- Report mistakes and findings, as JSON if asked for. -/
  | check (source : SourceArguments) (asJson : Bool) (coloring : Coloring)
  /-- Extract one type: into the source file, into another file, or onto the output. -/
  | extract (source : SourceArguments) (position : Option Position) (name : Option String)
      (style : MemberStyle) (output : Option String) (inPlace : Bool)
deriving DecidableEq, Repr

/-- The names of commands. -/
inductive CommandName where
  | ast | check | extract
deriving DecidableEq, Repr

namespace CommandName

/-- The command of a name. -/
def ofText? : String → Option CommandName
  | "ast" => some ast
  | "check" => some check
  | "extract" => some extract
  | _ => none

/-- What the arguments of a command tell. -/
def slots : CommandName → List Slot
  | ast => [.path, .text, .raw, .spans, .color, .help]
  | check => [.path, .text, .format, .color, .help]
  | extract => [.path, .text, .position, .name, .style, .output, .write, .help]

end CommandName

namespace Command

/-- What a reading tells of the source. -/
def sourceOf (r : Reading) : SourceArguments := ⟨r.value? .path, r.value? .text⟩

/-- The command that a reading asks for. -/
def ofReading (name : CommandName) (r : Reading) : Command :=
  match name with
  | .ast =>
    .ast (sourceOf r) (r.has .raw) (r.has .spans) (Coloring.ofWord (r.value? .color))
  | .check =>
    .check (sourceOf r) (r.value? .format == some "json") (Coloring.ofWord (r.value? .color))
  | .extract =>
    .extract (sourceOf r) ((r.value? .position).bind fun text => (Position.parse text).toOption)
      (r.value? .name) (if r.value? .style = some "field" then .field else .property)
      (r.value? .output) (r.has .write)

/-- What is wrong with a request for help on commands. Only a single command, or the
    request for help itself, has help. -/
def helpOn : List String → UsageError
  | [] => .helpWanted
  | [name] =>
    if name = "help" || (CommandName.ofText? name).isSome then .helpWanted else .unknownCommand
  | _ => .unknownCommand

/-- What is wrong with arguments that do not start with a command. -/
def misuse (first : String) (others : List String) : UsageError :=
  match first.toList with
  | ['-', '-'] =>
    match others with
    | [] => .nothingGiven
    | next :: _ =>
      if next = "help" || (CommandName.ofText? next).isSome then .unknownArgument
      else .unknownCommand
  | '-' :: '-' :: body =>
    match body.takeWhile (· != '='), body.dropWhile (· != '=') with
    | name, value =>
      if String.ofList name != Slot.help.long then .unknownArgument
      else if value.isEmpty then .helpWanted
      else .surplusValue
  | '-' :: c :: _ => if Slot.help.letter? = some c then .helpWanted else .unknownArgument
  | _ => .unknownCommand

/-- The command that arguments ask for. -/
def ofArguments : List String → Except UsageError Command
  | [] => .error .nothingGiven
  | first :: others =>
    match CommandName.ofText? first with
    | some name => (Reading.ofArguments name.slots others).map (ofReading name)
    | none =>
      if first = "help" then .error (helpOn others) else .error (misuse first others)

/-- Whether the output of a command is colored, given whether it is shown on a terminal.
    What other programs read is not. -/
def isColored (c : Command) (isTerminal : Bool) : Bool :=
  match c with
  | ast _ _ _ coloring => coloring.isOn isTerminal
  | check _ asJson coloring => !asJson && coloring.isOn isTerminal
  | extract .. => false

/-- Where the source of a command comes from. -/
def source : Command → SourceArguments
  | ast source .. | check source .. | extract source .. => source

end Command

end CommandLine

end Nominal
