import Nominal.CommandLine.Command
import Nominal.CommandLine.CheckReport
import Nominal.CommandLine.Extracted
import Nominal.Syntax.Dump

/-!
# Running a Command

A command reads its source, works on it, and prints what came out or writes it into a
file. What reading and writing mean is left to the surroundings, so that a command can run
in a directory that is a mere value as well as on a computer.

## Main definitions

* `Surroundings`: How files are read and written.
* `Outcome`: What a run prints, and how it ends.
* `Command.run`: Running a command.
* `runArguments`: Running the command that arguments ask for.
-/

namespace Nominal

namespace CommandLine

open Grammar (ParseFailure)
open Syntax (DumpStyle Palette)

/-- How files are read and written. What goes wrong is told in words. -/
structure Surroundings (m : Type → Type) where
  readInput : m (Except String String)
  readFile : String → m (Except String String)
  writeFile : String → String → m (Except String Unit)
  /-- Whether the output is shown on a terminal. -/
  isTerminal : Bool

/-- What a run prints, and how it ends. -/
structure Outcome where
  output : String
  /-- What is printed apart from the output. -/
  notes : String
  /-- Mistakes in the source, to be shown before the notes. -/
  mistakes : List Diagnostic
  exitCode : Nat

namespace Outcome

/-- A run that prints a text and ends well. -/
def printing (text : String) : Outcome := ⟨text, "", [], 0⟩

/-- A run that fails with a message. -/
def failing (message : String) : Outcome := ⟨"", s!"error: {message}\n", [], 1⟩

/-- A run that ends because a source has no tree. Running into a limit is an ordinary
    failure; anything else is a breakdown. -/
def withoutTree (failure : ParseFailure) : Outcome :=
  match failure with
  | .exceeded limit => failing limit.message
  | .stuck | .broken _ => ⟨"", parseFailureMessage failure ++ "\n", [], 101⟩

end Outcome

/-- A source that has been read. -/
structure LoadedSource where
  text : String
  /-- What reports call the source. -/
  name : String
  /-- The file that the source came from. -/
  path : Option String

/-- Reads the source of a command. A source among the arguments wins over a file. -/
def load {m : Type → Type} [Monad m] (s : Surroundings m) (a : SourceArguments) :
    m (Except String LoadedSource) := do
  match a.text, a.path with
  | some text, _ => return .ok ⟨text, "<source>", none⟩
  | none, none =>
    return .error "source is required: use a FILE argument, `-` for stdin, or -s/--source"
  | none, some path =>
    if path = "-" then
      match ← s.readInput with
      | .ok text => return .ok ⟨text, "<stdin>", none⟩
      | .error reason => return .error s!"failed to read stdin: {reason}"
    else
      match ← s.readFile path with
      | .ok text => return .ok ⟨text, path, some path⟩
      | .error reason => return .error s!"failed to read '{path}': {reason}"

/-- Shows the tree of a source. Mistakes do not stand in the way. -/
def showTree (source : String) (style : DumpStyle) : Outcome :=
  match Document.parse source with
  | .error failure => .withoutTree failure
  | .ok d =>
    let mistakes := if d.diagnostics.any Diagnostic.isError then d.diagnostics else []
    { Outcome.printing (d.tree.dump style) with mistakes := mistakes }

/-- Reports mistakes and findings. A source with mistakes makes the run fail. -/
def showCheck (source : LoadedSource) (asJson : Bool) : Outcome :=
  match Document.parse source.text with
  | .error failure => .withoutTree failure
  | .ok d =>
    let rule := Rule.anonymousType
    let ds := d.check rule
    let text :=
      if asJson then (checkReport source.name source.text rule ds).pretty ++ "\n"
      else String.join (ds.map fun d => d.render ++ "\n")
    { Outcome.printing text with exitCode := if ds.any Diagnostic.isError then 1 else 0 }

/-- Puts an extraction where it belongs. -/
def deliver {m : Type → Type} [Monad m] (s : Surroundings m) (e : Extracted)
    (path : Option String) : m Outcome := do
  match path with
  | none => return .printing e.text
  | some path =>
    match ← s.writeFile path e.text with
    | .ok () => return { Outcome.printing "" with
        notes := s!"extracted `{e.typeName}` into '{path}'\n" }
    | .error reason => return .failing s!"failed to write '{path}': {reason}"

/-- Extracts one type and delivers what came out. -/
def runExtract {m : Type → Type} [Monad m] (s : Surroundings m) (source : LoadedSource)
    (position : Option Text.Position) (name : Option String) (style : MemberStyle)
    (output : Option String) (inPlace : Bool) : m Outcome := do
  let plain := Request.plain
  let request : Request :=
    { plain with naming := { plain.naming with requested := name }, style := style }
  match extractSource source.text position request with
  | .error (.parse failure) => return .withoutTree failure
  | .error failure => return .failing failure.message
  | .ok e =>
    match inPlace, source.path with
    | true, none => return .failing "--write needs a source file"
    | true, some path => deliver s e (some path)
    | false, _ => deliver s e output

/-- Runs a command. -/
def Command.run {m : Type → Type} [Monad m] (s : Surroundings m) (c : Command) : m Outcome := do
  match ← load s c.source with
  | .error message => return .failing message
  | .ok source =>
    match c with
    | .ast _ withTrivia withSpans _ =>
      let palette := if c.isColored s.isTerminal then Palette.terminal else Palette.plain
      return showTree source.text ⟨withTrivia, withSpans, palette⟩
    | .check _ asJson _ => return showCheck source asJson
    | .extract _ position name style output inPlace =>
      runExtract s source position name style output inPlace

/-- What is told about the arguments when help is wanted or they cannot be understood. -/
def usage : String :=
  "usage: nominal ast (FILE | -s TEXT) [--raw] [--spans] [--color WHEN]\n"
    ++ "       nominal check (FILE | -s TEXT) [--format FORMAT] [--color WHEN]\n"
    ++ "       nominal extract (FILE | -s TEXT) [--at LINE:COL] [--name NAME] [--style STYLE]\n"
    ++ "                       [-o FILE | -w]\n"

/-- The run that ends because of the arguments. -/
def Outcome.misused : UsageError → Outcome
  | .helpWanted => .printing usage
  | _ => ⟨"", usage, [], 2⟩

/-- Runs the command that arguments ask for. -/
def runArguments {m : Type → Type} [Monad m] (s : Surroundings m) (arguments : List String) :
    m Outcome :=
  match Command.ofArguments arguments with
  | .error e => return .misused e
  | .ok c => c.run s

end CommandLine

end Nominal
