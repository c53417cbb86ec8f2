import Nominal.CommandLine.FileFault
import Nominal.CommandLine.Run

/-!
# The Program

The command line on a computer: files are files, and what a run prints is printed.

## Main definitions

* `main`: Runs the command that the arguments ask for.
-/

namespace Nominal

namespace Computer

open CommandLine (FileFault Surroundings Outcome)

/-- The number of what went wrong. Some calls negate it. -/
def number? (e : IO.Error) : Option Nat :=
  let code? : Option UInt32 :=
    match e with
    | .noFileOrDirectory _ code _ | .inappropriateType _ code _
    | .invalidArgument _ code _ => some code
    | _ => none
  code?.map fun code => min code.toNat (0 - code).toNat

/-- What went wrong with a file, in words. -/
def reason (e : IO.Error) : String :=
  match (number? e).bind FileFault.ofNumber? with
  | some fault => fault.message
  | none => toString e

/-- Tells in words what went wrong. -/
def attempt {α : Type} (action : IO α) : IO (Except String α) := do
  try
    return .ok (← action)
  catch e =>
    return .error (reason e)

/-- Everything that is still to be read from a stream. -/
partial def readRest (stream : IO.FS.Stream) (read : String) : IO String := do
  let line ← stream.getLine
  if line.isEmpty then return read else readRest stream (read ++ line)

/-- The computer as the surroundings of a command. -/
def surroundings : IO (Surroundings IO) := do
  let input ← IO.getStdin
  let isTerminal := (← (← IO.getStdout).isTty) && (← (← IO.getStderr).isTty)
  return {
    readInput := attempt (readRest input "")
    readFile := fun path => attempt (IO.FS.readFile path)
    writeFile := fun path text => attempt (IO.FS.writeFile path text)
    isTerminal := isTerminal }

end Computer

end Nominal

/-- Runs the command that the arguments ask for. -/
def main (arguments : List String) : IO UInt32 := do
  let surroundings ← Nominal.Computer.surroundings
  let outcome ← Nominal.CommandLine.runArguments surroundings arguments
  for mistake in outcome.mistakes do
    IO.eprintln mistake.render
  IO.eprint outcome.notes
  IO.print outcome.output
  return outcome.exitCode.toUInt32
