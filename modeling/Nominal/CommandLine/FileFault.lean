/-!
# What Can Be Wrong With a Path

A path may fail to lead to a file. What is wrong with it is told in words and by the
number that systems of the POSIX family give to it.

## Main definitions

* `FileFault`: What is wrong with a path.
* `FileFault.message`: A fault in words.
-/

namespace Nominal

namespace CommandLine

/-- What is wrong with a path. -/
inductive FileFault where
  /-- Nothing is there. -/
  | missing
  /-- The path goes on behind a file. -/
  | notADirectory
  /-- A directory is where a file should be. -/
  | isADirectory
  | nameTooLong
deriving DecidableEq, Repr

namespace FileFault

/-- Every fault. -/
def all : List FileFault := [.missing, .notADirectory, .isADirectory, .nameTooLong]

/-- The number of a fault. -/
def number : FileFault → Nat
  | missing => 2
  | notADirectory => 20
  | isADirectory => 21
  | nameTooLong => 36

/-- What a fault is called. -/
def name : FileFault → String
  | missing => "No such file or directory"
  | notADirectory => "Not a directory"
  | isADirectory => "Is a directory"
  | nameTooLong => "File name too long"

/-- A fault in words. -/
def message (f : FileFault) : String := s!"{f.name} (os error {f.number})"

/-- The fault of a number. -/
def ofNumber? (number : Nat) : Option FileFault := all.find? fun f => f.number == number

end FileFault

end CommandLine

end Nominal
