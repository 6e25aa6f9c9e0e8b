import LogCourier.IoError.Texts

/-!
# Input and output errors

What can go wrong when a file or a socket is touched. Almost always it is the
operating system that refuses, with a number; a few refusals come before the
system is asked, and then there is only a text.

The numbers the library itself decides on have names here, so that a file
operation says `IoError.isDirectory` and not `21`.
-/

namespace LogCourier

/-- Why an input or output operation was refused. -/
inductive IoError
  /-- The system refused, with an error number, which has thirty-two bits. -/
  | code (n : Int32)
  /-- The operation was refused without asking the system. -/
  | refused (text : String)
  deriving DecidableEq, Repr

namespace IoError

/-- The text of an error: the system's words and its number, or the text given. -/
def message : IoError → String
  | code n => s!"{text n} (os error {n})"
  | refused s => s

/-! ### The errors the library decides on -/

/-- There is nothing at that path. -/
def notFound : IoError := code 2

/-- The descriptor is not open for this. -/
def badDescriptor : IoError := code 9

/-- The name at the end of a path is one that nobody may change. -/
def busy : IoError := code 16

/-- There is something at that path already. -/
def fileExists : IoError := code 17

/-- A path goes on below something that is no directory. -/
def notDirectory : IoError := code 20

/-- The operation does not work on directories. -/
def isDirectory : IoError := code 21

/-- What is asked for makes no sense. -/
def invalid : IoError := code 22

/-- A path, or one name in it, is too long. -/
def nameTooLong : IoError := code 36

/-- The directory still has entries. -/
def notEmpty : IoError := code 39

/-- Links lead on and on. -/
def tooManyLinks : IoError := code 40

/-- No network leads to that address. -/
def networkUnreachable : IoError := code 101

/-- A path contains a NUL character. -/
def nulInPath : IoError := refused "file name contained an unexpected NUL byte"

/-- A file that should hold text does not. -/
def notText : IoError := refused "stream did not contain valid UTF-8"

end IoError

end LogCourier
