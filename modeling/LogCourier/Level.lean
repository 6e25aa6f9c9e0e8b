import LogCourier.Bytes

/-!
# Log levels

The seven levels of a log message, from nothing at all to everything. They are
ordered by their code, which is also what a message header carries.
-/

namespace LogCourier

/-- How much a message matters. -/
inductive Level
  /-- No messages. -/
  | off
  /-- The program cannot go on. -/
  | fatal
  /-- Something went wrong. -/
  | error
  /-- Something may go wrong. -/
  | warn
  /-- Ordinary news. -/
  | info
  /-- News for whoever looks for a fault. -/
  | debug
  /-- Everything. -/
  | verbose
  deriving DecidableEq, Repr

namespace Level

/-- All levels, in order. -/
def all : List Level := [off, fatal, error, warn, info, debug, verbose]

/-- The number of a level in a message header. -/
def code : Level → UInt8
  | off => 0
  | fatal => 1
  | error => 2
  | warn => 3
  | info => 4
  | debug => 5
  | verbose => 6

/-- The name of a level. -/
def name : Level → String
  | off => "off"
  | fatal => "fatal"
  | error => "error"
  | warn => "warn"
  | info => "info"
  | debug => "debug"
  | verbose => "verbose"

/-- The level of that name. -/
def ofName? (s : String) : Option Level :=
  all.find? (·.name == s)

/-- The level of that code. -/
def ofCode? (n : UInt8) : Option Level :=
  all.find? (·.code == n)

/-- Levels are ordered by their codes. -/
instance : LE Level := ⟨fun a b => a.code ≤ b.code⟩

instance (a b : Level) : Decidable (a ≤ b) :=
  inferInstanceAs (Decidable (a.code ≤ b.code))

/-- The same levels in order, equal ones where they were. -/
def sort (ls : List Level) : List Level :=
  ls.mergeSort (fun a b => decide (a ≤ b))

/-- The least level of a list. -/
def min? (ls : List Level) : Option Level :=
  (sort ls).head?

/-- The greatest level of a list. -/
def max? (ls : List Level) : Option Level :=
  (sort ls).getLast?

theorem ofCode?_code (l : Level) : ofCode? l.code = some l := by
  cases l <;> decide

end Level

end LogCourier
