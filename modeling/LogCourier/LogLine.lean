import LogCourier.Event

/-!
# Log lines

An event is shown on one line: how loud it is, the log it belongs to if that is not
the courier's own, what happened, and the fields that go with it.

Which events are shown is said by the name of a severity. Only events that are at
least as loud are shown, and none at all for `off`. A name that is none stands for
`error`.
-/

namespace LogCourier

/-- The severities, the loudest first. -/
def Severity.all : List Severity :=
  [.error, .warn, .info, .debug, .trace]

/-- How far a severity is from the loudest. -/
def Severity.distance : Severity → Nat
  | error => 0
  | warn => 1
  | info => 2
  | debug => 3
  | trace => 4

/-- A field of a log line. -/
def FieldValue.shown : FieldValue → String
  | text s => s
  | number n => toString n
  | flag b => if b then "true" else "false"

namespace Event

/-- Whether an event is shown where events of that name are. -/
def isShown (filter : String) (e : Event) : Bool :=
  if filter = "off" then false
  else
    let least := (Severity.all.find? (·.name == filter)).getD .error
    e.severity.distance ≤ least.distance

/-- **The line of an event.** -/
def line (e : Event) : String :=
  let words := [e.severity.name.toUpper, e.target?.getD "dltrouter" ++ ":", e.message]
  String.intercalate " " (words ++ e.fields.map fun (name, v) => name ++ "=" ++ v.shown)

end Event

end LogCourier
