import LogCourier.Entry
import LogCourier.IoError
import LogCourier.Json

/-!
# Reports

What a transfer leaves behind when it is over: how far it came, what stopped it
if something did, and what became of the file.

A **failure** says where the transfer stopped and why. Before it ends, a transfer
that failed sends a last packet with a **notice** of it, which names the file; the
notice is a function of the failure and the name.

A report has a JSON form (`LogCourier.Transfer.Report.toJson`), and whether the
transfer was completed is told by the state in which it ended.
-/

namespace LogCourier.Transfer

/-- The state of a transfer, from its beginning to its end. -/
inductive State
  /-- It has not begun. -/
  | idle
  /-- Its file is to be opened. -/
  | opening
  /-- Its file is being handed on. -/
  | streaming
  /-- It came to the end of its file. -/
  | completed
  /-- It did not. -/
  | failed
  deriving DecidableEq, Repr

/-- The name of a state. -/
def State.name : State → String
  | idle => "idle"
  | opening => "opening"
  | streaming => "streaming"
  | completed => "completed"
  | failed => "failed"

/-- Why a transfer did not come to the end of its file. -/
inductive Failure
  /-- The file could not be opened. -/
  | opening (source : IoError)
  /-- Reading failed when so many bytes had been handed on. -/
  | reading (offset : Nat) (source : IoError)
  /-- The numbers for packets ran out when so many bytes had been handed on. -/
  | sequenceExhausted (offset : Nat)
  deriving DecidableEq

/-- The text of an error in the source of a transfer. -/
def sourceMessage (e : IoError) : String :=
  s!"I/O error: {e.message}"

/-- What is said of a file that cannot be opened. -/
def openingMessage (file : String) (e : IoError) : String :=
  s!"cannot open {file}: {sourceMessage e}"

/-- **The notice of a failure**, which is the payload of the last packet. -/
def Failure.notice (file : String) : Failure → String
  | opening e => s!"file transfer failed: {openingMessage file e}"
  | reading offset e => s!"file transfer of {file} aborted after {offset} bytes: {sourceMessage e}"
  | sequenceExhausted offset =>
    s!"file transfer of {file} aborted after {offset} bytes: too many packets"

/-- What became of the file. -/
inductive Deletion
  /-- Nobody wanted it removed. -/
  | notRequested
  /-- It was removed. -/
  | deleted
  /-- It was to be removed, and was kept because the transfer failed. -/
  | skipped
  /-- It was to be removed, and that failed. -/
  | failed (source : IoError)
  deriving DecidableEq

/-- The account of a transfer. -/
structure Report where
  /-- The application of the packets. -/
  appid : Id
  /-- The context of the packets. -/
  ctxid : Id
  /-- The path of the file. -/
  fileName : String
  /-- The state in which the transfer ended. -/
  state : State
  /-- The packets handed on, a notice included. -/
  packets : Nat
  /-- The bytes of the file handed on. -/
  bytes : Nat
  /-- What stopped the transfer, if something did. -/
  failure : Option Failure
  /-- What became of the file. -/
  deletion : Deletion
  deriving DecidableEq

/-- Whether the transfer came to the end of its file. -/
def Report.isCompleted (r : Report) : Bool :=
  r.state = .completed

/-! ### The written form -/

/-- A failure as JSON. -/
def Failure.toJson (file : String) : Failure → Json
  | opening e =>
    .object [("kind", .text "open"), ("message", .text (openingMessage file e))]
  | reading offset e =>
    .object [("kind", .text "read"), ("offset", .number offset),
      ("message", .text (sourceMessage e))]
  | sequenceExhausted offset =>
    .object [("kind", .text "sequence_exhausted"), ("offset", .number offset)]

/-- What became of the file, as JSON. -/
def Deletion.toJson : Deletion → Json
  | notRequested => .object [("kind", .text "not_requested")]
  | deleted => .object [("kind", .text "deleted")]
  | skipped => .object [("kind", .text "skipped")]
  | failed e => .object [("kind", .text "failed"), ("message", .text e.message)]

/-- A report as JSON. -/
def Report.toJson (r : Report) : Json :=
  .object
    [("appid", .text r.appid.text),
      ("ctxid", .text r.ctxid.text),
      ("file_name", .text r.fileName),
      ("state", .text r.state.name),
      ("packets_emitted", .number r.packets),
      ("bytes_sent", .number r.bytes),
      ("failure", (r.failure.map (Failure.toJson r.fileName)).getD .null),
      ("deletion", r.deletion.toJson)]

end LogCourier.Transfer
