import LogCourier.Event
import LogCourier.Record
import LogCourier.Text.Blank
import LogCourier.Text.Lossy

/-!
# Routing records

Frames come in, and the router hands the body of each to whoever takes records of
that kind. It counts what came, also what it could not hand on: frames of an
unknown kind, and frames without even that.

The two takers work on a state of their own. Taking log lines is optional; without
a taker they are counted all the same.
-/

namespace LogCourier

namespace Router

/-- Who takes records, over a state `σ`, and who is told of them. -/
structure Handlers (σ : Type) where
  /-- Take a transfer record. -/
  fileTransfer : Bytes → σ → σ
  /-- Take a log line, if anyone does. -/
  log : Option (Bytes → σ → σ)
  /-- Tell of something. -/
  tell : Event → σ → σ

end Router

/-- What a router has counted, one frame at a time. Counters of 64 bits would be full
after five hundred years at one frame a nanosecond, so these are plain numbers. -/
structure Router where
  /-- Log lines. -/
  logRecords : Nat
  /-- Transfer records. -/
  fileTransferRecords : Nat
  /-- Frames of an unknown kind. -/
  unknownRecords : Nat
  /-- Frames without a kind. -/
  emptyFrames : Nat
  deriving DecidableEq

namespace Router

variable {σ : Type}

/-- Nothing counted yet. -/
def fresh : Router :=
  { logRecords := 0, fileTransferRecords := 0, unknownRecords := 0, emptyFrames := 0 }

/-- **Hand a body to whoever takes its kind.** -/
def dispatch (h : Handlers σ) (kind : Record.Kind) (body : Bytes) (r : Router) (s : σ) :
    Router × σ :=
  match kind with
  | .fileTransfer =>
    ({ r with fileTransferRecords := r.fileTransferRecords + 1 }, h.fileTransfer body s)
  | .log =>
    ({ r with logRecords := r.logRecords + 1 },
      match h.log with
      | some take => take body s
      | none => h.tell (.logUnhandled body.length) s)

/-- Hand on a body whose kind is given by its tag. -/
def route (h : Handlers σ) (tag : UInt8) (body : Bytes) (r : Router) (s : σ) :
    Except Record.Error Record.Kind × Router × σ :=
  match Record.Kind.ofTag tag with
  | .ok kind => (.ok kind, r.dispatch h kind body s)
  | .error e =>
    (.error e, { r with unknownRecords := r.unknownRecords + 1 },
      h.tell (.unknownKind tag body.length) s)

/-- Hand on the body of a frame. -/
def routeFrame (h : Handlers σ) (frame : Bytes) (r : Router) (s : σ) :
    Except Record.Error Record.Kind × Router × σ :=
  match frame with
  | [] => (.error .emptyFrame, { r with emptyFrames := r.emptyFrames + 1 }, s)
  | tag :: body => r.route h tag body s

/-! ### Log lines -/

/-- The text of a log line: damaged characters are replaced and the blanks at its
end are left out. -/
def logText (body : Bytes) : String :=
  String.ofList (Text.trimEnd (Text.lossy body))

/-- The courier's own log line for that of an application. -/
def logEvent (body : Bytes) : Event :=
  .logLine (logText body)

end Router

end LogCourier
