import LogCourier.Router

/-!
# Asking for a transfer

An application asks for a file to be carried by handing a record to a **sink**.
The sink may be a router close by, which never refuses, or the way to one that is
far, for which the record is framed.

The entry is written before the sink is asked, so a name that has no written form
reaches nobody.
-/

namespace LogCourier

/-- Where an application hands its records, over a state `σ`. -/
structure Sink (σ : Type) where
  /-- Hand over a record. -/
  submit : Record.Kind → Bytes → σ → Except Record.Error Unit × σ

namespace Sink

variable {σ : Type}

/-- Straight into a router. -/
def ofRouter (h : Router.Handlers σ) : Sink (Router × σ) where
  submit kind body := fun (r, s) => (.ok (), r.dispatch h kind body s)

/-- Framed, to wherever `send` sends. -/
def framed (send : Bytes → σ → Except IoError Unit × σ) : Sink σ where
  submit kind body s :=
    match Record.frame kind body with
    | .error e => (.error e, s)
    | .ok frame =>
      match send frame s with
      | (.ok _, s) => (.ok (), s)
      | (.error e, s) => (.error (.io e), s)

end Sink

/-- What is told of a transfer that was asked for. -/
def Entry.requestedEvent (e : Entry) : Event :=
  .transferRequested e.appid e.ctxid e.fileName e.deleteFile

/-- **Ask for a transfer.** -/
def Entry.request {σ : Type} (e : Entry) (sink : Sink σ) (s : σ) :
    Except Record.Error (List Event) × σ :=
  match e.encode with
  | .error source => (.error (.encode source), s)
  | .ok body =>
    match sink.submit .fileTransfer body s with
    | (.error refusal, s) => (.error refusal, s)
    | (.ok _, s) => (.ok [e.requestedEvent], s)

end LogCourier
