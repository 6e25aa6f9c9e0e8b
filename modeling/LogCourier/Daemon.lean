import LogCourier.Host
import LogCourier.Intake

/-!
# The daemon

A daemon takes frames from a socket, routes them, shows log lines in its own log,
and carries the files it is asked for. It has a router, an intake and a channel;
between two frames its transfers make moves.

It is started with its settings (`LogCourier.Daemon.start`), takes one frame at a
time (`LogCourier.Daemon.receive`), and says at its end what came and what went out
(`LogCourier.Daemon.stop`).
-/

namespace LogCourier

/-- The state of a daemon. -/
structure Daemon (σ : Type) where
  /-- What has been counted of the frames. -/
  router : Router
  /-- Where transfer records go. -/
  intake : Intake
  /-- The socket for messages. -/
  socket : Socket
  /-- Files, channel, network and log. -/
  site : Site (Channel × σ)

/-- What a daemon has counted when it ends. -/
structure Daemon.Summary where
  /-- Of the frames. -/
  router : Router
  /-- Of the messages. -/
  channel : Channel.Stats
  deriving DecidableEq

namespace Daemon

variable {σ : Type}

/-- What the daemon does with records. -/
def handlers : Router.Handlers (Intake × Site (Channel × σ)) where
  fileTransfer body := fun (intake, s) =>
    match intake.handle body with
    | (intake, told) => (intake, s.tell told)
  log := some fun body (intake, s) => (intake, s.tell [Router.logEvent body])
  tell event := fun (intake, s) => (intake, s.tell [event])

/-- **Start a daemon**: a socket for records, one for messages, and nothing counted. -/
def start (net : Network σ) (settings : Settings) (s : Site σ) :
    Except IoError (Daemon σ) × Site σ :=
  match net.bind settings.ingress s.output with
  | (.error e, output) => (.error e, { s with output })
  | (.ok near, output) =>
    match net.openOutput settings.target { s with output } with
    | (.error e, s) => (.error e, s)
    | (.ok socket, s) =>
      let s := s.tell
        [.listening near.text settings.target.text settings.ecu settings.transfers.enabled]
      (.ok { router := .fresh, intake := .ofConfig settings.pool, socket,
             site := s.withChannel (.fresh settings.channel) }, s)

/-- **Take a frame**, which came from somebody. -/
def receive (peer : String) (frame : Bytes) (d : Daemon σ) : Daemon σ :=
  match d.router.routeFrame handlers frame (d.intake, d.site) with
  | (.ok _, router, intake, site) => { d with router, intake, site }
  | (.error e, router, intake, site) =>
    { d with router, intake, site := site.tell [.frameDropped peer e.message] }

/-- Run all transfers to their end. -/
def finishTransfers (net : Network σ) (d : Daemon σ) : Daemon σ :=
  match d.intake.drain (net.emitter d.socket) d.site with
  | (intake, site) => { d with intake, site }

/-- Take frames, and run after each the transfers that it asks for. -/
def serve (net : Network σ) (frames : List (String × Bytes)) (d : Daemon σ) : Daemon σ :=
  frames.foldl (fun d (peer, frame) => (d.receive peer frame).finishTransfers net) d

/-- What has been counted. -/
def summary (d : Daemon σ) : Summary :=
  { router := d.router, channel := d.site.output.1.stats }

/-- What is told of a daemon that has ended. -/
def Summary.event (s : Summary) : Event :=
  .stopped (s.router.fileTransferRecords + s.router.logRecords) s.router.unknownRecords
    s.channel.messages s.channel.sendFailures

/-- **End a daemon.** -/
def stop (d : Daemon σ) : Summary × Site σ :=
  (d.summary, (d.site.tell [.shuttingDown, d.summary.event]).withoutChannel)

end Daemon

end LogCourier
