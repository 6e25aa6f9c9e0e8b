import LogCourier.Settings
import LogCourier.Trigger

/-!
# One transfer, from here or from afar

A file can be carried in two ways. Either this very process does it: it opens a
way to where messages go, takes the record into a pool of its own, and runs the
transfer. Or it asks a daemon: it opens a way to where the daemon takes records,
and sends one.

The network is a `LogCourier.Network`: it makes sockets, and what is sent on a
`LogCourier.Socket` goes to the address that the socket was made for. All else is as for
every transfer: a `LogCourier.Site` has the files, the state of the network, and the log.
-/

namespace LogCourier

/-- A socket that sends. -/
structure Socket where
  /-- Its own address. -/
  near : SocketAddress
  /-- Where it sends to. -/
  far : SocketAddress
  deriving DecidableEq

/-- The sockets of a host, with a state `σ`. Addresses are answered by the near end's. -/
structure Network (σ : Type) where
  /-- The time. -/
  now : σ → Instant
  /-- Wait for so many nanoseconds. -/
  sleep : Nat → σ → σ
  /-- Make a socket that sends to an address. -/
  connect : SocketAddress → σ → Except IoError SocketAddress × σ
  /-- Send one datagram on a socket. -/
  send : Socket → List Bytes → σ → Channel.Delivery × σ
  /-- Make a socket that receives at an address. -/
  bind : SocketAddress → σ → Except IoError SocketAddress × σ
  /-- The time from which messages count. -/
  origin : Instant

/-- A channel as somebody who takes packets. -/
def Channel.emitter {σ : Type} (out : Channel.Outlet σ) (origin : Instant) :
    Emitter (Channel × σ) where
  ticks := fun (_, s) => (out.now s).ticks origin
  take p := fun (c, s) =>
    match c.emit out p s with
    | (back, told, c, s) => (back, told, c, s)

namespace Network

variable {σ : Type}

/-- Where the datagrams of a channel go that has that socket. -/
def outlet (net : Network σ) (socket : Socket) : Channel.Outlet σ where
  now := net.now
  sleep := net.sleep
  send := net.send socket

/-- Who takes packets that are to go out on a socket. -/
def emitter (net : Network σ) (socket : Socket) : Emitter (Channel × σ) :=
  Channel.emitter (net.outlet socket) net.origin

/-- **A socket that sends to an address**, for whatever it is. -/
def openOutput (net : Network σ) (target : SocketAddress) (s : Site σ) :
    Except IoError Socket × Site σ :=
  match net.connect target s.output with
  | (.error e, output) => (.error e, { s with output })
  | (.ok near, output) =>
    (.ok { near, far := target },
      { s with output, log := s.log ++ [.outputConnected near.text target.text] })

end Network

namespace Site

variable {σ : Type}

/-- A site with a channel before the network. -/
def withChannel (s : Site σ) (c : Channel) : Site (Channel × σ) :=
  { files := s.files, output := (c, s.output), log := s.log, disk := s.disk }

/-- A site without the channel. -/
def withoutChannel (s : Site (Channel × σ)) : Site σ :=
  { files := s.files, output := s.output.2, log := s.log, disk := s.disk }

/-- A site where something more has been told. -/
def tell (s : Site σ) (told : List Event) : Site σ :=
  { s with log := s.log ++ told }

end Site

/-! ### From here -/

/-- Why a file was not carried from here. -/
inductive LocalError
  /-- Transfers are switched off. -/
  | disabled
  /-- There is no way to where messages go. -/
  | output (source : IoError)
  /-- The name of the file has no written form. -/
  | encode (source : Entry.EncodeError)
  /-- The record was refused. -/
  | refused (source : Pool.Refusal)
  /-- The transfer crashed. -/
  | crashed
  deriving DecidableEq

/-- The text of an error. -/
def LocalError.message : LocalError → String
  | disabled => "file transfer is disabled in the configuration"
  | output source => source.message
  | encode source => source.message
  | refused source => source.message
  | crashed => "transfer worker did not finish"

/-- What a channel has counted, as an event. -/
def Channel.countedEvent (c : Channel) : Event :=
  .channelCounted c.stats.messages c.stats.bytes.toNat c.stats.sendFailures c.stats.dropped

namespace Network

variable {σ : Type}

/-- Take a record into a fresh pool and run its transfer. -/
def carry (net : Network σ) (socket : Socket) (settings : Settings) (record : Bytes)
    (s : Site (Channel × σ)) : Except LocalError Transfer.Report × Site (Channel × σ) :=
  match (Pool.fresh settings.pool).submit record with
  | (.error e, _) => (.error (.refused e), s)
  | (.ok told, pool) =>
    match pool.drain (net.emitter socket) (s.tell told) with
    | (pool, s) =>
      match (pool.transfer? 0).bind Transfer.report? with
      | none => (.error .crashed, s)
      | some report => (.ok report, s.tell [s.output.1.countedEvent])

/-- **Carry a file from here.** -/
def transferLocal (net : Network σ) (settings : Settings) (entry : Entry) (s : Site σ) :
    Except LocalError Transfer.Report × Site σ :=
  if settings.transfers.enabled = false then (.error .disabled, s)
  else
    match net.openOutput settings.target s with
    | (.error e, s) => (.error (.output e), s)
    | (.ok socket, s) =>
      match entry.encode with
      | .error e => (.error (.encode e), s)
      | .ok record =>
        match net.carry socket settings record (s.withChannel (.fresh settings.channel)) with
        | (answer, s) => (answer, s.withoutChannel)

/-! ### From afar -/

/-- Send one frame. -/
def sendFrame (net : Network σ) (socket : Socket) (frame : Bytes) (s : Site σ) :
    Except IoError Unit × Site σ :=
  match net.send socket [frame] s.output with
  | (.sent _, output) => (.ok (), { s with output })
  | (.failed e, output) => (.error e, { s with output })
  | (.thrown, output) => (.error (.refused "send did not return"), { s with output })

/-- **Ask a daemon for a transfer.** -/
def trigger (net : Network σ) (settings : Settings) (entry : Entry) (s : Site σ) :
    Except Record.Error Unit × Site σ :=
  match net.openOutput settings.ingress s with
  | (.error e, s) => (.error (.io e), s)
  | (.ok socket, s) =>
    match entry.request (Sink.framed (net.sendFrame socket)) s with
    | (.error e, s) => (.error e, s)
    | (.ok told, s) =>
      (.ok (), s.tell (told ++ [.requestSent settings.ingress.text entry.fileName]))

end Network

end LogCourier
