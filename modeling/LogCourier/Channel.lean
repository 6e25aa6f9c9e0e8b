import LogCourier.Clock
import LogCourier.Event
import LogCourier.IoError
import LogCourier.Dlt.Buffer

/-!
# The message channel

A channel turns packets into messages and sends each as one datagram. It keeps
what the next message depends on: its number, how far the current burst has come,
when the last datagram went out, and what has been counted so far. The arguments of
a message are written into a buffer that the channel keeps and uses again.

**Pacing.** Every so many packets – a burst – the channel waits until a given time
has passed since the last datagram. A packet that fits no message is dropped
before anything of this is touched: it neither counts as part of a burst nor
takes a message number.

The world outside is an `LogCourier.Channel.Outlet`: a clock, a way to sleep, and
a way to send, each over a state of its own. Sending may fail, and it may also
throw, in which case the channel is left as it was at that very moment – the
burst counted on, the message number not. The same happens before sending if the
time to wait until is later than a clock can tell.

The main functions are `LogCourier.Channel.send` and, for whoever does not look
at the result, `LogCourier.Channel.emit`.
-/

namespace LogCourier

namespace Channel

/-- How a channel is set up. -/
structure Config where
  /-- The control unit that every message names. -/
  ecu : Id
  /-- The packets of a burst; with `0` there is no pacing. -/
  burstCount : UInt32
  /-- The nanoseconds between the last datagram of a burst's packets and the
  packet that completes it. -/
  burstInterval : Nat
  deriving DecidableEq

/-- The usual packets of a burst. -/
def defaultBurstCount : UInt32 := 5

/-- The usual nanoseconds between bursts. -/
def defaultBurstInterval : Nat := 5000000

/-- Bursts of five, five milliseconds apart. -/
def Config.default : Config :=
  { ecu := Id.ecu1, burstCount := defaultBurstCount, burstInterval := defaultBurstInterval }

/-- What a channel has counted. Datagrams and packets are counted one by one: at one a
nanosecond it would take five hundred years to fill a counter of 64 bits, so these are
plain numbers. Bytes are counted as the outlet reports them, and that counter may begin
again. -/
structure Stats where
  /-- Datagrams that went out. -/
  messages : Nat
  /-- Bytes that went out, as the outlet reported them, in a counter of 64 bits. -/
  bytes : UInt64
  /-- Datagrams that did not go out. -/
  sendFailures : Nat
  /-- Packets that fit no message. -/
  dropped : Nat
  deriving DecidableEq

/-- Nothing counted yet. -/
def Stats.zero : Stats :=
  { messages := 0, bytes := 0, sendFailures := 0, dropped := 0 }

/-- Why a packet did not go out. -/
inductive Error
  /-- The datagram could not be sent. -/
  | io (source : IoError)
  /-- The packet fits no message. -/
  | tooLarge (source : Dlt.TooLarge)
  deriving DecidableEq

/-- The text of an error. -/
def Error.message : Error → String
  | io source => s!"I/O error: {source.message}"
  | tooLarge source => source.message

/-- What came of handing a datagram to the outlet. -/
inductive Delivery
  /-- It went out, and so many bytes were reported. -/
  | sent (n : Nat)
  /-- It did not go out. -/
  | failed (source : IoError)
  /-- The outlet threw. -/
  | thrown
  deriving DecidableEq

/-- Where datagrams go, over a state `σ`. A datagram is handed over in slices. -/
structure Outlet (σ : Type) where
  /-- The time. -/
  now : σ → Instant
  /-- Wait for so many nanoseconds. -/
  sleep : Nat → σ → σ
  /-- Send one datagram. -/
  send : List Bytes → σ → Delivery × σ

/-- What came of a packet. -/
inductive Outcome
  /-- It went out, and so many bytes were reported. -/
  | sent (n : Nat)
  /-- It did not go out. -/
  | error (e : Error)
  /-- The outlet threw, or there is no such time as the one to wait until; and so the
  channel threw. -/
  | thrown
  deriving DecidableEq

end Channel

/-- The state of a channel. -/
structure Channel where
  /-- How it is set up. -/
  config : Channel.Config
  /-- The number of the next message. -/
  counter : UInt8
  /-- The packets framed so far, in a counter of 32 bits. -/
  burst : UInt32
  /-- When the last datagram was done with, if there was one. -/
  lastSend : Option Instant
  /-- The buffer for arguments, with whatever was written there last. -/
  scratch : Bytes
  /-- What has been counted. -/
  stats : Channel.Stats
  deriving DecidableEq

namespace Channel

variable {σ : Type}

/-- A channel that has sent nothing. -/
def fresh (config : Config) : Channel :=
  { config, counter := 0, burst := 0, lastSend := none, scratch := [], stats := Stats.zero }

/-! ### One packet -/

/-- **Frame a packet**: its arguments are written into the buffer, and the message that they
make gets its header. -/
def frame (c : Channel) (p : Packet) : Except Dlt.TooLarge Dlt.Header × Channel :=
  match p.put c.scratch with
  | (.error e, scratch) => (.error e, { c with scratch })
  | (.ok _, scratch) =>
    (Dlt.Header.log c.counter scratch.length c.config.ecu p.timestamp p.content.level
      Packet.argumentCount p.appid p.ctxid, { c with scratch })

/-- A packet that fits no message. -/
def drop (c : Channel) : Channel :=
  { c with stats := { c.stats with dropped := c.stats.dropped + 1 } }

/-- One more packet of the burst. -/
def countBurst (c : Channel) : Channel :=
  { c with burst := c.burst + 1 }

/-- **The nanoseconds to wait** before the packet just counted goes out: none,
unless it completes a burst and something was sent before. There is no answer if the
burst's interval after that is later than a clock can tell. -/
def delay? (c : Channel) (now : Instant) : Option Nat :=
  if c.config.burstCount = 0 ∨ c.burst % c.config.burstCount ≠ 0 then some 0
  else match c.lastSend with
    | none => some 0
    | some last => (last.later? c.config.burstInterval).map (·.since now)

/-- The outlet after the wait, if there is one. -/
def await (out : Outlet σ) (nanos : Nat) (s : σ) : σ :=
  if nanos = 0 then s else out.sleep nanos s

/-- A datagram done with at that time: the number is taken. -/
def advance (c : Channel) (now : Instant) : Channel :=
  { c with counter := c.counter + 1, lastSend := some now }

/-- A datagram that went out. -/
def countSent (c : Channel) (n : Nat) : Channel :=
  { c with stats :=
    { c.stats with messages := c.stats.messages + 1, bytes := c.stats.bytes + UInt64.ofNat n } }

/-- A datagram that did not. -/
def countFailure (c : Channel) : Channel :=
  { c with stats := { c.stats with sendFailures := c.stats.sendFailures + 1 } }

/-- **Send one packet**: frame it, wait if a burst is complete, hand it over. -/
def send (out : Outlet σ) (p : Packet) (c : Channel) (s : σ) : Outcome × Channel × σ :=
  match c.frame p with
  | (.error e, c) => (.error (.tooLarge e), c.drop, s)
  | (.ok header, c) =>
    let c := c.countBurst
    match c.delay? (out.now s) with
    | none => (.thrown, c, s)
    | some nanos =>
      match out.send [header.bytes, c.scratch] (await out nanos s) with
      | (.sent n, s) => (.sent n, (c.advance (out.now s)).countSent n, s)
      | (.failed e, s) => (.error (.io e), (c.advance (out.now s)).countFailure, s)
      | (.thrown, s) => (.thrown, c, s)

/-- What is told when a packet did not go out. -/
def Outcome.events (p : Packet) : Outcome → List Event
  | .error e => [.sendFailed p.appid p.ctxid p.sequence e.message]
  | .sent _ | .thrown => []

/-- Send one packet and only tell of it if it did not go out. The first answer is
whether the channel came back, rather than throw. -/
def emit (out : Outlet σ) (p : Packet) (c : Channel) (s : σ) :
    Bool × List Event × Channel × σ :=
  match c.send out p s with
  | (outcome, c, s) => (decide (outcome ≠ .thrown), outcome.events p, c, s)

end Channel

end LogCourier
