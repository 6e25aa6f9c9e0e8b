import LogCourier.ChunkReader
import LogCourier.Event
import LogCourier.Packet
import LogCourier.Transfer.Report

/-!
# Carrying one file

A transfer opens its file, hands it on chunk by chunk, and reports. It is written
down as a machine that takes one step at a time, because transfers run side by
side: a step asks the surroundings for at most one thing – to open the file, to
read from it, to take a packet, to remove the file – and between two steps
anything may happen elsewhere.

| phase | the step asks for | and then |
| --- | --- | --- |
| `opening` | the file, and room for a chunk | `reading`, or `notifying` |
| `reading` | a reading | `reading` on, `handing`, `closing` or `notifying` |
| `handing` | a packet to be taken | `reading` |
| `notifying` | a notice to be taken | `over` |
| `closing` | the file to be removed, if that is wanted | `over` |

Two things are worth knowing.

* **The last sequence number is kept back for a notice.** When only that one is
  left and there is another chunk, the transfer fails
  (`LogCourier.Transfer.Failure.sequenceExhausted`).
* **Whoever takes a packet may throw.** The transfer is then `crashed`: it counts
  nothing, says nothing, and leaves the file where it is. So it is if there is no
  room for a chunk.

A file is removed in the phase `closing` only, and that is entered only from
`reading`, when the chunk reader says that the file is finished.
-/

namespace LogCourier

namespace Transfer

/-- What a transfer does next. -/
inductive Phase
  /-- Open the file. -/
  | opening
  /-- Read from it. -/
  | reading
  /-- Hand on a chunk. -/
  | handing (chunk : Bytes)
  /-- Hand on the notice of a failure. -/
  | notifying (failure : Failure)
  /-- Remove the file, if that is wanted, and finish. -/
  | closing
  /-- Nothing: there is a report. -/
  | over (report : Report)
  /-- Nothing: a packet was not taken but thrown, or there was no room for a chunk. -/
  | crashed
  deriving DecidableEq

/-- What came of opening a file to read it in chunks. -/
inductive Opening
  /-- It is open. -/
  | opened
  /-- It could not be opened. -/
  | failed (source : IoError)
  /-- It is open, but there is no room for a chunk. -/
  | noRoom
  deriving DecidableEq

/-- What a transfer asks of the world around it, which has a state `σ`. -/
structure Surroundings (σ : Type) where
  /-- Open the file of that name, to read it in chunks of so many bytes. -/
  openSource : String → Nat → σ → Opening × σ
  /-- Read at most so many bytes of it. -/
  read : Nat → σ → Reading × σ
  /-- The time, in ticks. -/
  ticks : σ → UInt32
  /-- Take a packet. The answer is `false` if that threw. -/
  take : Packet → σ → Bool × σ
  /-- Remove the file of that name. -/
  remove : String → σ → Except IoError Unit × σ
  /-- Tell of something. -/
  tell : Event → σ → σ

end Transfer

/-- A transfer under way. Its numbers for packets have 32 bits, so it does not count
more packets than there are; nor more bytes than its chunks have, which with chunks that
fit a message is far from what 64 bits count. -/
structure Transfer where
  /-- What was asked for. -/
  entry : Entry
  /-- How far the chunks have come. -/
  reader : ChunkReader
  /-- The number of the next packet. -/
  sequence : UInt32
  /-- The packets taken. -/
  packets : Nat
  /-- The bytes of the file in the packets taken. -/
  bytes : Nat
  /-- Its state, which the report tells. -/
  state : Transfer.State
  /-- What is next. -/
  phase : Transfer.Phase
  deriving DecidableEq

namespace Transfer

variable {σ : Type}

/-- A transfer that has not begun. -/
def fresh (entry : Entry) (chunkSize : Nat) : Transfer where
  entry := entry
  reader := ChunkReader.fresh chunkSize
  sequence := 0
  packets := 0
  bytes := 0
  state := .idle
  phase := .opening

/-- Whether there is nothing left to do. -/
def isOver (t : Transfer) : Bool :=
  match t.phase with
  | .over _ | .crashed => true
  | _ => false

/-- The report, if there is one. -/
def report? (t : Transfer) : Option Report :=
  match t.phase with
  | .over r => some r
  | _ => none

/-- The sequence number that only a notice may have. -/
def lastSequence : UInt32 := 4294967295

/-! ### What a step makes of an answer -/

/-- The packet with that payload. -/
def packet (t : Transfer) (content : Packet.Content) (payload : Bytes) (ticks : UInt32) :
    Packet where
  payload := payload
  content := content
  appid := t.entry.appid
  ctxid := t.entry.ctxid
  sequence := t.sequence
  timestamp := ticks

/-- A packet has been taken. Its number is not used again, except that there is
none after the last. -/
def countPacket (t : Transfer) : Transfer :=
  { t with
    packets := t.packets + 1
    sequence := if t.sequence = lastSequence then lastSequence else t.sequence + 1 }

/-- The report of a transfer that ends now. -/
def reportWith (t : Transfer) (failure : Option Failure) (deletion : Deletion) : Report where
  appid := t.entry.appid
  ctxid := t.entry.ctxid
  fileName := t.entry.fileName
  state := t.state
  packets := t.packets
  bytes := t.bytes
  failure := failure
  deletion := deletion

/-- The transfer with something else to do next. -/
def go (t : Transfer) (phase : Phase) : Transfer :=
  { t with phase }

/-- The transfer in another state. -/
def enter (t : Transfer) (state : State) : Transfer :=
  { t with state }

/-- What to do about something that the chunk reader has completed. -/
def phaseAfter (t : Transfer) : ChunkReader.Outcome → Phase
  | .chunk bs =>
    if t.sequence = lastSequence then .notifying (.sequenceExhausted t.bytes) else .handing bs
  | .finished => .closing
  | .failed e => .notifying (.reading t.bytes e)

/-- The transfer after a reading. -/
def accept (t : Transfer) (reading : Reading) : Transfer :=
  match t.reader.feed reading with
  | (reader, none) => { t with reader }
  | (reader, some outcome) => { t with reader, phase := t.phaseAfter outcome }

/-- The transfer after a chunk has been taken. -/
def handed (t : Transfer) (chunk : Bytes) : Transfer :=
  { t.countPacket with bytes := t.bytes + chunk.length, phase := .reading }

/-- The transfer after the notice of a failure has been taken. -/
def failed (t : Transfer) (failure : Failure) : Transfer :=
  let t := t.countPacket.enter .failed
  t.go (.over (t.reportWith failure (if t.entry.deleteFile then .skipped else .notRequested)))

/-- The transfer after its file has been finished with. -/
def completed (t : Transfer) (deletion : Deletion) : Transfer :=
  let t := t.enter .completed
  t.go (.over (t.reportWith none deletion))

/-! ### What a step tells -/

/-- The file is open. -/
def streamingEvent (t : Transfer) : Event :=
  .streaming t.entry.fileName t.reader.size

/-- The transfer, which has taken its notice, failed. -/
def failedEvent (t : Transfer) (failure : Failure) : Event :=
  .transferFailed (failure.notice t.entry.fileName) t.entry.appid t.entry.ctxid t.entry.fileName
    t.packets

/-- The transfer is completed. -/
def completedEvent (t : Transfer) : Event :=
  .transferCompleted t.entry.appid t.entry.ctxid t.entry.fileName t.packets t.bytes

/-- What is told of removing the file. -/
def removalEvent (t : Transfer) : Except IoError Unit → Event
  | .ok _ => .sourceDeleted t.entry.fileName
  | .error e => .deletionFailed t.entry.fileName e.message

/-- What became of a file that was to be removed. -/
def Deletion.ofRemoval : Except IoError Unit → Deletion
  | .ok _ => .deleted
  | .error e => .failed e

/-! ### The steps -/

/-- Remove the file if that is wanted. -/
def removeSource (around : Surroundings σ) (t : Transfer) (s : σ) : Deletion × σ :=
  if t.entry.deleteFile then
    match around.remove t.entry.fileName s with
    | (answer, s) => (.ofRemoval answer, around.tell (t.removalEvent answer) s)
  else (.notRequested, s)

/-- **One step.** A transfer that is over makes none. -/
def step (around : Surroundings σ) (t : Transfer) (s : σ) : Transfer × σ :=
  match t.phase with
  | .opening =>
    match around.openSource t.entry.fileName t.reader.size s with
    | (.opened, s) => ((t.enter .streaming).go .reading, around.tell t.streamingEvent s)
    | (.failed e, s) => ((t.enter .opening).go (.notifying (.opening e)), s)
    | (.noRoom, s) => ((t.enter .opening).go .crashed, s)
  | .reading =>
    match around.read t.reader.wanted s with
    | (reading, s) => (t.accept reading, s)
  | .handing chunk =>
    match around.take (t.packet .info chunk (around.ticks s)) s with
    | (true, s) => (t.handed chunk, s)
    | (false, s) => (t.go .crashed, s)
  | .notifying failure =>
    let payload := Bytes.ofText (failure.notice t.entry.fileName)
    match around.take (t.packet .error payload (around.ticks s)) s with
    | (true, s) => (t.failed failure, around.tell ((t.failed failure).failedEvent failure) s)
    | (false, s) => (t.go .crashed, s)
  | .closing =>
    match t.removeSource around s with
    | (deletion, s) => (t.completed deletion, around.tell t.completedEvent s)
  | .over _ | .crashed => (t, s)

/-- At most so many steps. -/
def run (around : Surroundings σ) : Nat → Transfer → σ → Transfer × σ
  | 0, t, s => (t, s)
  | fuel + 1, t, s =>
    if t.isOver then (t, s)
    else
      match t.step around s with
      | (t, s) => run around fuel t s

/-- Enough steps for a source that gives at most so many bytes and is never
interrupted. Each chunk takes a step to be handed on, at most one reading for each
of its bytes, and perhaps one of no bytes that ends it early; besides there are
opening the file, finding its end, and finishing. -/
def fuelFor (bytes : Nat) : Nat :=
  3 * bytes + 3

end Transfer

end LogCourier
