import LogCourier.FileTree
import LogCourier.Transfer

/-!
# Where transfers work

The surroundings that a transfer has in earnest: a file tree on a disk, somebody who
takes its packets, and a log. Transfers that run side by side share one such site; the
file that a transfer has open is its own.

A file tree says what is in the files, and a disk whether one gets it
(`LogCourier.Disk`): it may not let a file be opened, may give less than was asked for,
and may fail in the middle of a file.

Who takes the packets is an `LogCourier.Emitter`: it has the clock, a way to take
a packet, which may throw, and it may tell of what it does.
-/

namespace LogCourier

/-- Who takes packets, with a state `ε`. -/
structure Emitter (ε : Type) where
  /-- The time, in ticks. -/
  ticks : ε → UInt32
  /-- Take a packet: whether that came back rather than throw, and what was told. -/
  take : Packet → ε → Bool × List Event × ε

/-- How a disk answers a reading of a file. -/
inductive Disk.Service
  /-- It gives what was asked for, or what there is. -/
  | whole
  /-- It gives no more than so many bytes and one. -/
  | short (most : Nat)
  /-- It fails. -/
  | broken (source : IoError)
  deriving DecidableEq

/-- **What is between files and those who read them**, file by file as these are
numbered. -/
structure Disk where
  /-- Why a file may not be opened, if it may not. -/
  refusal? : Nat → Option IoError
  /-- What comes of reading a file on from a position. -/
  service : Nat → Nat → Disk.Service

namespace Disk

/-- A disk that never fails. -/
def sound : Disk :=
  { refusal? := fun _ => none, service := fun _ _ => .whole }

/-- Open a file, or a directory, to read it from the start. -/
def openFile (disk : Disk) (t : FileTree) (path : String) : Except IoError OpenFile :=
  match t.openFile path with
  | .error e => .error e
  | .ok f =>
    match f.number?.bind disk.refusal? with
    | some e => .error e
    | none => .ok f

/-- Read at most `limit` bytes. -/
def read (disk : Disk) (t : FileTree) (limit : Nat) (f : OpenFile) : Reading × OpenFile :=
  match f.number?.map fun number => disk.service number f.position with
  | none | some .whole => t.read limit f
  | some (.short most) => t.read (min limit (most + 1)) f
  | some (.broken e) => (.failed e, f)

end Disk

/-- What transfers share: files and the disk they are on, the state of whoever takes
their packets, and what has been told. -/
structure Site (ε : Type) where
  /-- The files. -/
  files : FileTree
  /-- The state of the emitter. -/
  output : ε
  /-- What has been told, the last thing last. -/
  log : List Event
  /-- The disk. -/
  disk : Disk := .sound

namespace Site

variable {ε : Type}

/-- All the bytes there are. -/
def volume (s : Site ε) : Nat :=
  s.files.contents.foldl (fun n bs => n + bs.length) 0

end Site

/-- A site as one transfer sees it: with the file that it has open. -/
structure Desk (ε : Type) extends Site ε where
  /-- The open file. -/
  source : Option OpenFile

namespace Emitter

variable {ε : Type}

/-- Open a file, to read it in chunks of so many bytes. -/
def openSource (name : String) (size : Nat) (d : Desk ε) : Transfer.Opening × Desk ε :=
  match d.disk.openFile d.files name with
  | .ok f => (if size ≤ maxChunkSize then .opened else .noRoom, { d with source := some f })
  | .error e => (.failed e, d)

/-- Read from the open file. -/
def readSource (limit : Nat) (d : Desk ε) : Reading × Desk ε :=
  match d.source with
  | some f =>
    match d.disk.read d.files limit f with
    | (reading, f) => (reading, { d with source := some f })
  | none => (.failed .badDescriptor, d)

/-- Remove a file. -/
def removeSource (name : String) (d : Desk ε) : Except IoError Unit × Desk ε :=
  match d.files.removeFile name with
  | .ok files => (.ok (), { d with files })
  | .error e => (.error e, d)

/-- Hand a packet to the emitter. -/
def handOver (e : Emitter ε) (p : Packet) (d : Desk ε) : Bool × Desk ε :=
  match e.take p d.output with
  | (back, told, output) => (back, { d with output, log := d.log ++ told })

/-- **The surroundings of a transfer at a site.** -/
def surroundings (e : Emitter ε) : Transfer.Surroundings (Desk ε) where
  openSource := openSource
  read := readSource
  ticks d := e.ticks d.output
  take := e.handOver
  remove := removeSource
  tell event d := { d with log := d.log ++ [event] }

end Emitter

end LogCourier
