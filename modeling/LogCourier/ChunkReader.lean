import LogCourier.Bytes
import LogCourier.IoError

/-!
# Reading in chunks

A file is handed on in chunks of equal size. The system, however, reads as it
pleases: fewer bytes than asked for, nothing yet because it was interrupted, or
an error. A **chunk reader** gathers what it gets until the chunk is full or a
reading of no bytes says that there is no more.

The reader is told one reading at a time (`LogCourier.ChunkReader.feed`) and says
when that makes a chunk, ends the file, or fails. Reading chunk after chunk from
a source is then a loop around it (`LogCourier.ChunkReader.next`), and so is
whatever else has to happen between two readings.

* An interrupted reading changes nothing.
* An error gives up the bytes gathered for the chunk, and only those.
* The offset counts the bytes of the chunks given out.
-/

namespace LogCourier

/-- What one reading gave. -/
inductive Reading
  /-- Some bytes, or none at the end. -/
  | data (bs : Bytes)
  /-- Nothing, and one may ask again. -/
  | interrupted
  /-- An error. -/
  | failed (source : IoError)
  deriving DecidableEq

/-- The size of a chunk unless told otherwise. -/
def defaultChunkSize : Nat := 1024

/-- The largest chunk that there may be room for. -/
def maxChunkSize : Nat := 9223372036854775807

/-- The state of a chunk reader. -/
structure ChunkReader where
  /-- The size of a full chunk. -/
  size : Nat
  /-- A full chunk is not empty. -/
  size_pos : 0 < size
  /-- The bytes gathered for the next chunk. -/
  got : Bytes
  /-- The bytes given out. A file has fewer than sixty-four bits can count. -/
  offset : Nat
  deriving DecidableEq

namespace ChunkReader

/-- What a reading completes. -/
inductive Outcome
  /-- A chunk. -/
  | chunk (bs : Bytes)
  /-- The file: there is no more. -/
  | finished
  /-- Nothing: reading failed. -/
  | failed (source : IoError)
  deriving DecidableEq

/-- The size of the chunks if `n` is asked for. Nobody can ask for empty chunks. -/
def sizeFor (n : Nat) : Nat :=
  if n = 0 then defaultChunkSize else n

/-- A reader that has read nothing. -/
def fresh (n : Nat) : ChunkReader where
  size := sizeFor n
  size_pos := by
    unfold sizeFor defaultChunkSize
    split <;> omega
  got := []
  offset := 0

/-- How many bytes the reader asks for. -/
def wanted (r : ChunkReader) : Nat :=
  r.size - r.got.length

/-- Give out what has been gathered; if that is nothing, the file is finished. -/
def giveOut (r : ChunkReader) : ChunkReader × Outcome :=
  if r.got = [] then (r, .finished)
  else ({ r with got := [], offset := r.offset + r.got.length }, .chunk r.got)

/-- **One reading**: the reader afterwards, and what the reading completed, if
anything. -/
def feed (r : ChunkReader) : Reading → ChunkReader × Option Outcome
  | .interrupted => (r, none)
  | .failed e => ({ r with got := [] }, some (.failed e))
  | .data bs =>
    if bs = [] then (r.giveOut.1, some r.giveOut.2)
    else
      let filled := { r with got := r.got ++ bs }
      if filled.got.length < r.size then (filled, none)
      else (filled.giveOut.1, some filled.giveOut.2)

/-- The next chunk of a source, which is asked at most `fuel` times. -/
def next {σ : Type} (read : Nat → σ → Reading × σ) :
    Nat → ChunkReader → σ → Option Outcome × ChunkReader × σ
  | 0, r, s => (none, r, s)
  | fuel + 1, r, s =>
    match read r.wanted s with
    | (reading, s) =>
      match r.feed reading with
      | (r, some outcome) => (some outcome, r, s)
      | (r, none) => next read fuel r s

end ChunkReader

/-! ### Scripted sources -/

/-- A source that gives what is written down, and no bytes ever after. -/
abbrev Script := List Reading

namespace Script

/-- Read at most `limit` bytes. Bytes that were not asked for stay in front. -/
def read (limit : Nat) : Script → Reading × Script
  | [] => (.data [], [])
  | .data bs :: rest =>
    if bs.length ≤ limit then (.data bs, rest)
    else (.data (bs.take limit), .data (bs.drop limit) :: rest)
  | .interrupted :: rest => (.interrupted, rest)
  | .failed e :: rest => (.failed e, rest)

/-- Enough readings for one chunk: those written down, and one more. -/
def fuel (s : Script) : Nat :=
  s.length + 1

/-- The next chunk of a script. -/
def nextChunk (r : ChunkReader) (s : Script) : Option ChunkReader.Outcome × ChunkReader × Script :=
  r.next read s.fuel s

end Script

end LogCourier
