import LogCourier.Entry
import LogCourier.IoError

/-!
# Records and frames

Applications send **records** of two kinds, log lines and transfer entries. A
record travels as a **frame**: one byte for its kind and then its body. Whatever
tag a frame carries beyond the two known ones is told, not guessed at.

A frame has to fit one datagram, so a body has at most 65506 bytes.
-/

namespace LogCourier.Record

/-- The two kinds of record. -/
inductive Kind
  /-- A log line, as text. -/
  | log
  /-- A transfer entry, as `LogCourier.Entry.encode` writes it. -/
  | fileTransfer
  deriving DecidableEq, Repr

/-- Why a record was not framed, routed or handed on. -/
inductive Error
  /-- A frame without even a kind. -/
  | emptyFrame
  /-- A kind that is not known. -/
  | unknownKind (tag : UInt8)
  /-- A frame of so many bytes, which no datagram holds. -/
  | frameTooLarge (n : Nat)
  /-- An entry without a written form. -/
  | encode (source : Entry.EncodeError)
  /-- The way out failed. -/
  | io (source : IoError)
  deriving DecidableEq

/-- The text of an error. -/
def Error.message : Error → String
  | emptyFrame => "empty frame"
  | unknownKind tag => s!"unknown record kind 0x{Bytes.hex tag}"
  | frameTooLarge n => s!"frame of {n} bytes exceeds the datagram limit"
  | encode source => s!"cannot encode file transfer entry: {source.message}"
  | io source => s!"I/O error: {source.message}"

/-- The tag of a kind. -/
def Kind.tag : Kind → UInt8
  | log => 0x01
  | fileTransfer => 0x02

/-- The kind of a tag. -/
def Kind.ofTag (tag : UInt8) : Except Error Kind :=
  if tag = 0x01 then .ok .log
  else if tag = 0x02 then .ok .fileTransfer
  else .error (.unknownKind tag)

/-- The name of a kind. -/
def Kind.name : Kind → String
  | log => "log"
  | fileTransfer => "file_transfer"

/-- The longest frame: as much as a datagram holds. -/
def maxFrameLength : Nat := 65507

/-- The frame of a record, if it fits a datagram. -/
def frame (kind : Kind) (body : Bytes) : Except Error Bytes :=
  if maxFrameLength < body.length + 1 then .error (.frameTooLarge (body.length + 1))
  else .ok (kind.tag :: body)

theorem Kind.ofTag_tag (k : Kind) : Kind.ofTag k.tag = .ok k := by
  cases k <;> rfl

end LogCourier.Record
