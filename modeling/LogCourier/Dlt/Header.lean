import LogCourier.Id
import LogCourier.Level

/-!
# Message headers

A DLT message in verbose mode starts with a header of twenty-two bytes, in three
parts:

| bytes | what |
| --- | --- |
| 1 | header type, always `35`: an extended header follows, with unit and time |
| 1 | message counter |
| 2 | length of the whole message, most significant byte first |
| 4 | control unit |
| 4 | timestamp, most significant byte first |
| 1 | message info: the level in the high four bits, and `1` for verbose mode |
| 1 | number of arguments |
| 4 | application |
| 4 | context |

The length has sixteen bits, so a message whose arguments take more than 65513
bytes has no header: `LogCourier.Dlt.Header.log` refuses it.
-/

namespace LogCourier.Dlt

/-- Something of so many bytes, which no message holds. -/
structure TooLarge where
  /-- Its size. -/
  size : Nat
  deriving DecidableEq, Repr

/-- The text of the refusal. -/
def TooLarge.message (t : TooLarge) : String :=
  s!"payload of {t.size} bytes does not fit in a DLT message"

/-- The header of a message. -/
structure Header where
  /-- The number of the message on its channel, modulo 256. -/
  counter : UInt8
  /-- The length of the message, the header included. -/
  length : UInt16
  /-- The control unit. -/
  ecu : Id
  /-- When the message was made, in ticks. -/
  timestamp : UInt32
  /-- The level of the message. -/
  level : Level
  /-- How many arguments follow. -/
  argumentCount : UInt8
  /-- The application. -/
  appid : Id
  /-- The context. -/
  ctxid : Id
  deriving DecidableEq

namespace Header

/-- The bytes of a header. -/
def size : Nat := 22

/-- The most bytes that arguments may take. -/
def maxPayload : Nat := 65535 - size

/-- The bit of the header type that announces an extended header. -/
def extended : UInt8 := 0x01

/-- The bit of the header type that announces a control unit. -/
def withEcu : UInt8 := 0x04

/-- The bit of the header type that announces a timestamp. -/
def withTimestamp : UInt8 := 0x10

/-- The bits of the header type that tell the protocol version. -/
def protocolVersion : UInt8 := 0x20

/-- The header type. -/
def headerType : UInt8 :=
  extended ||| withEcu ||| withTimestamp ||| protocolVersion

/-- The header of a log message whose arguments take so many bytes. -/
def log (counter : UInt8) (payload : Nat) (ecu : Id) (timestamp : UInt32) (level : Level)
    (argumentCount : UInt8) (appid ctxid : Id) : Except TooLarge Header :=
  if maxPayload < payload then .error ⟨payload⟩
  else .ok
    { counter, length := UInt16.ofNat (size + payload), ecu, timestamp, level, argumentCount,
      appid, ctxid }

/-- The message info: the level and the mark of verbose mode. -/
def messageInfo (h : Header) : UInt8 :=
  h.level.code * 16 + 1

/-- **The twenty-two bytes of a header.** -/
def bytes (h : Header) : Bytes :=
  [headerType, h.counter] ++ Bytes.be16 h.length ++ h.ecu.bytes ++ Bytes.be32 h.timestamp
    ++ [h.messageInfo, h.argumentCount] ++ h.appid.bytes ++ h.ctxid.bytes

/-- A header has twenty-two bytes. -/
@[simp] theorem length_bytes (h : Header) : h.bytes.length = size := by
  simp [bytes, Bytes.be16, Bytes.be32, size]

end Header

end LogCourier.Dlt
