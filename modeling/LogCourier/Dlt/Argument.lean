import LogCourier.Dlt.Header
import LogCourier.Packet

/-!
# Message arguments

After its header a message has arguments, each with its type in front. Three
types are in use, and everything is written least significant byte first:

| type | then |
| --- | --- |
| `43 00 00 00` | a number of four bytes |
| `00 04 00 00` | a length of two bytes, and so many raw bytes |
| `00 82 00 00` | a length of two bytes, and so many bytes of UTF-8, the last one NUL |

The length of a text counts its NUL, so the longest text is one byte shorter than
the longest raw argument.

A packet becomes two arguments, its number and its payload
(`LogCourier.Packet.arguments`). Its limit is tighter than either length field:
`LogCourier.Packet.maxPayload` is what one datagram has room for.
-/

namespace LogCourier

namespace Dlt

/-- An argument of a message. -/
inductive Argument
  /-- A number. -/
  | number (value : UInt32)
  /-- Raw bytes. -/
  | raw (data : Bytes)
  /-- The bytes of a text, without the NUL that ends it. -/
  | text (data : Bytes)
  deriving DecidableEq, Repr

namespace Argument

/-- The type of a number of four bytes. -/
def numberType : UInt32 := 0x43

/-- The type of raw bytes. -/
def rawType : UInt32 := 0x400

/-- The type of a text in UTF-8. -/
def textType : UInt32 := 0x8200

/-- The written form of an argument, if its length can be written. -/
def bytes : Argument → Except TooLarge Bytes
  | number value => .ok (Bytes.le32 numberType ++ Bytes.le32 value)
  | raw data =>
    if 65535 < data.length then .error ⟨data.length⟩
    else .ok (Bytes.le32 rawType ++ Bytes.le16 (UInt16.ofNat data.length) ++ data)
  | text data =>
    if 65535 < data.length + 1 then .error ⟨data.length⟩
    else .ok (Bytes.le32 textType ++ Bytes.le16 (UInt16.ofNat (data.length + 1)) ++ data ++ [0])

/-- The arguments written so far, and one more behind them. -/
def append (written : Bytes) (a : Argument) : Except TooLarge Bytes :=
  match a.bytes with
  | .ok more => .ok (written ++ more)
  | .error e => .error e

end Argument

end Dlt

namespace Packet

/-- The most bytes a datagram holds. -/
def maxDatagram : Nat := 65507

/-- The bytes that the two arguments of a packet take besides its payload, a
notice being the longer of the two. -/
def overhead : Nat := 8 + 4 + 2 + 1

/-- The most bytes a payload may have. -/
def maxPayload : Nat := maxDatagram - Dlt.Header.size - overhead

/-- The number of arguments of a packet. -/
def argumentCount : UInt8 := 2

/-- The payload as an argument: a piece of the file is raw, a notice is text. -/
def payloadArgument (p : Packet) : Dlt.Argument :=
  match p.content with
  | .info => .raw p.payload
  | .error => .text p.payload

/-- **The arguments of a packet**, its number and its payload, if a datagram has
room for them. -/
def arguments (p : Packet) : Except Dlt.TooLarge Bytes :=
  if maxPayload < p.payload.length then .error ⟨p.payload.length⟩
  else do
    let number ← Dlt.Argument.append [] (.number p.sequence)
    Dlt.Argument.append number p.payloadArgument

end Packet

end LogCourier
