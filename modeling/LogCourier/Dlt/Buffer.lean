import LogCourier.Dlt.Argument

/-!
# Filling a buffer

The arguments of a message are written into a buffer, which is used for one message after another.
An argument is put behind what is there (`LogCourier.Dlt.Argument.put`), piece by piece; a packet
takes the buffer for itself (`LogCourier.Packet.put`) and empties it first.

Either may be refused. Whatever was done to the buffer before that stays done: so it matters that
lengths are looked at before anything is written, and that a packet is refused before the buffer is
emptied.
-/

namespace LogCourier

namespace Dlt

/-- Something done to a buffer: what came of it, and the buffer afterwards. -/
abbrev Filling := Bytes → Except TooLarge Unit × Bytes

namespace Filling

/-- Write some pieces, one behind the other. -/
def write (pieces : List Bytes) : Filling
  | buf => (.ok (), pieces.foldl (· ++ ·) buf)

/-- Empty the buffer. -/
def clear : Filling
  | _ => (.ok (), [])

/-- Refuse something of so many bytes. -/
def refuse (size : Nat) : Filling
  | buf => (.error ⟨size⟩, buf)

/-- One thing, and another unless the first was refused. -/
def andThen (first second : Filling) : Filling
  | buf =>
    match first buf with
    | (.ok _, buf) => second buf
    | (.error e, buf) => (.error e, buf)

end Filling

/-- **Put an argument behind what is there**, if its length can be written. -/
def Argument.put : Argument → Filling
  | number value => .write [Bytes.le32 numberType, Bytes.le32 value]
  | raw data =>
    if 65535 < data.length then .refuse data.length
    else .write [Bytes.le32 rawType, Bytes.le16 (UInt16.ofNat data.length), data]
  | text data =>
    if 65535 < data.length + 1 then .refuse data.length
    else .write [Bytes.le32 textType, Bytes.le16 (UInt16.ofNat (data.length + 1)), data, [0]]

end Dlt

/-- **Put the arguments of a packet in the place of what is there**, if a datagram has room for
them. -/
def Packet.put (p : Packet) : Dlt.Filling :=
  if maxPayload < p.payload.length then .refuse p.payload.length
  else Dlt.Filling.clear.andThen
    ((Dlt.Argument.number p.sequence).put.andThen p.payloadArgument.put)

end LogCourier
