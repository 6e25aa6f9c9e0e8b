import LogCourier.Id
import LogCourier.Level

/-!
# Packets

A transfer hands its file on in **packets**: pieces of the file, numbered from
zero, and in the end perhaps a notice of what went wrong. What becomes of a
packet is the business of whoever takes it.
-/

namespace LogCourier

/-- What a packet holds. -/
inductive Packet.Content
  /-- A piece of the file. -/
  | info
  /-- A text that says what went wrong. -/
  | error
  deriving DecidableEq, Repr

/-- The name of a content. -/
def Packet.Content.name : Packet.Content → String
  | .info => "info"
  | .error => "error"

/-- The log level that goes with a content. -/
def Packet.Content.level : Packet.Content → Level
  | .info => .info
  | .error => .error

/-- One piece of a transfer. -/
structure Packet where
  /-- The bytes handed on. -/
  payload : Bytes
  /-- What they are. -/
  content : Packet.Content
  /-- The application of the transfer. -/
  appid : Id
  /-- The context of the transfer. -/
  ctxid : Id
  /-- The number of the packet within its transfer, from zero. -/
  sequence : UInt32
  /-- When the packet was made, in ticks. -/
  timestamp : UInt32
  deriving DecidableEq

end LogCourier
