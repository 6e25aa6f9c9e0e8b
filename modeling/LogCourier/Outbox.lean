import LogCourier.Host

/-!
# What is to be sent

A network that writes down what it is asked to do: which datagrams to send where, and how
long to wait in between. Its clock goes on by what it is asked to wait and no
further. What has been written down can then be done in earnest, or looked at.

Whether its sockets can be made is given from the start.
-/

namespace LogCourier

/-- Something that a network is asked to do. -/
inductive Outbox.Item
  /-- To wait, for so many nanoseconds. -/
  | wait (nanos : Nat)
  /-- To send a datagram to an address. -/
  | datagram (target : SocketAddress) (bs : Bytes)
  deriving DecidableEq

/-- What a network has been asked to do. -/
structure Outbox where
  /-- The time. -/
  now : Instant
  /-- What has been asked for, the last thing last. -/
  items : List Outbox.Item
  deriving DecidableEq

namespace Outbox

/-- Nothing has been asked for yet. -/
def empty (now : Instant) : Outbox :=
  { now, items := [] }

/-- One more thing is asked for. -/
def add (o : Outbox) (i : Item) : Outbox :=
  { o with items := o.items ++ [i] }

/-- **A network that writes down what it is asked to do.** Every datagram goes out whole,
as far as it can tell. -/
def network (origin : Instant) (bound connected : Except IoError SocketAddress) :
    Network Outbox where
  now o := o.now
  sleep nanos o := { o with now := o.now.later nanos }.add (.wait nanos)
  send socket slices o :=
    (.sent slices.flatten.length, o.add (.datagram socket.far slices.flatten))
  bind _ o := (bound, o)
  connect _ o := (connected, o)
  origin := origin

end Outbox

end LogCourier
