/-!
# Instants and ticks

Time is counted in nanoseconds from a start that nobody names: only differences
mean anything. A message carries the time since an origin in **ticks** of a tenth
of a millisecond, in a 32-bit field that starts again from zero after some five
days.

A clock cannot tell every time: its seconds have sixty-three bits. So there is a
last instant, and adding to one may come to nothing (`LogCourier.Instant.later?`).

An instant before the origin has tick `0`. Microseconds are taken first and ticks
after, which is the same as taking ticks at once.
-/

namespace LogCourier

/-- A reading of the clock. -/
structure Instant where
  /-- Nanoseconds since the clock's start. -/
  nanos : Nat
  deriving DecidableEq, Repr

namespace Instant

/-- The instant so many nanoseconds later. -/
def later (t : Instant) (nanos : Nat) : Instant :=
  ⟨t.nanos + nanos⟩

/-- The nanoseconds that are too many for a clock: two to the sixty-third seconds. -/
def limit : Nat := 9223372036854775808 * 1000000000

/-- The instant so many nanoseconds later, if a clock can tell it. -/
def later? (t : Instant) (nanos : Nat) : Option Instant :=
  if t.nanos + nanos < limit then some (t.later nanos) else none

/-- The nanoseconds from one instant to another, and `0` if the other is earlier. -/
def since (t origin : Instant) : Nat :=
  t.nanos - origin.nanos

/-- **The ticks between an origin and an instant**, without the whole turns of the
32-bit field. -/
def ticks (t origin : Instant) : UInt32 :=
  UInt32.ofNat (t.since origin / 1000 / 100)

end Instant

end LogCourier
