import LogCourier.Pool

/-!
# Where transfer records go

A courier for whom transfers are switched off has no pool. It takes records all
the same, and does nothing with them but say so. An **intake** is the one or the
other, as the settings have it.
-/

namespace LogCourier

/-- Where transfer records go. -/
inductive Intake
  /-- To a pool. -/
  | pool (p : Pool)
  /-- Nowhere. -/
  | disabled
  deriving DecidableEq

namespace Intake

variable {ε : Type}

/-- The intake that a configuration asks for. -/
def ofConfig (c : Pool.Config) : Intake :=
  if c.enabled then .pool (Pool.fresh c) else .disabled

/-- Take a record, and tell of it. -/
def handle (record : Bytes) : Intake → Intake × List Event
  | pool p =>
    match p.handle record with
    | (p, told) => (pool p, told)
  | disabled => (disabled, [.transfersDisabled record.length])

/-- Run all transfers to their end. -/
def drain (e : Emitter ε) (s : Site ε) : Intake → Intake × Site ε
  | pool p =>
    match p.drain e s with
    | (p, s) => (pool p, s)
  | disabled => (disabled, s)

end Intake

end LogCourier
