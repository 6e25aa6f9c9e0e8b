import LogCourier.Transfer.Site

/-!
# Transfers side by side

A pool takes records, turns each into a transfer, and runs the transfers side by
side. Two limits hold. Only so many transfers **run** at once, each holding a
**permit**; the others wait. And only so many are **in flight**, each holding a
**slot** from when its record is taken until all is done; a record that comes when
no slot is left is refused.

A transfer that was taken goes through four stages, each move of its own
(`LogCourier.Pool.Move`):

`waiting` → `running` → `settled` → `retired`

It gets its permit on the first arrow, gives it back on the second, and gives its
slot back on the third. Which transfer moves next is left open: whatever is to
hold of a pool has to hold for every order. `LogCourier.Pool.drain` picks one
order, the oldest transfer first.

The counters of slots and permits are kept apart from the list of transfers, as
something to be right or wrong about.
-/

namespace LogCourier

namespace Pool

/-- How transfers are run. -/
structure Config where
  /-- Whether records are taken at all. -/
  enabled : Bool
  /-- The bytes of a full chunk; with `0` it is `LogCourier.defaultChunkSize`. -/
  chunkSize : Nat
  /-- The transfers that may run at once. -/
  maxConcurrent : Nat
  /-- The transfers that may wait besides. -/
  maxPending : Nat
  deriving DecidableEq

/-- Four at once, and sixteen waiting. -/
def Config.default : Config :=
  { enabled := true, chunkSize := defaultChunkSize, maxConcurrent := 4, maxPending := 16 }

/-- The most permits there can be: as many as sixty-one bits count. -/
def maxPermits : Nat := 2305843009213693951

/-- The most slots there can be: as many as sixty-four bits count. -/
def maxSlots : Nat := 18446744073709551615

/-- The permits: at least one, so that something can run. -/
def Config.permits (c : Config) : Nat :=
  max 1 (min c.maxConcurrent maxPermits)

/-- The slots: one for each permit, and the ones for waiting. -/
def Config.slots (c : Config) : Nat :=
  min (c.permits + c.maxPending) maxSlots

/-- Why a record did not become a transfer. -/
inductive Refusal
  /-- It cannot be read. -/
  | malformed (source : Entry.DecodeError)
  /-- No slot is left: so many are taken, of so many. -/
  | saturated (inFlight limit : Nat)
  deriving DecidableEq

/-- The text of a refusal. -/
def Refusal.message : Refusal → String
  | malformed source => s!"malformed file transfer record: {source.message}"
  | saturated inFlight limit => s!"too many file transfers in flight ({inFlight}/{limit})"

/-- How far a transfer has come. -/
inductive Stage
  /-- It has a slot, and waits for a permit. -/
  | waiting
  /-- It has a permit. -/
  | running
  /-- It is over, and has given its permit back. -/
  | settled
  /-- It has given its slot back as well. -/
  | retired
  deriving DecidableEq, Repr

/-- A transfer in the pool. -/
structure Job where
  /-- The transfer. -/
  transfer : Transfer
  /-- The file that it has open. -/
  source : Option OpenFile
  /-- How far it has come. -/
  stage : Stage
  deriving DecidableEq

end Pool

/-- The state of a pool. -/
structure Pool where
  /-- How it is set up. -/
  config : Pool.Config
  /-- The slots taken. -/
  inFlight : Nat
  /-- The permits left. -/
  permits : Nat
  /-- The transfers, the oldest first, each known by its place. -/
  jobs : List Pool.Job
  deriving DecidableEq

namespace Pool

variable {ε : Type}

/-- A pool that has taken nothing. -/
def fresh (config : Config) : Pool :=
  { config, inFlight := 0, permits := config.permits, jobs := [] }

/-! ### Taking records -/

/-- A transfer that has been taken and not begun. -/
def Job.fresh (entry : Entry) (chunkSize : Nat) : Job :=
  { transfer := Transfer.fresh entry chunkSize, source := none, stage := .waiting }

/-- The entry of a record, if it can be read and a slot is left. -/
def entryFor (p : Pool) (record : Bytes) : Except Refusal Entry :=
  match Entry.decode record with
  | .error e => .error (.malformed e)
  | .ok entry =>
    if p.inFlight < p.config.slots then .ok entry
    else .error (.saturated p.inFlight p.config.slots)

/-- The pool with one more transfer. -/
def add (p : Pool) (entry : Entry) : Pool :=
  { p with inFlight := p.inFlight + 1, jobs := p.jobs ++ [.fresh entry p.config.chunkSize] }

/-- What is told of a record that was taken. -/
def acceptedEvent (entry : Entry) : Event :=
  .transferAccepted entry.appid entry.ctxid entry.fileName entry.deleteFile

/-- **Take a record**: why it is refused or else what is told of it, and the pool
afterwards. A transfer that is taken has the place behind all others. -/
def submit (p : Pool) (record : Bytes) : Except Refusal (List Event) × Pool :=
  match p.entryFor record with
  | .ok entry => (.ok [acceptedEvent entry], p.add entry)
  | .error e => (.error e, p)

/-- What is told of a record that was refused. -/
def refusedEvent (record : Bytes) : Refusal → Event
  | .malformed e => .recordDropped e.message record.length
  | .saturated inFlight limit => .transferRejected (Refusal.saturated inFlight limit).message

/-- Take a record, and only tell of it if it was refused. -/
def handle (p : Pool) (record : Bytes) : Pool × List Event :=
  match p.submit record with
  | (.ok told, p) => (p, told)
  | (.error e, p) => (p, [refusedEvent record e])

/-! ### Running transfers -/

/-- What can happen to a transfer, given by its place. -/
inductive Move
  /-- It gets a permit. -/
  | start (place : Nat)
  /-- It makes one step. -/
  | work (place : Nat)
  /-- It is over and gives its permit back. -/
  | settle (place : Nat)
  /-- It gives its slot back. -/
  | retire (place : Nat)
  deriving DecidableEq, Repr

/-- The pool with another job at a place. -/
def setJob (p : Pool) (place : Nat) (j : Job) : Pool :=
  { p with jobs := p.jobs.set place j }

/-- The job and the site after one step of its transfer. -/
def Job.work (e : Emitter ε) (j : Job) (s : Site ε) : Job × Site ε :=
  match j.transfer.step e.surroundings { toSite := s, source := j.source } with
  | (transfer, desk) => ({ j with transfer, source := desk.source }, desk.toSite)

/-- **One move**, if it is possible. What a job makes of a step of its own is for `work` to
say, which is told its place; whatever that is, the job runs on. -/
def moveBy? {σ : Type} (work : Nat → Job → σ → Job × σ) (p : Pool) (s : σ) :
    Move → Option (Pool × σ)
  | .start i => do
    let j ← p.jobs[i]?
    if j.stage = .waiting ∧ 0 < p.permits then
      some ({ p with permits := p.permits - 1 }.setJob i { j with stage := .running }, s)
    else none
  | .work i => do
    let j ← p.jobs[i]?
    if j.stage = .running ∧ j.transfer.isOver = false then
      match work i j s with
      | (j, s) => some (p.setJob i { j with stage := .running }, s)
    else none
  | .settle i => do
    let j ← p.jobs[i]?
    if j.stage = .running ∧ j.transfer.isOver then
      some ({ p with permits := p.permits + 1 }.setJob i { j with stage := .settled }, s)
    else none
  | .retire i => do
    let j ← p.jobs[i]?
    if j.stage = .settled then
      some ({ p with inFlight := p.inFlight - 1 }.setJob i { j with stage := .retired }, s)
    else none

/-- One move at a site, where a job reads the file that it has open. -/
def move? (e : Emitter ε) (p : Pool) (s : Site ε) : Move → Option (Pool × Site ε) :=
  p.moveBy? (fun _ => Job.work e) s

/-- The move that is due for the transfer at a place, if a permit is free. -/
def Job.due (j : Job) (place : Nat) : Option Move :=
  match j.stage with
  | .waiting => some (.start place)
  | .running => some (if j.transfer.isOver then .settle place else .work place)
  | .settled => some (.retire place)
  | .retired => none

/-- Make moves, at most so many, always one of the oldest transfer that can. -/
def runOldest (e : Emitter ε) : Nat → Pool → Site ε → Pool × Site ε
  | 0, p, s => (p, s)
  | fuel + 1, p, s =>
    match p.jobs.zipIdx.findSome? fun (j, i) => (j.due i).bind (p.move? e s) with
    | some (p, s) => runOldest e fuel p s
    | none => (p, s)

/-- The moves that a transfer needs, the files being what they are. -/
def movesFor (s : Site ε) : Nat :=
  Transfer.fuelFor s.volume + 3

/-- **Run all transfers to their end**, the oldest first. -/
def drain (e : Emitter ε) (p : Pool) (s : Site ε) : Pool × Site ε :=
  runOldest e (p.jobs.length * movesFor s) p s

/-- The transfer at a place. -/
def transfer? (p : Pool) (place : Nat) : Option Transfer :=
  p.jobs[place]?.map Job.transfer

end Pool

end LogCourier
