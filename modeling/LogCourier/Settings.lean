import LogCourier.Channel
import LogCourier.Pool
import LogCourier.SocketAddress

/-!
# Settings

All that a courier can be told: which control unit its messages name, where they
go, where records come from, what is logged, and how files are carried.

Not every setting makes sense. `LogCourier.Settings.check` tells the first thing
that does not: chunks that are empty or fit no message, no transfer at a time or
too many, or messages that would come back as records.
-/

namespace LogCourier

namespace Settings

/-- How files are carried. -/
structure Transfers where
  /-- Whether they are. -/
  enabled : Bool
  /-- The bytes of a full chunk. -/
  chunkSize : UInt64
  /-- The transfers that may run at once. -/
  maxConcurrent : UInt64
  /-- The transfers that may wait besides. -/
  maxPending : UInt64
  /-- The packets between two pauses; with `0` there are no pauses. -/
  burstCount : UInt32
  /-- The length of a pause, in milliseconds. -/
  burstMillis : UInt64
  deriving DecidableEq

namespace Transfers

/-! Each setting has a usual value of its own. Those that a pool and a channel have as
well are taken from there. -/

/-- Files are carried. -/
def defaultEnabled : Bool :=
  true

/-- The usual bytes of a full chunk. -/
def defaultChunkSize : UInt64 :=
  UInt64.ofNat LogCourier.defaultChunkSize

/-- The transfers that usually may run at once. -/
def defaultMaxConcurrent : UInt64 :=
  UInt64.ofNat Pool.Config.default.maxConcurrent

/-- The transfers that usually may wait. -/
def defaultMaxPending : UInt64 :=
  UInt64.ofNat Pool.Config.default.maxPending

/-- The usual packets between two pauses. -/
def defaultBurstCount : UInt32 :=
  Channel.defaultBurstCount

/-- The usual length of a pause, in whole milliseconds and as many as sixty-four bits
count. -/
def defaultBurstMillis : UInt64 :=
  UInt64.ofNat (min (Channel.defaultBurstInterval / 1000000) 18446744073709551615)

/-- How files are carried unless told otherwise. -/
def default : Transfers where
  enabled := defaultEnabled
  chunkSize := defaultChunkSize
  maxConcurrent := defaultMaxConcurrent
  maxPending := defaultMaxPending
  burstCount := defaultBurstCount
  burstMillis := defaultBurstMillis

end Transfers

end Settings

/-- What a courier is told. -/
structure Settings where
  /-- The control unit that messages name. -/
  ecu : Id
  /-- Where messages go. -/
  target : SocketAddress
  /-- Where records come from. -/
  ingress : SocketAddress
  /-- What is logged. -/
  logLevel : String
  /-- How files are carried. -/
  transfers : Settings.Transfers
  deriving DecidableEq

namespace Settings

/-- The control unit that messages usually name. -/
def defaultEcu : Id :=
  Id.ecu1

/-- Where messages usually go. -/
def defaultTarget : SocketAddress :=
  .loopback 3490

/-- Where records usually come from. -/
def defaultIngress : SocketAddress :=
  .loopback 3491

/-- What is usually logged. -/
def defaultLogLevel : String :=
  "info"

/-- What a courier does unless told otherwise. -/
def default : Settings where
  ecu := defaultEcu
  target := defaultTarget
  ingress := defaultIngress
  logLevel := defaultLogLevel
  transfers := .default

/-! ### What makes sense -/

/-- The most transfers that may run at once, and that may wait. -/
def maxTransfers : Nat := 1024

/-- Why settings make no sense. -/
inductive Problem
  /-- Chunks of so many bytes are none, or fit no message. -/
  | chunkSize (n : UInt64)
  /-- So many transfers at once are none, or too many. -/
  | maxConcurrent (n : UInt64)
  /-- So many waiting transfers are too many. -/
  | maxPending (n : UInt64)
  /-- Messages go where records come from. -/
  | sameAddress (a : SocketAddress)
  deriving DecidableEq

/-- The text of a problem. -/
def Problem.message : Problem → String
  | chunkSize n =>
    s!"file_transfer.chunk_size must be between 1 and {Packet.maxPayload}, got {n.toNat}"
  | maxConcurrent n =>
    s!"file_transfer.max_concurrent_transfers must be between 1 and {maxTransfers}, got {n.toNat}"
  | maxPending n =>
    s!"file_transfer.max_pending_transfers must be at most {maxTransfers}, got {n.toNat}"
  | sameAddress a => s!"udp_target and ingress must differ ({a.text})"

/-- **Whether settings make sense**, and otherwise the first reason why not. -/
def check (s : Settings) : Except Problem Unit :=
  let t := s.transfers
  if ¬ (1 ≤ t.chunkSize.toNat ∧ t.chunkSize.toNat ≤ Packet.maxPayload) then
    .error (.chunkSize t.chunkSize)
  else if ¬ (1 ≤ t.maxConcurrent.toNat ∧ t.maxConcurrent.toNat ≤ maxTransfers) then
    .error (.maxConcurrent t.maxConcurrent)
  else if ¬ t.maxPending.toNat ≤ maxTransfers then .error (.maxPending t.maxPending)
  else if s.target = s.ingress then .error (.sameAddress s.ingress)
  else .ok ()

/-! ### What follows from them -/

/-- How the pool of transfers is set up. -/
def pool (s : Settings) : Pool.Config where
  enabled := s.transfers.enabled
  chunkSize := s.transfers.chunkSize.toNat
  maxConcurrent := s.transfers.maxConcurrent.toNat
  maxPending := s.transfers.maxPending.toNat

/-- How the channel is set up. -/
def channel (s : Settings) : Channel.Config where
  ecu := s.ecu
  burstCount := s.transfers.burstCount
  burstInterval := s.transfers.burstMillis.toNat * 1000000

/-- What is logged, which is more if one wants to be told everything. -/
def filter (s : Settings) (verbose : Bool) : String :=
  if verbose then "debug" else s.logLevel

end Settings

end LogCourier
