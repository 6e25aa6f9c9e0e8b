import LogCourier.Document
import LogCourier.Settings
import LogCourier.SocketAddress.Reader

/-!
# Settings as documents

Settings are written as a table of five entries, the last of them a table of six.
Read from one, an entry that is missing has the usual value that is given for it, an
entry that is not known is passed over, and one that is known and makes no sense
spoils the whole.

A table may also be given as a list of its values, in order and as many as one
likes. More values than there are names are an error in strict notations and are
passed over in lax ones.
-/

namespace LogCourier.Settings

/-! ### Values -/

/-- An identifier. -/
def readId? : Document → Option Id
  | .text s => (Id.ofText s).toOption
  | _ => none

/-- A socket address. -/
def readAddress? : Document → Option SocketAddress
  | .text s => SocketAddress.ofText? s
  | _ => none

/-- A text. -/
def readText? : Document → Option String
  | .text s => some s
  | _ => none

/-- A flag. -/
def readFlag? : Document → Option Bool
  | .flag b => some b
  | _ => none

/-- A whole number from zero up, below a bound. -/
def readNat? (bound : Nat) : Document → Option Nat
  | .integer n => if 0 ≤ n ∧ n < bound then some n.toNat else none
  | _ => none

/-- A number of sixty-four bits. -/
def readWord64? (d : Document) : Option UInt64 :=
  (readNat? 18446744073709551616 d).map UInt64.ofNat

/-- A number of thirty-two bits. -/
def readWord32? (d : Document) : Option UInt32 :=
  (readNat? 4294967296 d).map UInt32.ofNat

/-! ### Entries -/

/-- The entries of a table, each by its place and its name. -/
abbrev Fields := Nat → String → Option Document

/-- The entries of a document with that many of them, if it can be a table. A date is a
table, too, but none of its entries are known. -/
def fields? (strict : Bool) (count : Nat) : Document → Option Fields
  | .table entries => some fun _ name => entries.lookup name
  | .list items =>
    if strict ∧ count < items.length then none else some fun place _ => items[place]?
  | .dateTime _ => some fun _ _ => none
  | _ => none

/-- An entry, or its usual value where it is missing. -/
def entry? {α : Type} (fields : Fields) (place : Nat) (name : String) (usual : α)
    (read : Document → Option α) : Option α :=
  match fields place name with
  | none => some usual
  | some d => read d

/-- How files are carried, from the table that tells it. -/
def Transfers.ofDocument? (strict : Bool) (d : Document) : Option Transfers := do
  let f ← fields? strict 6 d
  return {
    enabled := ← entry? f 0 "enabled" defaultEnabled readFlag?
    chunkSize := ← entry? f 1 "chunk_size" defaultChunkSize readWord64?
    maxConcurrent := ← entry? f 2 "max_concurrent_transfers" defaultMaxConcurrent readWord64?
    maxPending := ← entry? f 3 "max_pending_transfers" defaultMaxPending readWord64?
    burstCount := ← entry? f 4 "burst_count" defaultBurstCount readWord32?
    burstMillis := ← entry? f 5 "burst_interval_ms" defaultBurstMillis readWord64? }

/-- **The settings that a document holds.** -/
def ofDocument? (strict : Bool) (d : Document) : Option Settings := do
  let f ← fields? strict 5 d
  return {
    ecu := ← entry? f 0 "ecu_id" defaultEcu readId?
    target := ← entry? f 1 "udp_target" defaultTarget readAddress?
    ingress := ← entry? f 2 "ingress" defaultIngress readAddress?
    logLevel := ← entry? f 3 "log_level" defaultLogLevel readText?
    transfers := ← entry? f 4 "file_transfer" Transfers.default (Transfers.ofDocument? strict) }

/-! ### Writing -/

/-- A number that is not negative. -/
def natural (n : Nat) : Document :=
  .integer n

/-- The entries of the table that tells how files are carried. -/
def Transfers.entries (t : Transfers) : List (String × Document) :=
  [("enabled", .flag t.enabled),
    ("chunk_size", natural t.chunkSize.toNat),
    ("max_concurrent_transfers", natural t.maxConcurrent.toNat),
    ("max_pending_transfers", natural t.maxPending.toNat),
    ("burst_count", natural t.burstCount.toNat),
    ("burst_interval_ms", natural t.burstMillis.toNat)]

/-- **The entries of the table that settings are written as.** -/
def entries (s : Settings) : List (String × Document) :=
  [("ecu_id", .text s.ecu.text),
    ("udp_target", .text s.target.text),
    ("ingress", .text s.ingress.text),
    ("log_level", .text s.logLevel),
    ("file_transfer", .table s.transfers.entries)]

end LogCourier.Settings
