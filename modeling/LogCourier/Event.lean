import LogCourier.Id

/-!
# What the courier tells about itself

Every line of the courier's own log, as a value: which thing happened and to
what. How loud it is, how it reads and which fields go with it are functions of
the event, so that whoever makes one says only what happened.

Errors are carried as their texts: a log line is the last place they go.
-/

namespace LogCourier

/-- How loud a log line is. -/
inductive Severity
  /-- For whoever follows every step. -/
  | trace
  /-- For whoever looks for a fault. -/
  | debug
  /-- Ordinary news. -/
  | info
  /-- Something may go wrong. -/
  | warn
  /-- Something went wrong. -/
  | error
  deriving DecidableEq, Repr

/-- The name of a severity. -/
def Severity.name : Severity → String
  | trace => "trace"
  | debug => "debug"
  | info => "info"
  | warn => "warn"
  | error => "error"

/-- The value of a field of a log line. -/
inductive FieldValue
  /-- Text. -/
  | text (s : String)
  /-- A count. -/
  | number (n : Nat)
  /-- A yes or a no. -/
  | flag (b : Bool)
  deriving DecidableEq, Repr

/-- Something worth a log line. -/
inductive Event
  /-- A socket was connected to where messages go. -/
  | outputConnected (source target : String)
  /-- A packet was lost on its way out. -/
  | sendFailed (appid ctxid : Id) (sequence : UInt32) (error : String)
  /-- A file is open and is being read. -/
  | streaming (file : String) (chunkSize : Nat)
  /-- A file was carried from its first byte to its last. -/
  | transferCompleted (appid ctxid : Id) (file : String) (packets bytes : Nat)
  /-- A file was not carried, or not to its end. -/
  | transferFailed (notice : String) (appid ctxid : Id) (file : String) (packets : Nat)
  /-- The carried file was removed. -/
  | sourceDeleted (file : String)
  /-- The carried file could not be removed. -/
  | deletionFailed (file error : String)
  /-- A record became a transfer. -/
  | transferAccepted (appid ctxid : Id) (file : String) (delete : Bool)
  /-- A record that cannot be read was dropped. -/
  | recordDropped (error : String) (length : Nat)
  /-- A record came while too many transfers were under way. -/
  | transferRejected (error : String)
  /-- A record came although transfers are switched off. -/
  | transfersDisabled (length : Nat)
  /-- A log line came and nobody takes log lines. -/
  | logUnhandled (length : Nat)
  /-- A record of an unknown kind was dropped. -/
  | unknownKind (tag : UInt8) (length : Nat)
  /-- A log line of an application. -/
  | logLine (text : String)
  /-- A transfer was asked for. -/
  | transferRequested (appid ctxid : Id) (file : String) (delete : Bool)
  /-- A transfer was asked for at that address. -/
  | requestSent (ingress file : String)
  /-- The settings were written. -/
  | settingsSaved (path : String)
  /-- The program has its settings. -/
  | starting (version : String) (ecu : Id)
  /-- What a channel has counted, when the one transfer that used it is over. -/
  | channelCounted (messages bytes sendFailures dropped : Nat)
  /-- The daemon takes records. -/
  | listening (ingress target : String) (ecu : Id) (fileTransfer : Bool)
  /-- A frame was dropped. -/
  | frameDropped (peer error : String)
  /-- Somebody interrupted the program. -/
  | interrupted
  /-- The daemon was told to end. -/
  | shuttingDown
  /-- The daemon has ended. -/
  | stopped (records unknown messages sendFailures : Nat)
  /-- The program ends. -/
  | ended
  deriving DecidableEq

namespace Event

/-- How loud an event is. -/
def severity : Event → Severity
  | outputConnected .. | sendFailed .. | streaming .. | sourceDeleted .. | transferAccepted ..
  | recordDropped .. | unknownKind .. | transferRequested .. | settingsSaved ..
  | frameDropped .. | channelCounted .. => .debug
  | transferCompleted .. | logLine .. | requestSent .. | starting .. | listening ..
  | interrupted | shuttingDown | stopped .. | ended => .info
  | deletionFailed .. | transferRejected .. | transfersDisabled .. => .warn
  | transferFailed .. => .error
  | logUnhandled .. => .trace

/-- How an event reads. -/
def message : Event → String
  | outputConnected .. => "DLT output socket connected"
  | sendFailed .. => "DLT send failed"
  | streaming .. => "streaming file"
  | transferCompleted .. => "file transfer completed"
  | transferFailed notice .. => notice
  | sourceDeleted .. => "deleted transferred file"
  | deletionFailed .. => "failed to delete transferred file"
  | transferAccepted .. => "file transfer accepted"
  | recordDropped .. => "dropping file transfer record"
  | transferRejected .. => "file transfer rejected"
  | transfersDisabled .. => "file transfer feature is disabled"
  | logUnhandled .. => "log record without handler"
  | unknownKind .. => "dropping record of unknown kind"
  | logLine text => text
  | transferRequested .. | requestSent .. => "file transfer requested"
  | settingsSaved .. => "configuration saved"
  | starting .. => "starting dltrouter"
  | channelCounted .. => "DLT channel stats"
  | listening .. => "DLT router listening"
  | frameDropped .. => "dropping frame"
  | interrupted => "shutdown signal received"
  | shuttingDown => "DLT router shutting down"
  | stopped .. => "DLT router stopped"
  | ended => "dltrouter shut down cleanly"

/-- The named values that go with an event. -/
def fields : Event → List (String × FieldValue)
  | outputConnected source target => [("local", .text source), ("target", .text target)]
  | sendFailed appid ctxid sequence error =>
    [("appid", .text appid.text), ("ctxid", .text ctxid.text), ("seq", .number sequence.toNat),
      ("error", .text error)]
  | streaming file chunkSize => [("file", .text file), ("chunk_size", .number chunkSize)]
  | transferCompleted appid ctxid file packets bytes =>
    [("appid", .text appid.text), ("ctxid", .text ctxid.text), ("file", .text file),
      ("packets", .number packets), ("bytes", .number bytes)]
  | transferFailed _ appid ctxid file packets =>
    [("appid", .text appid.text), ("ctxid", .text ctxid.text), ("file", .text file),
      ("packets", .number packets)]
  | sourceDeleted file => [("file", .text file)]
  | deletionFailed file error => [("file", .text file), ("error", .text error)]
  | transferAccepted appid ctxid file delete =>
    [("appid", .text appid.text), ("ctxid", .text ctxid.text), ("file", .text file),
      ("delete", .flag delete)]
  | recordDropped error length => [("error", .text error), ("len", .number length)]
  | transferRejected error => [("error", .text error)]
  | transfersDisabled length => [("len", .number length)]
  | logUnhandled length => [("len", .number length)]
  | unknownKind tag length => [("tag", .number tag.toNat), ("len", .number length)]
  | logLine _ => []
  | transferRequested appid ctxid file delete =>
    [("appid", .text appid.text), ("ctxid", .text ctxid.text), ("file", .text file),
      ("delete", .flag delete)]
  | requestSent ingress file => [("ingress", .text ingress), ("file", .text file)]
  | settingsSaved path => [("path", .text path)]
  | starting version ecu => [("version", .text version), ("ecu", .text ecu.text)]
  | channelCounted messages bytes sendFailures dropped =>
    [("stats", .text ("ChannelStats \x7b messages: " ++ toString messages ++ ", bytes: "
      ++ toString bytes ++ ", send_failures: " ++ toString sendFailures ++ ", dropped: "
      ++ toString dropped ++ " \x7d"))]
  | listening ingress target ecu fileTransfer =>
    [("ingress", .text ingress), ("target", .text target), ("ecu", .text ecu.text),
      ("file_transfer", .flag fileTransfer)]
  | frameDropped peer error => [("peer", .text peer), ("error", .text error)]
  | interrupted | shuttingDown | ended => []
  | stopped records unknown messages sendFailures =>
    [("records", .number records), ("unknown", .number unknown),
      ("messages", .number messages), ("send_failures", .number sendFailures)]

/-- The log an event belongs to, if it is not the courier's own: the lines of
applications have one to themselves. -/
def target? : Event → Option String
  | logLine _ => some "dltrouter::record"
  | _ => none

end Event

end LogCourier
