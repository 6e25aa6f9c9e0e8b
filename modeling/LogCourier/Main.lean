import LogCourier.LogLine
import LogCourier.Outbox
import LogCourier.Program
import LogCourier.Toml
import Std.Internal.UV.Signal
import Std.Internal.UV.UDP

/-!
# The program, in earnest

What a run of the program needs of the system, and what the system needs to do
afterwards. The files that matter are looked at before, into a file tree; what has
become of them in the tree is done after; and what was written down to be sent is
sent. Everything in between is `LogCourier.Program.run`.

A daemon does the same for every frame it takes, until it is interrupted.
-/

namespace LogCourier.Main

open Std.Internal.UV

/-! ### Errors and addresses -/

/-- An error of the system, by its number if it has one. -/
def ioError (e : IO.Error) : IoError :=
  let number (n : UInt32) : IoError :=
    .code (if n < 2147483648 then n else 0 - n).toInt32
  match e with
  | .alreadyExists _ n _ | .otherError n _ | .resourceBusy n _ | .resourceVanished n _
  | .unsupportedOperation n _ | .hardwareFault n _ | .unsatisfiedConstraints n _
  | .illegalOperation n _ | .protocolError n _ | .timeExpired n _ | .interrupted _ n _
  | .noFileOrDirectory _ n _ | .invalidArgument _ n _ | .permissionDenied _ n _
  | .resourceExhausted _ n _ | .inappropriateType _ n _ | .noSuchThing _ n _ => number n
  | .unexpectedEof => .refused "unexpected end of file"
  | .userError s => .refused s

/-- An address, for the system. -/
def systemAddress : SocketAddress → Std.Net.SocketAddress
  | .v4 h port => .v4 ⟨⟨#v[h.a, h.b, h.c, h.d]⟩, port⟩
  | .v6 h _ port => .v6 ⟨⟨⟨h.groups.toArray, by simp [h.length_eq]⟩⟩, port⟩

/-- An address, from the system. -/
def ownAddress : Std.Net.SocketAddress → SocketAddress
  | .v4 a => .v4 ⟨a.addr.octets[0], a.addr.octets[1], a.addr.octets[2], a.addr.octets[3]⟩ a.port
  | .v6 a => .v6 ⟨a.addr.segments.toList, by simp⟩ 0 a.port

/-- Any address of the same family, and any port. -/
def anyLike : SocketAddress → SocketAddress
  | .v4 .. => .v4 ⟨0, 0, 0, 0⟩ 0
  | .v6 .. => .v6 ⟨List.replicate 8 0, by simp⟩ 0 0

/-- A socket bound to an address, and the address it got. -/
def bound (a : SocketAddress) : IO (Except IoError (UDP.Socket × SocketAddress)) := do
  try
    let socket ← UDP.Socket.new
    socket.bind (systemAddress a)
    return .ok (socket, ownAddress (← socket.getSockName))
  catch e => return .error (ioError e)

/-- A socket that sends to an address, and its own address. -/
def connected (a : SocketAddress) : IO (Except IoError (UDP.Socket × SocketAddress)) := do
  match ← bound (anyLike a) with
  | .error e => return .error e
  | .ok (socket, near) =>
    try
      socket.connect (systemAddress a)
      return .ok (socket, near)
    catch e => return .error (ioError e)

/-! ### Files -/

/-- The names from the root down to where a path leads, links aside. -/
def locate (start : Location) (path : String) : Location :=
  (pathNames path).foldl
    (fun loc name =>
      if isIdle name then loc
      else if name = ".." then loc.dropLast
      else loc ++ [name])
    (if isAbsolute path then [] else start)

/-- The path of a location. -/
def pathOf (loc : Location) : String :=
  "/" ++ "/".intercalate loc

/-- A tree with what there is at a location, and above it. -/
def lookAt (t : FileTree) (loc : Location) : IO FileTree := do
  let here ← IO.currentDir
  let mut t := t
  for n in List.range loc.length do
    let part := loc.take (n + 1)
    let path := here / pathOf part
    if (t.node? part).isNone then
      if ← path.isDir then
        t := t.insert part (.directory [])
      else if ← path.pathExists then
        let content ← if part = loc then IO.FS.readBinFile path else pure ByteArray.empty
        t := t.insertFile part content.data.toList
  return t

/-- A tree with what there is at some paths. -/
def look (paths : List String) : IO FileTree := do
  let here := locate [] (← IO.currentDir).toString
  let mut t := { FileTree.empty with workingDirectory := here }
  t ← lookAt t here
  for path in paths do
    t ← lookAt t (locate here path)
  return t

/-- What has become of a tree. -/
def apply (before after : FileTree) : IO Unit := do
  for (loc, _) in before.root.inside do
    if (after.node? loc).isNone then IO.FS.removeFile (pathOf loc)
  for (loc, node) in after.root.inside do
    match node, before.node? loc with
    | .directory _, some (.directory _) | .link _, _ => pure ()
    | .directory _, _ => IO.FS.createDirAll (pathOf loc)
    | .file number, there =>
      let content := after.content number
      let same : Bool := match there with
        | some (.file former) => former = number ∧ before.content number = content
        | _ => false
      unless same do IO.FS.writeBinFile (pathOf loc) ⟨content.toArray⟩

/-! ### Sending and telling -/

/-- Do what has been written down. All datagrams of a run go to one address, which the socket
sends to. -/
def perform (socket : Option UDP.Socket) (items : List Outbox.Item) : IO Unit := do
  for item in items do
    match item, socket with
    | .wait nanos, _ => IO.sleep (UInt32.ofNat ((nanos + 999999) / 1000000))
    | .datagram _ bs, some socket =>
      let sent ← socket.send #[⟨bs.toArray⟩] none
      let _ ← IO.wait sent.result?
    | .datagram _ _, none => pure ()

/-- Show the events that are to be shown. -/
def tell (filter : String) (events : List Event) : IO Unit := do
  for e in events do
    if e.isShown filter then IO.println e.line

/-- The time. -/
def now : IO Instant := do
  return ⟨← IO.monoNanosNow⟩

/-! ### The daemon -/

/-- Something that a daemon waits for. -/
inductive Arrival
  /-- A frame, from somebody. -/
  | frame (peer : String) (bs : Bytes)
  /-- An interruption. -/
  | interrupted
  /-- Nothing worth while. -/
  | nothing

/-- The paths that matter for a frame. -/
def pathsIn (frame : Bytes) : List String :=
  match frame with
  | tag :: body =>
    if tag = Record.Kind.fileTransfer.tag then
      match Entry.decode body with
      | .ok entry => [entry.fileName]
      | .error _ => []
    else []
  | [] => []

/-- The next thing that happens. -/
def arrival (ingress : UDP.Socket) (interrupt : Task Arrival) : IO Arrival := do
  let promise ← ingress.recv (UInt64.ofNat Record.maxFrameLength)
  let frames := promise.result?.map fun
    | some (.ok (bs, peer)) =>
      Arrival.frame ((peer.map fun a => (ownAddress a).text).getD "") bs.data.toList
    | _ => .nothing
  IO.waitAny [interrupt, frames]

/-- A daemon that has taken a frame, and done all that follows from it. -/
def takeFrame (net : Network Outbox) (filter : String) (output : UDP.Socket) (d : Daemon Outbox)
    (peer : String) (bs : Bytes) : IO (Daemon Outbox) := do
  let files ← look (pathsIn bs)
  let outbox := Outbox.empty (← now)
  let site := { d.site with files, output := (d.site.output.1, outbox), log := [] }
  let d := ({ d with site }.receive peer bs).finishTransfers net
  perform output d.site.output.2.items
  apply files d.site.files
  tell filter d.site.log
  return d

/-- Take frames until interrupted. -/
partial def takeFrames (net : Network Outbox) (filter : String) (ingress output : UDP.Socket)
    (interrupt : Task Arrival) (d : Daemon Outbox) : IO (Daemon Outbox) := do
  match ← arrival ingress interrupt with
  | .interrupted => return d
  | .nothing => takeFrames net filter ingress output interrupt d
  | .frame peer bs =>
    takeFrames net filter ingress output interrupt (← takeFrame net filter output d peer bs)

/-- Be a daemon. -/
def serve (settings : Settings) (filter : String) (files : FileTree) : IO Program.Answer := do
  let signal ← Signal.mk 2 false
  let interrupt := (← signal.next).result?.map fun _ => Arrival.interrupted
  let ingress ← bound settings.ingress
  let output ← connected settings.target
  let start ← now
  let net := Outbox.network start (ingress.map Prod.snd) (output.map Prod.snd)
  match Daemon.start net settings { files, output := Outbox.empty start, log := [] },
      ingress, output with
  | (.ok d, s), .ok (ingress, _), .ok (output, _) =>
    tell filter s.log
    let d ← takeFrames net filter ingress output interrupt d
    tell filter [.interrupted, .shuttingDown, d.summary.event, .ended]
    return Program.done ""
  | (.error e, _), _, _ => return Program.failed e.message
  | _, _, _ => return Program.failed ""

/-! ### One run -/

/-- The environment. -/
def environment : IO Settings.Environment := do
  return {
    explicit := ← IO.getEnv "DLTROUTER_CONFIG"
    configHome := ← IO.getEnv "XDG_CONFIG_HOME"
    home := ← IO.getEnv "HOME" }

/-- The file that is to be carried from here, if there is one. -/
def carried : CommandLine.Command → List String
  | .transfer wish => if wish.here then [wish.file] else []
  | _ => []

/-- Where the program will send something, if anywhere. -/
def outputOf (settings : Settings) : CommandLine.Command → Option SocketAddress
  | .transfer wish => some (if wish.here then settings.target else settings.ingress)
  | _ => none

/-- Have a request carried out. -/
def carryOut (words : List String) (request : CommandLine.Request) : IO Program.Answer := do
  let env ← environment
  let files ← look (request.settings.getD env.path :: carried request.command)
  let start ← now
  let site : Site Outbox := { files, output := Outbox.empty start, log := [] }
  let settings :=
    (Program.loadSettings Toml.codec env request.settings site).1.toOption.getD .default
  let socket ← match outputOf settings request.command with
    | some target => connected target
    | none => pure (.error .networkUnreachable)
  let filter := (← IO.getEnv "RUST_LOG").getD (settings.filter request.verbose)
  match request.command, settings.check with
  | .serve, .ok _ =>
    match Program.loadSettings Toml.codec env request.settings site with
    | (.error e, _) => return Program.failed e.message
    | (.ok settings, site) =>
      apply files site.files
      tell filter [Program.startingEvent settings]
      serve settings filter site.files
  | _, _ =>
    let net := Outbox.network start (.error .networkUnreachable) (socket.map Prod.snd)
    let (answer, site) := Program.run Toml.codec words env net [] site
    perform (socket.toOption.map Prod.fst) site.output.items
    apply files site.files
    tell filter site.log
    return answer

/-- One run. -/
def run (words : List String) : IO Program.Answer := do
  match CommandLine.read words with
  | .error stop => return Program.stopped stop
  | .ok request =>
    try carryOut words request
    catch e => return Program.failed (ioError e).message

end LogCourier.Main

/-- The program. -/
def main (words : List String) : IO UInt32 := do
  let answer ← LogCourier.Main.run words
  IO.print answer.stdout
  IO.eprint answer.stderr
  return answer.status
