import LogCourier.CommandLine.Help
import LogCourier.Daemon
import LogCourier.Settings.File

/-!
# The program

One run of the program: its words are read, its settings are loaded and looked
over, and then its command is carried out. What it did shows in its status, in
what it printed, and in the site: files, network and log.

| status | when |
| --- | --- |
| `0` | all went well, or somebody asked for help or the version |
| `1` | something went wrong; what it was stands behind `Error: ` |
| `2` | the words made no sense |

A daemon runs until it is interrupted, so a run is given the frames that come until
then.
-/

namespace LogCourier.Program

/-- What a run shows. -/
structure Answer where
  /-- The status. -/
  status : UInt32
  /-- What was printed. -/
  stdout : String
  /-- What was complained about. -/
  stderr : String
  deriving DecidableEq

/-- All went well. -/
def done (stdout : String) : Answer :=
  { status := 0, stdout, stderr := "" }

/-- Something went wrong, perhaps after something was printed. -/
def failedAfter (stdout message : String) : Answer :=
  { status := 1, stdout, stderr := s!"Error: {message}\n" }

/-- Something went wrong. -/
def failed (message : String) : Answer :=
  failedAfter "" message

/-- The words came to no request. -/
def stopped : CommandLine.Stop → Answer
  | .help topic => done (CommandLine.helpText topic)
  | .version => done CommandLine.versionText
  | .usage => { status := 2, stdout := "", stderr := CommandLine.usageText }

variable {σ : Type}

/-- Print the settings. -/
def showSettings (toml : Document.Codec) (settings : Settings) : Answer :=
  match settings.text toml with
  | .ok text => done text
  | .error e => failed (Settings.FileError.unwritable e).message

/-- The entry of a transfer that is wished for. -/
def entryOf (wish : CommandLine.TransferWish) : Entry :=
  { appid := wish.appid, ctxid := wish.ctxid, fileName := wish.file, deleteFile := wish.delete }

/-- The report is printed, and a transfer that failed is a failure. -/
def reported (r : Transfer.Report) : Answer :=
  let text := r.toJson.pretty ++ "\n"
  if r.isCompleted then done text else failedAfter text "file transfer failed"

/-- Have a file carried. -/
def transfer (net : Network σ) (settings : Settings) (wish : CommandLine.TransferWish)
    (s : Site σ) : Answer × Site σ :=
  if wish.here then
    match net.transferLocal settings (entryOf wish) s with
    | (.ok r, s) => (reported r, s)
    | (.error e, s) => (failed e.message, s)
  else
    match net.trigger settings (entryOf wish) s with
    | (.ok _, s) => (done "", s)
    | (.error e, s) => (failed e.message, s)

/-- Be a daemon, for as long as those frames come. -/
def serve (net : Network σ) (settings : Settings) (frames : List (String × Bytes)) (s : Site σ) :
    Answer × Site σ :=
  match Daemon.start net settings s with
  | (.error e, s) => (failed e.message, s)
  | (.ok d, _) => (done "", (d.serve net frames).stop.2)

/-- Carry out a command. -/
def execute (toml : Document.Codec) (net : Network σ) (settings : Settings)
    (frames : List (String × Bytes)) (command : CommandLine.Command) (s : Site σ) :
    Answer × Site σ :=
  match command with
  | .showSettings => (showSettings toml settings, s)
  | .transfer wish => transfer net settings wish s
  | .serve => serve net settings frames s

/-- The settings of a run: at the path given, or where the environment says. -/
def loadSettings (toml : Document.Codec) (env : Settings.Environment) (path : Option String)
    (s : Site σ) : Except Settings.FileError Settings × Site σ :=
  match Settings.loadFrom toml (path.getD env.path) s.files with
  | (.error e, files) => (.error e, { s with files })
  | (.ok (settings, told), files) => (.ok settings, { s with files }.tell told)

/-- What is told when the settings are there. -/
def startingEvent (settings : Settings) : Event :=
  .starting CommandLine.version settings.ecu

/-- **One run of the program.** -/
def run (toml : Document.Codec) (words : List String) (env : Settings.Environment)
    (net : Network σ) (frames : List (String × Bytes)) (s : Site σ) : Answer × Site σ :=
  match CommandLine.read words with
  | .error stop => (stopped stop, s)
  | .ok request =>
    match loadSettings toml env request.settings s with
    | (.error e, s) => (failed e.message, s)
    | (.ok settings, s) =>
      match settings.check with
      | .error problem => (failed problem.message, s)
      | .ok _ =>
        execute toml net settings frames request.command (s.tell [startingEvent settings])

end LogCourier.Program
