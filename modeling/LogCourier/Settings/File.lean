import LogCourier.FileTree
import LogCourier.Settings.Document

/-!
# Settings files

Settings are kept in a TOML file. Where it is follows from the environment; where
there is none yet, it is written with the usual settings, and whatever directories
it needs are made. How TOML is written and read is not settled here: there is a
codec for it.

A file that is there is only read. Whether what it says makes sense is asked
elsewhere, so a file that does not is read and kept as well.
-/

namespace LogCourier.Settings

/-- What the environment says about where the settings are. -/
structure Environment where
  /-- The path of the settings. -/
  explicit : Option String
  /-- The directory for settings of all kinds. -/
  configHome : Option String
  /-- The home directory. -/
  home : Option String
  deriving DecidableEq

/-- A text that is not empty. -/
def nonempty? (s : Option String) : Option String :=
  s.filter (· ≠ "")

/-- **Where the settings are.** A path that is empty does not count; an empty home does. -/
def Environment.path (env : Environment) : String :=
  match nonempty? env.explicit with
  | some path => path
  | none =>
    let base := match nonempty? env.configHome with
      | some dir => dir
      | none => FileTree.joinPath (env.home.getD "/tmp") ".config"
    FileTree.joinPath (FileTree.joinPath base "dltrouter") "dltrouter.toml"

/-- Why settings could not be read or written. -/
inductive FileError
  /-- The file at that path cannot be read. -/
  | reading (path : String) (source : IoError)
  /-- The file at that path holds no settings. -/
  | parsing (path : String)
  /-- The file cannot be written. -/
  | saving (source : IoError)
  /-- There is no written form, as the codec says. -/
  | unwritable (source : String)
  deriving DecidableEq

/-- The text of an error. -/
def FileError.message : FileError → String
  | reading path _ => s!"reading {path}"
  | parsing path => s!"parsing {path}"
  | saving source => source.message
  | unwritable source => source

section Codec

variable (toml : Document.Codec)

/-- The written form of settings, or why they have none. -/
def text (s : Settings) : Except String String :=
  toml.write s.entries

/-- The settings that a text holds. -/
def ofText? (text : String) : Option Settings :=
  toml.read? text >>= ofDocument? false

/-- Make the directory that a path is in. -/
def makeParent (path : String) (t : FileTree) : Except IoError Unit × FileTree :=
  match FileTree.parentPath? path with
  | some parent => t.makeDirectoryAll parent
  | none => (.ok (), t)

/-- **Write settings to a file.** The directory is made first, and nothing is written if
there is no written form. -/
def save (s : Settings) (path : String) (t : FileTree) :
    Except FileError (List Event) × FileTree :=
  match makeParent path t with
  | (.error e, t) => (.error (.saving e), t)
  | (.ok _, t) =>
    match s.text toml with
    | .error e => (.error (.unwritable e), t)
    | .ok text =>
      match t.writeFile path (Bytes.ofText text) with
      | .error e => (.error (.saving e), t)
      | .ok t => (.ok [.settingsSaved path], t)

/-- The settings in a file that is there. -/
def readFrom (path : String) (t : FileTree) : Except FileError Settings :=
  match t.readText path with
  | .error e => .error (.reading path e)
  | .ok text =>
    match ofText? toml text with
    | some s => .ok s
    | none => .error (.parsing path)

/-- **The settings in a file**, which is written with the usual ones if there is none. -/
def loadFrom (path : String) (t : FileTree) :
    Except FileError (Settings × List Event) × FileTree :=
  if t.pathExists path then ((readFrom toml path t).map (·, []), t)
  else
    match default.save toml path t with
    | (.error e, t) => (.error e, t)
    | (.ok told, t) => (.ok (default, told), t)

/-- The settings where the environment says. -/
def load (env : Environment) (t : FileTree) :
    Except FileError (Settings × List Event) × FileTree :=
  loadFrom toml env.path t

end Codec

end LogCourier.Settings
