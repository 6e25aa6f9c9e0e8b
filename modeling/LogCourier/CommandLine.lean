import LogCourier.Id

/-!
# The command line

What the program is asked to do, from the words it is called with. Options come
before the command and concern the program, or after it and concern the command:

| where | option | what |
| --- | --- | --- |
| before | `-c`, `--config` with a path | the settings file |
| before | `-v`, `--verbose` | log more |
| before | `-V`, `--version` | tell the version |
| `transfer` | `--delete` | remove the file afterwards |
| `transfer` | `--appid`, `--ctxid` with an identifier | whom the messages name |
| `transfer` | `--local` | carry the file from here |
| everywhere | `-h`, `--help` | tell how the program is used |

An option is given once at most, and in full. The value of a long option is the
next word or stands behind `=`; short options may be written together, the last of
them with its value. Behind `--` there are only words that are no options.

The words are read from left to right, and the first thing that ends the reading –
a mistake, or a wish for help – decides. What is missing is only found at the end.

A path of the settings that is a word of its own **waits**: whether it will do is
asked when the next option comes, or else when the command has been read. So a
wish for help behind the command is heard even if the path before it will not do.
-/

namespace LogCourier.CommandLine

/-- What a transfer is asked with. -/
structure TransferWish where
  /-- The path of the file. -/
  file : String
  /-- Whether it is removed afterwards. -/
  delete : Bool
  /-- The application that the messages name. -/
  appid : Id
  /-- The context that the messages name. -/
  ctxid : Id
  /-- Whether the file is carried from here. -/
  here : Bool
  deriving DecidableEq

/-- What the program is to do. -/
inductive Command
  /-- Take records until interrupted. -/
  | serve
  /-- Have a file carried. -/
  | transfer (wish : TransferWish)
  /-- Print the settings. -/
  | showSettings
  deriving DecidableEq

/-- The commands one can ask about. -/
inductive Topic
  /-- The program as a whole. -/
  | program
  /-- `serve`. -/
  | serve
  /-- `transfer`. -/
  | transfer
  /-- `config`. -/
  | config
  /-- `help`. -/
  | help
  deriving DecidableEq, Repr

/-- What the words of a command line come to. -/
structure Request where
  /-- The path of the settings, if it is given. -/
  settings : Option String
  /-- Whether to log more. -/
  verbose : Bool
  /-- What to do. -/
  command : Command
  deriving DecidableEq

/-- Why the words of a command line come to no request. -/
inductive Stop
  /-- Somebody wants to know how the program is used. -/
  | help (topic : Topic)
  /-- Somebody wants to know the version. -/
  | version
  /-- The words are wrong. -/
  | usage
  deriving DecidableEq, Repr

/-! ### Words -/

/-- A word, by what it looks like. -/
inductive Word
  /-- `--`. -/
  | ends
  /-- `--name`, and perhaps `=value`. -/
  | long (name : String) (value : Option String)
  /-- `-` and letters. -/
  | short (letters : List Char)
  /-- Anything else. -/
  | plain (text : String)
  deriving DecidableEq, Repr

/-- What a word looks like. -/
def Word.ofString (s : String) : Word :=
  match s.toList with
  | ['-', '-'] => .ends
  | '-' :: '-' :: rest =>
    match rest.span (· ≠ '=') with
    | (name, '=' :: value) => .long (String.ofList name) (some (String.ofList value))
    | (name, _) => .long (String.ofList name) none
  | '-' :: c :: rest => .short (c :: rest)
  | _ => .plain s

/-- The value of a short option that stands right behind it, and an `=` perhaps. -/
def attached? : List Char → Option String
  | [] => none
  | '=' :: rest => some (String.ofList rest)
  | rest => some (String.ofList rest)

/-- A word as the value of the option before it. -/
def valueOf : List String → Except Stop (String × List String)
  | [] => .error .usage
  | word :: rest =>
    match Word.ofString word with
    | .plain s => .ok (s, rest)
    | _ => .error .usage

/-- The value of a long option: behind `=`, or the next word. -/
def longValue (value : Option String) (rest : List String) : Except Stop (String × List String) :=
  match value with
  | some v => .ok (v, rest)
  | none => valueOf rest

/-! ### Behind a command -/

/-- What has been read of `transfer`. -/
structure Draft where
  /-- The path of the file. -/
  file : Option String
  /-- Whether `--delete` was there. -/
  delete : Bool
  /-- The value of `--appid`. -/
  appid : Option Id
  /-- The value of `--ctxid`. -/
  ctxid : Option Id
  /-- Whether `--local` was there. -/
  here : Bool

/-- Nothing yet. -/
def Draft.empty : Draft :=
  { file := none, delete := false, appid := none, ctxid := none, here := false }

/-- The draft with a file; there is one at most. -/
def Draft.addFile (d : Draft) (s : String) : Except Stop Draft :=
  if d.file.isSome then .error .usage else .ok { d with file := some s }

/-- An identifier given as a value. -/
def idOf (s : String) : Except Stop Id :=
  match Id.ofText s with
  | .ok id => .ok id
  | .error _ => .error .usage

/-- What the draft asks for, if there is a file. -/
def Draft.wish (d : Draft) : Except Stop TransferWish :=
  match d.file with
  | none => .error .usage
  | some file =>
    .ok { file, delete := d.delete, appid := d.appid.getD Id.ft, ctxid := d.ctxid.getD Id.ft,
          here := d.here }

/-- The draft after a long option, and the words that are left. -/
def Draft.addLong (d : Draft) (name : String) (value : Option String) (rest : List String) :
    Except Stop (Draft × List String) := do
  match name, value with
  | "delete", none =>
    if d.delete then throw .usage
    return ({ d with delete := true }, rest)
  | "local", none =>
    if d.here then throw .usage
    return ({ d with here := true }, rest)
  | "appid", value =>
    let (s, rest) ← longValue value rest
    let id ← idOf s
    if d.appid.isSome then throw .usage
    return ({ d with appid := some id }, rest)
  | "ctxid", value =>
    let (s, rest) ← longValue value rest
    let id ← idOf s
    if d.ctxid.isSome then throw .usage
    return ({ d with ctxid := some id }, rest)
  | "help", none => throw (.help .transfer)
  | _, _ => throw .usage

/-- Read at most so many words behind `transfer`. -/
def readTransfer : Nat → Draft → List String → Except Stop TransferWish
  | _, d, [] => d.wish
  | 0, _, _ :: _ => .error .usage
  | fuel + 1, d, word :: rest =>
    match Word.ofString word with
    | .ends => do (← rest.foldlM Draft.addFile d).wish
    | .plain s => do readTransfer fuel (← d.addFile s) rest
    | .short ('h' :: _) => .error (.help .transfer)
    | .short _ => .error .usage
    | .long name value => do
      let (d, rest) ← d.addLong name value rest
      readTransfer fuel d rest

/-- Read the words behind a command that takes none. -/
def readNothing (topic : Topic) : List String → Except Stop Unit
  | [] => .ok ()
  | word :: rest =>
    match Word.ofString word with
    | .ends => if rest = [] then .ok () else .error .usage
    | .short ('h' :: _) => .error (.help topic)
    | .long "help" none => .error (.help topic)
    | _ => .error .usage

/-- The command of that name. -/
def topic? : String → Option Topic
  | "serve" => some .serve
  | "transfer" => some .transfer
  | "config" => some .config
  | "help" => some .help
  | _ => none

/-- What somebody who asks for help with those words wants to know. -/
def readHelp : Topic → List String → Stop
  | topic, [] => .help topic
  | .program, word :: rest =>
    match topic? word with
    | some topic => readHelp topic rest
    | none => .usage
  | _, _ :: _ => .usage

/-- Read the words behind a command. -/
def readCommand (topic : Topic) (words : List String) : Except Stop Command :=
  match topic with
  | .serve => (readNothing .serve words).map fun _ => .serve
  | .config => (readNothing .config words).map fun _ => .showSettings
  | .transfer => (readTransfer words.length Draft.empty words).map .transfer
  | .help | .program => .error (readHelp .program words)

/-! ### Before the command -/

/-- What has been read before the command. -/
structure Options where
  /-- The value of `--config`. -/
  settings : Option String
  /-- A value of `--config` that waits. -/
  waiting : Option String
  /-- Whether `--verbose` was there. -/
  verbose : Bool

/-- The options with a path of the settings, which is not empty; there is one at most. -/
def Options.addSettings (o : Options) (path : String) : Except Stop Options :=
  if path = "" ∨ o.settings.isSome then .error .usage else .ok { o with settings := some path }

/-- The options without anything that waits. -/
def Options.settle (o : Options) : Except Stop Options :=
  match o.waiting with
  | none => .ok o
  | some path => { o with waiting := none }.addSettings path

/-- The options with a value of `--config`, which was attached to it or is the next word,
and the words that are left. -/
def Options.addConfig (o : Options) (attached : Option String) (rest : List String) :
    Except Stop (Options × List String) :=
  match attached with
  | some path => (o.addSettings path).map (·, rest)
  | none => (valueOf rest).map fun (path, rest) => ({ o with waiting := some path }, rest)

/-- The options with the wish to log more; it is expressed once at most. -/
def Options.addVerbose (o : Options) : Except Stop Options :=
  if o.verbose then .error .usage else .ok { o with verbose := true }

/-- The options after short ones that are written together, and the words that are left. -/
def Options.addShort (o : Options) : List Char → List String → Except Stop (Options × List String)
  | [], rest => .ok (o, rest)
  | c :: more, rest =>
    if c = 'v' then
      match o.addVerbose with
      | .ok o => Options.addShort o more rest
      | .error e => .error e
    else if c = 'c' then o.addConfig (attached? more) rest
    else if c = 'h' then .error (.help .program)
    else if c = 'V' then .error .version
    else .error .usage

/-- The options after a long one, and the words that are left. -/
def Options.addLong (o : Options) (name : String) (value : Option String) (rest : List String) :
    Except Stop (Options × List String) := do
  match name, value with
  | "config", value => o.addConfig value rest
  | "verbose", none => return (← o.addVerbose, rest)
  | "help", none => throw (.help .program)
  | "version", none => throw .version
  | _, _ => throw .usage

/-- Read at most so many words. -/
def readWords : Nat → Options → List String → Except Stop Request
  | 0, _, _ => .error .usage
  | _, _, [] => .error .usage
  | fuel + 1, o, word :: rest =>
    match Word.ofString word with
    | .ends => .error .usage
    | .plain s =>
      match topic? s with
      | none => .error .usage
      | some topic => do
        let command ← readCommand topic rest
        let o ← o.settle
        return { settings := o.settings, verbose := o.verbose, command }
    | .short letters => do
      let (o, rest) ← (← o.settle).addShort letters rest
      readWords fuel o rest
    | .long name value => do
      let (o, rest) ← (← o.settle).addLong name value rest
      readWords fuel o rest

/-- **What a command line asks for.** -/
def read (words : List String) : Except Stop Request :=
  readWords words.length { settings := none, waiting := none, verbose := false } words

end LogCourier.CommandLine
