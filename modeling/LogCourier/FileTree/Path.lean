import LogCourier.FileTree.Cursor

/-!
# Written paths

What a written path means in a tree. A path is read name by name from a starting
directory – the root if it begins with a slash, the working directory otherwise:

* an empty name and `.` stay where they are, `..` goes to the directory above;
* before every further name, an empty one included, there has to be a directory.
  So `f/` is no way to write a file `f`;
* a link on the way is replaced by the path written in it, up to forty times.

What becomes of the last name depends on what the path is read for: whether a link
is followed there, and whether something has to be there
(`LogCourier.FileTree.Purpose`). The answer is a `LogCourier.Location`.
-/

namespace LogCourier

/-- The names of a written path, empty ones included. -/
def pathNames (path : String) : List String :=
  path.splitOn "/"

/-- Whether a path starts at the root. -/
def isAbsolute (path : String) : Bool :=
  path.toList.head? = some '/'

/-- Whether a name stays where it is: it is empty, or `.`. -/
def isIdle (name : String) : Bool :=
  name = "" ∨ name = "."

namespace FileTree

/-- The longest path, and one byte more. -/
def pathLimit : Nat := 4096

/-- The longest name. -/
def nameLimit : Nat := 255

/-- The links that a path may lead through. -/
def linkLimit : Nat := 40

/-- What a path is read for, which decides about its last name. -/
inductive Purpose
  /-- To find what is there: it has to be there, and links are followed. -/
  | find
  /-- To find or make a file: links are followed, and a path with a slash at its end is
  one of a directory, whatever is there. -/
  | write
  /-- To make or remove the name itself: a link is not followed. -/
  | name
  deriving DecidableEq

/-- Where reading the names of a path has come to. -/
inductive Stop
  /-- All names are read. -/
  | at (loc : Location)
  /-- A link in that directory, with that path written in it, before those names. -/
  | link (dir : Cursor) (target : String) (rest : List String)

/-- Read names from a directory on, up to the first link. -/
def advance (purpose : Purpose) : Cursor → List String → Except IoError Stop
  | dir, [] => .ok (.at dir.location)
  | dir, name :: rest =>
    let isLast := rest.all (· = "")
    if isIdle name then advance purpose dir rest
    else if name = ".." then advance purpose dir.up rest
    else if purpose = .write ∧ isLast ∧ rest ≠ [] then .error .isDirectory
    else if nameLimit < (Bytes.ofText name).length then .error .nameTooLong
    else
      match dir.entries.lookup name with
      | some (.directory inner) => advance purpose (dir.down name inner) rest
      | some (.link target) =>
        if isLast ∧ purpose = .name then .ok (.at (dir.location ++ [name]))
        else .ok (.link dir target rest)
      | some (.file _) =>
        if rest = [] ∨ (isLast ∧ purpose = .name) then .ok (.at (dir.location ++ [name]))
        else .error .notDirectory
      | none =>
        if isLast ∧ purpose ≠ .find then .ok (.at (dir.location ++ [name]))
        else .error .notFound

/-- Read names from a directory on, through at most so many links. -/
def walk (t : FileTree) (purpose : Purpose) :
    Nat → Cursor → List String → Except IoError Location
  | links, dir, names =>
    match advance purpose dir names with
    | .error e => .error e
    | .ok (.at loc) => .ok loc
    | .ok (.link dir target rest) =>
      match links with
      | 0 => .error .tooManyLinks
      | links + 1 =>
        walk t purpose links (if isAbsolute target then t.top else dir) (pathNames target ++ rest)

/-- The directory that a path starts from. -/
def startOf (t : FileTree) (path : String) : Cursor :=
  if isAbsolute path then t.top else t.top.follow t.workingDirectory

/-- What the text of a path rules out by itself. -/
def checkPath (path : String) : Except IoError Unit :=
  if '\x00' ∈ path.toList then .error .nulInPath
  else if path = "" then .error .notFound
  else if pathLimit ≤ (Bytes.ofText path).length then .error .nameTooLong
  else .ok ()

/-- **The location that a path leads to.** -/
def resolve (t : FileTree) (purpose : Purpose) (path : String) : Except IoError Location := do
  checkPath path
  t.walk purpose linkLimit (t.startOf path) (pathNames path)

/-! ### The last name of a path -/

/-- The names of a path without the slashes that end it. -/
def trimmedNames (path : String) : List String :=
  ((pathNames path).reverse.dropWhile (· = "")).reverse

/-- Whether a path ends with a slash. -/
def endsInSlash (path : String) : Bool :=
  path.toList.getLast? = some '/'

/-- Whether a path ends with a name that something new could have. -/
def hasProperName (path : String) : Bool :=
  match (trimmedNames path).getLast? with
  | none | some "." | some ".." => false
  | some _ => true

/-- Look for the directory in which the last name of a path is. -/
def checkParent (t : FileTree) (path : String) : Except IoError Unit := do
  checkPath path
  let _ ← t.walk .find linkLimit (t.startOf path) ((trimmedNames path).dropLast ++ [""])

/-! ### Paths as text -/

/-- The path of an entry of a directory: the directory, a slash unless it ends
with one, and the name. -/
def joinPath (dir name : String) : String :=
  if dir = "" ∨ endsInSlash dir then dir ++ name else dir ++ "/" ++ name

/-- Names without the idle ones that end them. -/
def dropIdleEnd (names : List String) : List String :=
  (names.reverse.dropWhile isIdle).reverse

/-- The part of a path that counts even if nothing follows: the slash or the `.` that it
starts with. The answer has the rest of the path, too. -/
def splitStart (path : String) : String × String :=
  match path.toList with
  | '/' :: rest => ("/", String.ofList rest)
  | ['.'] => (".", "")
  | '.' :: '/' :: rest => (".", String.ofList ('/' :: rest))
  | _ => ("", path)

/-- The directory part of a path: the path as it is written, up to its last name and
without the slashes and the `.` names before that. The root and the empty path have
none; that of `.` is empty. -/
def parentPath? (path : String) : Option String :=
  match splitStart path with
  | (start, rest) =>
    match dropIdleEnd (pathNames rest) with
    | [] => if start = "." then some "" else none
    | names => some (start ++ "/".intercalate (dropIdleEnd names.dropLast))

end FileTree

end LogCourier
