import LogCourier.FileTree.Path
import LogCourier.ChunkReader

/-!
# Working with files

The operations of a file system on a `LogCourier.FileTree`, each with the error it
gives where it does not apply. What is asked for by path is looked up by
`LogCourier.FileTree.resolve`, for the purpose of the operation.

An **open file** is a number and a position. Reading goes by the number, so it
does not notice what happens to the name.
-/

namespace LogCourier

/-- A file or a directory that has been opened. -/
structure OpenFile where
  /-- The number of the file; a directory has none. -/
  number? : Option Nat
  /-- How many bytes have been read. -/
  position : Nat
  deriving DecidableEq

namespace FileTree

/-! ### Looking -/

/-- What a path leads to. -/
def stat (t : FileTree) (path : String) : Except IoError Node := do
  let loc ← t.resolve .find path
  match t.node? loc with
  | some n => .ok n
  | none => .error .notFound

/-- Whether a path leads to something. -/
def pathExists (t : FileTree) (path : String) : Bool :=
  (t.stat path).toOption.isSome

/-- Whether a path leads to a directory. -/
def isDirectory (t : FileTree) (path : String) : Bool :=
  (t.stat path).toOption.any Node.isDirectory

/-! ### Reading -/

/-- Open a file, or a directory, to read it from the start. -/
def openFile (t : FileTree) (path : String) : Except IoError OpenFile := do
  match ← t.stat path with
  | .file number => .ok { number? := some number, position := 0 }
  | .directory _ | .link _ => .ok { number? := none, position := 0 }

/-- Read at most `limit` bytes. A directory cannot be read. -/
def read (t : FileTree) (limit : Nat) (f : OpenFile) : Reading × OpenFile :=
  match f.number? with
  | none => (.failed .isDirectory, f)
  | some number =>
    let bs := ((t.content number).drop f.position).take limit
    (.data bs, { f with position := f.position + bs.length })

/-- All bytes of a file. -/
def readFile (t : FileTree) (path : String) : Except IoError Bytes := do
  let f ← t.openFile path
  match f.number? with
  | none => .error .isDirectory
  | some number => .ok (t.content number)

/-- All of a file, as text. -/
def readText (t : FileTree) (path : String) : Except IoError String := do
  match Bytes.text? (← t.readFile path) with
  | some s => .ok s
  | none => .error .notText

/-! ### Changing -/

/-- Remove a file or a link. -/
def removeFile (t : FileTree) (path : String) : Except IoError FileTree := do
  if hasProperName path then
    let loc ← t.resolve .name path
    match t.node? loc with
    | none => .error .notFound
    | some (.directory _) => .error .isDirectory
    | some (.file _) | some (.link _) =>
      if endsInSlash path then .error .notDirectory else .ok (t.erase loc)
  else
    t.checkParent path
    .error .isDirectory

/-- Make a directory. -/
def makeDirectory (t : FileTree) (path : String) : Except IoError FileTree := do
  if hasProperName path then
    let loc ← t.resolve .name path
    match t.node? loc with
    | some _ => .error .fileExists
    | none => .ok (t.insert loc (.directory []))
  else
    t.checkParent path
    .error .fileExists

/-- A path and the directory parts of it, of it and so on, the longest first; the
empty path is not among them. -/
def ancestors (path : String) : List String :=
  go path.length path
where
  /-- At most so many of them. -/
  go : Nat → String → List String
    | 0, _ => []
    | fuel + 1, path =>
      if path = "" then []
      else path :: (match parentPath? path with
        | some parent => go fuel parent
        | none => [])

/-- Make the first directory of a list of paths, each but the last below the next. Where
it is missing something above it, that is made first and stays even if what is below
cannot be made then. -/
def makeDirectories (t : FileTree) : List String → Except IoError Unit × FileTree
  | [] => (.ok (), t)
  | path :: above =>
    match t.makeDirectory path with
    | .ok t => (.ok (), t)
    | .error e =>
      if e = .notFound then
        match makeDirectories t above with
        | (.error e, t) => (.error e, t)
        | (.ok _, t) => settle t path (t.makeDirectory path)
      else settle t path (.error e)
where
  /-- A directory that is there already is as good as one that was made. -/
  settle (t : FileTree) (path : String) : Except IoError FileTree → Except IoError Unit × FileTree
    | .ok t => (.ok (), t)
    | .error e => (if t.isDirectory path then .ok () else .error e, t)

/-- Make a directory and the missing ones above it. The empty path is there. -/
def makeDirectoryAll (t : FileTree) (path : String) : Except IoError Unit × FileTree :=
  t.makeDirectories (ancestors path)

/-- Write a file, making it if there is none and emptying it first if there is. -/
def writeFile (t : FileTree) (path : String) (bs : Bytes) : Except IoError FileTree := do
  let loc ← t.resolve .write path
  match t.node? loc with
  | some (.file number) => .ok (t.setContent number bs)
  | some (.directory _) | some (.link _) => .error .isDirectory
  | none => .ok (t.insertFile loc bs)

/-- Replace the bytes of a file that is there. -/
def modifyFile (t : FileTree) (path : String) (f : Bytes → Bytes) : Except IoError FileTree := do
  match ← t.stat path with
  | .file number => .ok (t.setContent number (f (t.content number)))
  | .directory _ | .link _ => .error .isDirectory

/-- Cut a file down to a length, or fill it up to it with NUL. -/
def truncateFile (t : FileTree) (path : String) (length : Nat) : Except IoError FileTree :=
  t.modifyFile path fun bs => bs.take length ++ List.replicate (length - bs.length) 0

/-- Write behind the end of a file. -/
def appendFile (t : FileTree) (path : String) (more : Bytes) : Except IoError FileTree :=
  t.modifyFile path (· ++ more)

/-- Give something another name, in place of what has that name. A directory takes the
place of an empty one only, and does not go into itself. -/
def rename (t : FileTree) (source target : String) : Except IoError FileTree := do
  let here ← t.resolve .name source
  let there ← t.resolve .name target
  if !hasProperName source || !hasProperName target then .error .busy
  else
    match t.node? here, t.node? there with
    | none, _ => .error .notFound
    | some (.directory _), other =>
      if here = there then .ok t
      else if here.isPrefixOf there then .error .invalid
      else
        match other with
        | none | some (.directory []) => .ok (t.move here there)
        | some (.directory (_ :: _)) => .error .notEmpty
        | some (.file _) | some (.link _) => .error .notDirectory
    | some _, some (.directory _) => .error .isDirectory
    | some _, _ =>
      if endsInSlash source || endsInSlash target then .error .notDirectory
      else if here = there then .ok t
      else .ok (t.move here there)

/-- Make a link to a path. -/
def makeLink (t : FileTree) (path target : String) : Except IoError FileTree := do
  let loc ← t.resolve .name path
  match t.node? loc with
  | some _ => .error .fileExists
  | none => if endsInSlash path then .error .notFound else .ok (t.insert loc (.link target))

end FileTree

end LogCourier
