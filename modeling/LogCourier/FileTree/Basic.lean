import LogCourier.Bytes
import LogCourier.IoError

/-!
# File trees

The files a courier can see, as a value: **names** in one place, **contents** in
another. A node of the tree is a directory with more nodes in it, a link, or the
number of a file; the bytes of a file are found by its number. So a file that is
open can be read to its end even though its name has gone or now means another
file.

Locations are absolute and plain: the names from the root down, without `.`, `..`
and links. What a written path means is the business of `LogCourier.FileTree.Path`.

This file has what can be done at a location, without asking whether it makes
sense there. That a removed file keeps its bytes is deliberate: somebody may
still be reading it.
-/

namespace LogCourier

/-- A place in a tree: the names from the root down. -/
abbrev Location := List String

/-- What there is at a location. -/
inductive Node
  /-- The file of that number. -/
  | file (number : Nat)
  /-- A directory, and what is in it. -/
  | directory (entries : List (String × Node))
  /-- A link to the path written in it. -/
  | link (target : String)

/-- What is in a directory: nodes by name. -/
abbrev Directory := List (String × Node)

/-- Whether a node is a directory. -/
def Node.isDirectory : Node → Bool
  | directory _ => true
  | file _ | link _ => false

namespace Directory

/-- The directory without a name. -/
def remove (d : Directory) (name : String) : Directory :=
  d.filter (·.1 ≠ name)

/-- The directory with a name for something, in place of what it stood for. -/
def put (d : Directory) (name : String) (n : Node) : Directory :=
  (name, n) :: d.remove name

/-- What there is at a location, from a directory on. -/
def node? : Directory → Location → Option Node
  | d, [] => some (.directory d)
  | d, name :: rest =>
    match d.lookup name with
    | some (.directory inner) => node? inner rest
    | some n => if rest = [] then some n else none
    | none => none

/-- The directory with a node, or nothing, at a location. It is not changed where there is
no directory for that node to be in. -/
def set (n? : Option Node) : Directory → Location → Directory
  | d, [] => d
  | d, [name] =>
    match n? with
    | some n => d.put name n
    | none => d.remove name
  | d, name :: rest =>
    match d.lookup name with
    | some (.directory inner) => d.put name (.directory (set n? inner rest))
    | _ => d

end Directory

mutual

/-- What is below a node, each with its location from there. What is in a directory
comes after it. -/
def Node.inside : Node → List (Location × Node)
  | .directory entries => Directory.inside entries
  | .file _ | .link _ => []

/-- What is in a directory, and below that. -/
def Directory.inside : Directory → List (Location × Node)
  | [] => []
  | (name, n) :: rest =>
    ([name], n) :: n.inside.map (fun (loc, m) => (name :: loc, m)) ++ Directory.inside rest

end

/-- Directories, links and files. -/
structure FileTree where
  /-- What is in the outermost directory. -/
  root : Directory
  /-- The bytes of each file, by its number. -/
  contents : List Bytes
  /-- Where relative paths start. -/
  workingDirectory : Location

namespace FileTree

/-- A tree without anything but its root. -/
def empty : FileTree :=
  { root := [], contents := [], workingDirectory := [] }

/-- What there is at a location. -/
def node? (t : FileTree) (loc : Location) : Option Node :=
  t.root.node? loc

/-- The bytes of a file. -/
def content (t : FileTree) (number : Nat) : Bytes :=
  t.contents.getD number []

/-- The tree with other bytes in a file. -/
def setContent (t : FileTree) (number : Nat) (bs : Bytes) : FileTree :=
  { t with contents := t.contents.set number bs }

/-- The tree without what was at a location. -/
def erase (t : FileTree) (loc : Location) : FileTree :=
  { t with root := t.root.set none loc }

/-- The tree with something at a location, in place of what was there. -/
def insert (t : FileTree) (loc : Location) (n : Node) : FileTree :=
  { t with root := t.root.set (some n) loc }

/-- The tree with a new file at a location. -/
def insertFile (t : FileTree) (loc : Location) (bs : Bytes) : FileTree :=
  { t.insert loc (.file t.contents.length) with contents := t.contents ++ [bs] }

/-- The tree with what is at `source` moved to `target`. -/
def move (t : FileTree) (source target : Location) : FileTree :=
  match t.node? source with
  | some n => (t.erase source).insert target n
  | none => t

/-- What is below a location, each with its path from there. -/
def below (t : FileTree) (loc : Location) : List (String × Node) :=
  match t.node? loc with
  | some n => n.inside.map fun (l, m) => ("/".intercalate l, m)
  | none => []

end FileTree

end LogCourier
