import LogCourier.FileTree.Basic

/-!
# Going through a tree

Whoever reads a path goes from directory to directory, down by a name or up by
`..`. A `LogCourier.Cursor` stands in a directory and knows the way back: it has
the directories above, so that neither step needs a look at the whole tree.

Going up from the root leads nowhere else.
-/

namespace LogCourier

/-- A directory, and the way to it. -/
structure Cursor where
  /-- What is in the directory. -/
  entries : Directory
  /-- The directories above, the nearest first, each with the name that leads on from
  there. -/
  above : List (String × Directory)

namespace Cursor

/-- Where the directory is. -/
def location (c : Cursor) : Location :=
  (c.above.map Prod.fst).reverse

/-- In a directory of that name, which is in this one. -/
def down (c : Cursor) (name : String) (inner : Directory) : Cursor :=
  { entries := inner, above := (name, c.entries) :: c.above }

/-- In the directory above. -/
def up (c : Cursor) : Cursor :=
  match c.above with
  | [] => c
  | (_, outer) :: rest => { entries := outer, above := rest }

/-- At a location from here, or as far on the way as there are directories. -/
def follow : Cursor → Location → Cursor
  | c, [] => c
  | c, name :: rest =>
    match c.entries.lookup name with
    | some (.directory inner) => follow (c.down name inner) rest
    | _ => c

end Cursor

/-- The cursor at the root of a tree. -/
def FileTree.top (t : FileTree) : Cursor :=
  { entries := t.root, above := [] }

end LogCourier
