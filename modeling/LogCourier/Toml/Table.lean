import LogCourier.Document

/-!
# Building tables

A TOML document fills a tree of tables bit by bit: pairs name a key, perhaps of
several parts, and headers say in which table the pairs that follow go. What may
be added to depends on how a table came about.

* A table that a key of several parts made is **dotted**, and further such keys may
  add to it. It is not open to a header of its own.
* A table that is only on the way of a header is **implicit**. Its own header may
  still come, once.
* A table with a header, and a table in braces, is complete when it ends: neither a
  header nor a key of several parts opens it again.
* A name with a doubled header stands for a list of tables, and on the way of
  another name for the last of them.

A tree is a list of entries. All changes are made at the end of a path
(`LogCourier.Toml.alterAt`); what there is for a pair, a header and a doubled
header to do there is said by the three functions after it.
-/

namespace LogCourier.Toml

/-- What a name stands for while a document is being read. -/
inductive Node
  /-- A value, which is never added to. -/
  | value (v : Document)
  /-- A table. -/
  | table (implicit dotted : Bool) (entries : List (String × Node))
  /-- The tables under a doubled header: those before the last, the latest first, and
  the last. -/
  | tables (earlier : List (List (String × Node))) (last : List (String × Node))

/-- The entries of a table. -/
abbrev Entries := List (String × Node)

/-- The same entries, but another one of that name. -/
def Entries.set (entries : Entries) (key : String) (n : Node) : Entries :=
  entries.map fun (k, old) => if k = key then (k, n) else (k, old)

/-- **Change the table at the end of a path.** Tables that are missing on the way are
made: implicit ones, and dotted ones if the way is that of a key of several parts.
Such a key only goes through implicit tables. The change is told whether the table
it is made to is dotted. -/
def alterAt (dotted : Bool) (change : Bool → Entries → Option Entries) :
    Bool → List String → Entries → Option Entries
  | own, [], entries => change own entries
  | _, key :: path, entries =>
    match entries.lookup key with
    | none => do
      let inner ← alterAt dotted change dotted path []
      some (entries ++ [(key, .table true dotted inner)])
    | some (.value _) => none
    | some (.table implicit own inner) =>
      if dotted && !implicit then none
      else do
        let inner ← alterAt dotted change own path inner
        some (Entries.set entries key (.table implicit own inner))
    | some (.tables earlier last) => do
      let inner ← alterAt dotted change false path last
      some (Entries.set entries key (.tables earlier inner))

/-- Add an entry to a table, if its name is new there. A key of several parts adds to
dotted tables only, and a key of one part to others only. -/
def addEntry (several : Bool) (key : String) (v : Document) (own : Bool) (entries : Entries) :
    Option Entries :=
  if own = several ∧ (entries.lookup key).isNone then some (entries ++ [(key, .value v)])
  else none

/-- Add a pair to a table. The key has the parts of the path and a last one. -/
def addPair (path : List String) (key : String) (v : Document) (own : Bool) (entries : Entries) :
    Option Entries :=
  alterAt true (addEntry (!path.isEmpty) key v) own path entries

/-- Begin a table with a header of its own. -/
def openTable (key : String) (entries : Entries) : Option Entries :=
  match entries.lookup key with
  | none => some (entries ++ [(key, .table false false [])])
  | some (.table true false inner) => some (Entries.set entries key (.table false false inner))
  | some _ => none

/-- Begin a table under a doubled header. -/
def openElement (key : String) (entries : Entries) : Option Entries :=
  match entries.lookup key with
  | none => some (entries ++ [(key, .tables [] [])])
  | some (.tables earlier last) => some (Entries.set entries key (.tables (last :: earlier) []))
  | some _ => none

/-! ### What has been built -/

mutual

/-- The value that a name stands for in the end. -/
def Node.document : Node → Document
  | .value v => v
  | .table _ _ entries => .table (entriesDocument entries)
  | .tables earlier last =>
    .list (.table (entriesDocument last) :: elementsDocument earlier).reverse

/-- The entries of a table in the end. -/
def entriesDocument : List (String × Node) → List (String × Document)
  | [] => []
  | (k, n) :: rest => (k, n.document) :: entriesDocument rest

/-- The tables of a list in the end, in the same order. -/
def elementsDocument : List (List (String × Node)) → List Document
  | [] => []
  | e :: rest => .table (entriesDocument e) :: elementsDocument rest

end

end LogCourier.Toml
