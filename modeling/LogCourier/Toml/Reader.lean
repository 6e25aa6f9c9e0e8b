import LogCourier.Toml.Quoted
import LogCourier.Toml.Table
import LogCourier.Toml.Token

/-!
# Reading TOML

A document is a row of lines, each with a pair, a header, a comment or nothing.
Reading it answers with the table it describes, or with nothing if it is none.

Values may hold values, in brackets and in braces, up to a depth
(`LogCourier.Toml.maxDepth`). The reader of values is given the depth that is left
and hands a smaller one on, which is also why it ends. A key has at most as many
parts. How many values there may be side by side, and how many lines, is bounded by
the length of the whole text, which no text can exceed.

The main function is `LogCourier.Toml.read?`.
-/

namespace LogCourier.Toml

/-- How deep values may be nested, and how many parts a key may have. -/
def maxDepth : Nat := 79

/-! ### Keys -/

/-- Whether a character may stand in a name without quotes. -/
def isNameChar (c : Char) : Bool :=
  let n := c.toNat
  (48 ≤ n && n ≤ 57) || (65 ≤ n && n ≤ 90) || (97 ≤ n && n ≤ 122) || c == '_' || c == '-'

/-- One part of a key: quoted text, or a name. -/
def readName? (cs : List Char) : Option (String × List Char) :=
  match cs.head? with
  | some '"' | some '\'' => (readQuotedLine? cs).map fun (s, rest) => (String.ofList s, rest)
  | _ =>
    match cs.span isNameChar with
    | (name, rest) => if name = [] then none else some (String.ofList name, rest)

/-- A key of at most so many parts: what comes before its last part, that part, and the
text that is left. Blanks may stand around every part. -/
def readKey? : Nat → List Char → Option (List String × String × List Char)
  | 0, _ => none
  | parts + 1, cs => do
    let (name, rest) ← readName? (skipSpaces cs)
    match skipSpaces rest with
    | '.' :: rest => do
      let (path, last, rest) ← readKey? parts rest
      some (name :: path, last, rest)
    | rest => some ([], name, rest)

/-! ### Values -/

/-- A reader of values. -/
abbrev ValueReader := List Char → Option (Document × List Char)

/-- A pair: a key, the sign between, and a value. -/
def readPair? (value : ValueReader) (cs : List Char) :
    Option (List String × String × Document × List Char) := do
  let (path, key, rest) ← readKey? maxDepth cs
  match rest with
  | '=' :: rest => do
    let (v, rest) ← value (skipSpaces rest)
    some (path, key, v, rest)
  | _ => none

/-- The values behind an opening bracket, up to the closing one, at most so many. A comma
may stand behind the last. -/
def readItems? (value : ValueReader) : Nat → List Char → Option (List Document × List Char)
  | 0, _ => none
  | fuel + 1, cs =>
    match skipFiller false cs with
    | ']' :: rest => some ([], rest)
    | cs => do
      let (v, rest) ← value cs
      match skipFiller false rest with
      | ']' :: rest => some ([v], rest)
      | ',' :: rest => do
        let (vs, rest) ← readItems? value fuel rest
        some (v :: vs, rest)
      | _ => none

/-- The pairs behind an opening brace, up to the closing one, at most so many, added to
what there is. -/
def readFields? (value : ValueReader) : Nat → Entries → List Char → Option (Entries × List Char)
  | 0, _, _ => none
  | fuel + 1, entries, cs => do
    let (path, key, v, rest) ← readPair? value cs
    let entries ← addPair path key v false entries
    match skipSpaces rest with
    | '\x7d' :: rest => some (entries, rest)
    | ',' :: rest => readFields? value fuel entries rest
    | _ => none

/-- A table in braces with at most so many pairs, behind the opening one. -/
def readBraces? (value : ValueReader) (width : Nat) (cs : List Char) :
    Option (Document × List Char) :=
  match skipSpaces cs with
  | '\x7d' :: rest => some (.table [], rest)
  | _ => do
    let (entries, rest) ← readFields? value width [] cs
    some (.table (entriesDocument entries), rest)

/-- **A value**, within which at most so many values are side by side, and values may be
nested so deep. -/
def readValue? (width : Nat) : Nat → List Char → Option (Document × List Char)
  | depth, cs =>
    match cs.head?, depth with
    | some '"', _ | some '\'', _ =>
      (readQuoted? cs).map fun (s, rest) => (.text (String.ofList s), rest)
    | some '[', 0 | some '\x7b', 0 => none
    | some '[', depth + 1 =>
      (readItems? (readValue? width depth) width cs.tail).map fun (vs, rest) => (.list vs, rest)
    | some '\x7b', depth + 1 => readBraces? (readValue? width depth) width cs.tail
    | _, _ => readToken? cs

/-! ### Documents -/

/-- What has been read of a document: its tables, and into which of them pairs go. -/
structure Progress where
  /-- The entries of the outermost table. -/
  entries : Entries
  /-- The path of the table that pairs go into. -/
  path : List String

/-- The document after a pair. -/
def Progress.pair? (p : Progress) (path : List String) (key : String) (v : Document) :
    Option Progress := do
  let entries ← alterAt false (addPair path key v) false p.path p.entries
  some { p with entries }

/-- The document after a header. -/
def Progress.header? (p : Progress) (doubled : Bool) (path : List String) (key : String) :
    Option Progress := do
  let begin_ := if doubled then openElement key else openTable key
  let entries ← alterAt false (fun _ => begin_) false path p.entries
  some { entries, path := path ++ [key] }

/-- A line with a header, behind the first bracket. -/
def readHeader? (p : Progress) (cs : List Char) : Option (Progress × List Char) := do
  let (doubled, cs) := match cs with
    | '[' :: rest => (true, rest)
    | _ => (false, cs)
  let (path, key, rest) ← readKey? maxDepth cs
  let rest ← match doubled, rest with
    | true, ']' :: ']' :: rest => some rest
    | false, ']' :: rest => some rest
    | _, _ => none
  let rest ← finishLine? rest
  some (← p.header? doubled path key, rest)

/-- A line with a pair. -/
def readAssignment? (width : Nat) (p : Progress) (cs : List Char) :
    Option (Progress × List Char) := do
  let (path, key, v, rest) ← readPair? (readValue? width maxDepth) cs
  let rest ← finishLine? rest
  some (← p.pair? path key v, rest)

/-- One line, which is not empty. -/
def readLine? (width : Nat) (p : Progress) (cs : List Char) : Option (Progress × List Char) :=
  match cs.head? with
  | some '#' => (endLine? (skipComment cs)).map (p, ·)
  | some '\n' | some '\r' => (skipNewline? cs).map (p, ·)
  | some '[' => readHeader? p cs.tail
  | _ => readAssignment? width p cs

/-- At most so many lines. -/
def readLines? (width : Nat) : Nat → Progress → List Char → Option Progress
  | 0, _, _ => none
  | fuel + 1, p, cs =>
    match skipSpaces cs with
    | [] => some p
    | cs => do
      let (p, rest) ← readLine? width p cs
      readLines? width fuel p rest

/-- The text without the mark that may tell how it is encoded. -/
def skipMark : List Char → List Char
  | '\uFEFF' :: rest => rest
  | cs => cs

/-- **The table that a text describes**, if it is TOML. -/
def read? (text : String) : Option Document := do
  let cs := skipMark text.toList
  let p ← readLines? cs.length (cs.length + 1) { entries := [], path := [] } cs
  some (.table (entriesDocument p.entries))

end LogCourier.Toml
