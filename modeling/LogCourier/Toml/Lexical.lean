import LogCourier.Numeral

/-!
# The characters of TOML

What every reader of TOML needs: which characters may stand for themselves, where
a line ends, and how blanks, line ends and comments are skipped.

A reader takes the text that is left and answers with what it has read and what is
then left. One that may find nothing to read answers with an option.
-/

namespace LogCourier.Toml

/-- Whether a character may stand in a comment: any but the control characters,
of which only the tab is let through. -/
def isPlain (c : Char) : Bool :=
  let n := c.toNat
  n == 0x09 || (0x20 ≤ n && n ≤ 0x7E) || 0x80 ≤ n

/-- A blank that does not end the line. -/
def isSpace (c : Char) : Bool :=
  c == ' ' || c == '\t'

/-- The text without its leading blanks. -/
def skipSpaces (cs : List Char) : List Char :=
  cs.dropWhile isSpace

/-- The text behind the line end that it starts with. -/
def skipNewline? : List Char → Option (List Char)
  | '\n' :: rest => some rest
  | '\r' :: '\n' :: rest => some rest
  | _ => none

/-- The text without its leading blanks and line ends. -/
def skipLines : List Char → List Char
  | [] => []
  | '\r' :: '\n' :: rest => skipLines rest
  | c :: rest => if isSpace c || c == '\n' then skipLines rest else c :: rest

/-- The text without its leading blanks, line ends and comments. -/
def skipFiller : Bool → List Char → List Char
  | _, [] => []
  | true, '\r' :: '\n' :: rest => skipFiller false rest
  | true, c :: rest => if isPlain c then skipFiller true rest
      else if c == '\n' then skipFiller false rest
      else c :: rest
  | false, '\r' :: '\n' :: rest => skipFiller false rest
  | false, c :: rest =>
    if c == '#' then skipFiller true rest
    else if isSpace c || c == '\n' then skipFiller false rest
    else c :: rest

/-- The text without the comment that it starts with. -/
def skipComment : List Char → List Char
  | '#' :: rest => rest.dropWhile isPlain
  | cs => cs

/-- The text behind a line end, which the end of the text is as well. -/
def endLine? (cs : List Char) : Option (List Char) :=
  if cs = [] then some [] else skipNewline? cs

/-- The text behind the rest of a line that holds nothing more than a comment. -/
def finishLine? (cs : List Char) : Option (List Char) :=
  endLine? (skipComment (skipSpaces cs))

end LogCourier.Toml
