import LogCourier.Document
import LogCourier.Numeral
import LogCourier.Toml.Token

/-!
# Writing TOML

A table is written as its pairs, one on a line, and then the tables in it, each
with a header and a blank line before it.

Text is written in the kind of quotes that needs the least. In this order, the
first that fits is taken:

1. `"…"`, if nothing in the text is special there;
2. `'…'`, if it can be written on one line without escapes;
3. `"""…"""`, if nothing in it needs an escape there;
4. `'''…'''`, if it can be written without escapes at all;
5. `"""…"""` with escapes if there is more than one line, and otherwise `"…"` with
   escapes.

In the kinds with several lines the text starts on a line of its own if it has a
line end.
-/

namespace LogCourier.Toml

/-! ### What is in a text -/

/-- Whether a character can only be written as an escape. -/
def needsEscape (c : Char) : Bool :=
  let n := c.toNat
  (n ≤ 0x1F && c != '\t' && c != '\n') || n == 0x7F

/-- Whether three quotes of a kind stand in a row. -/
def hasTriple (quote : Char) : List Char → Bool
  | a :: b :: c :: rest =>
    (a == quote && b == quote && c == quote) || hasTriple quote (b :: c :: rest)
  | _ => false

/-- The kinds of quotes. -/
inductive Quotes
  /-- `"`, with escapes. -/
  | basic
  /-- `'`, without escapes. -/
  | literal
  /-- `"""`, with escapes. -/
  | basicLines
  /-- `'''`, without escapes. -/
  | literalLines
  deriving DecidableEq, Repr

/-- The kind of quotes that a text is written in. -/
def quotesFor (cs : List Char) : Quotes :=
  let plain := !cs.any needsEscape
  let oneLine := !cs.elem '\n'
  if plain && oneLine && !cs.elem '\\' && !cs.elem '"' then .basic
  else if plain && oneLine && !cs.elem '\'' then .literal
  else if plain && !cs.elem '\\' && !hasTriple '"' cs then .basicLines
  else if plain && !hasTriple '\'' cs then .literalLines
  else if oneLine then .basic
  else .basicLines

/-! ### Writing text -/

/-- A number below `65536` in base sixteen, with four digits. -/
def fourDigits (n : Nat) : List Char :=
  let digits := (Nat.toDigits 16 n).map Char.toUpper
  List.replicate (4 - digits.length) '0' ++ digits

/-- What stands for a character that is not itself, a quote aside. -/
def escape? (lines : Bool) (c : Char) : Option (List Char) :=
  if c = '\x08' then some ['\\', 'b']
  else if c = '\t' then some ['\\', 't']
  else if c = '\n' then (if lines then none else some ['\\', 'n'])
  else if c = '\x0C' then some ['\\', 'f']
  else if c = '\r' then some ['\\', 'r']
  else if c = '\\' then some ['\\', '\\']
  else if needsEscape c then some (['\\', 'u'] ++ fourDigits c.toNat)
  else none

/-- Text between quotes with escapes. Where there may be several lines, two quotes in a
row stand for themselves; the number given is of those just before. -/
def escaped (lines : Bool) : Nat → List Char → List Char
  | _, [] => []
  | row, c :: rest =>
    if c = '"' then
      if lines && row < 2 then '"' :: escaped lines (row + 1) rest
      else '\\' :: '"' :: escaped lines 0 rest
    else match escape? lines c with
      | some e => e ++ escaped lines 0 rest
      | none => c :: escaped lines 0 rest

/-- The line end that comes before a text of several lines. -/
def firstNewline (cs : List Char) : List Char :=
  if cs.elem '\n' then ['\n'] else []

/-- **A text in quotes.** -/
def quoted (cs : List Char) : List Char :=
  match quotesFor cs with
  | .basic => ['"'] ++ escaped false 0 cs ++ ['"']
  | .literal => ['\''] ++ cs ++ ['\'']
  | .basicLines =>
    List.replicate 3 '"' ++ firstNewline cs ++ escaped true 0 cs ++ List.replicate 3 '"'
  | .literalLines =>
    List.replicate 3 '\'' ++ firstNewline cs ++ cs ++ List.replicate 3 '\''

/-! ### Writing tables -/

/-- The largest and the smallest whole number are the largest and the smallest of
sixty-four bits. -/
def isWritable (n : Int) : Bool :=
  decide (-(maxInteger + 1 : Int) ≤ n ∧ n ≤ maxInteger)

/-- A whole number. -/
def integerText : Int → List Char
  | .ofNat n => Nat.toDigits 10 n
  | .negSucc n => '-' :: Nat.toDigits 10 (n + 1)

/-- A value that is no table and no list: text, a flag or a whole number. -/
def writeScalar? : Document → Option (List Char)
  | .flag b => some (if b then ['t', 'r', 'u', 'e'] else ['f', 'a', 'l', 's', 'e'])
  | .integer n => if isWritable n then some (integerText n) else none
  | .text s => some (quoted s.toList)
  | _ => none

/-- Pairs, each on its line. The names are of characters that need no quotes. -/
def writePairs? : List (String × Document) → Option (List Char)
  | [] => some []
  | (key, v) :: rest => do
    let v ← writeScalar? v
    let rest ← writePairs? rest
    some (key.toList ++ [' ', '=', ' '] ++ v ++ ['\n'] ++ rest)

/-- The entries of a table, if it is one. -/
def entriesOf? : Document → Option (List (String × Document))
  | .table entries => some entries
  | _ => none

/-- Tables, each with its header. -/
def writeSections? : List (String × List (String × Document)) → Option (List Char)
  | [] => some []
  | (key, entries) :: rest => do
    let pairs ← writePairs? entries
    let rest ← writeSections? rest
    some (['\n', '['] ++ key.toList ++ [']', '\n'] ++ pairs ++ rest)

/-- **The written form of a table** whose values are texts, flags, whole numbers in
range, and tables of such. -/
def write? (entries : List (String × Document)) : Option String := do
  let pairs ← writePairs? (entries.filter fun e => (entriesOf? e.2).isNone)
  let sections ← writeSections? (entries.filterMap fun e => (entriesOf? e.2).map (e.1, ·))
  some (String.ofList (pairs ++ sections))

end LogCourier.Toml
