/-!
# JSON text

The report of a transfer is printed as JSON. This file has the values that such a
report is made of and their two written forms: on one line without blanks, and on
many lines with two blanks for each level of nesting.

Inside a text the two characters that JSON reserves and the control characters
are escaped, by a letter where there is one; everything else stands for itself.
-/

namespace LogCourier

/-- A JSON value. -/
inductive Json
  /-- Nothing. -/
  | null
  /-- A yes or a no. -/
  | flag (b : Bool)
  /-- A count. -/
  | number (n : Nat)
  /-- Text. -/
  | text (s : String)
  /-- Values in a row. -/
  | list (items : List Json)
  /-- Named values, in the order in which they are printed. -/
  | object (fields : List (String × Json))

namespace Json

/-- The four hexadecimal digits of a control character. -/
def unicodeEscape (n : Nat) : List Char :=
  let digits := Nat.toDigits 16 n
  ['\\', 'u'] ++ List.replicate (4 - digits.length) '0' ++ digits

/-- One character inside a text. -/
def escapeChar (c : Char) : List Char :=
  if c = '"' then ['\\', '"']
  else if c = '\\' then ['\\', '\\']
  else if c = '\n' then ['\\', 'n']
  else if c = '\r' then ['\\', 'r']
  else if c = '\t' then ['\\', 't']
  else if c.toNat = 8 then ['\\', 'b']
  else if c.toNat = 12 then ['\\', 'f']
  else if c.toNat < 32 then unicodeEscape c.toNat
  else [c]

/-- A text in quotes. -/
def quote (s : String) : String :=
  String.ofList (['"'] ++ s.toList.flatMap escapeChar ++ ['"'])

mutual

/-- The written form on one line. -/
def compact : Json → String
  | null => "null"
  | flag b => if b then "true" else "false"
  | number n => toString n
  | text s => quote s
  | list items => "[" ++ String.intercalate "," (compactItems items) ++ "]"
  | object fields => "\x7b" ++ String.intercalate "," (compactFields fields) ++ "\x7d"

/-- The items of a row, each on one line. -/
def compactItems : List Json → List String
  | [] => []
  | v :: vs => compact v :: compactItems vs

/-- The fields of an object, each on one line. -/
def compactFields : List (String × Json) → List String
  | [] => []
  | (k, v) :: rest => (quote k ++ ":" ++ compact v) :: compactFields rest

end

/-- So many levels of nesting, as blanks. -/
def indent (depth : Nat) : String :=
  String.ofList (List.replicate (2 * depth) ' ')

/-- Lines between an opening and a closing bracket, one level further in; nothing
between the brackets if there are none. -/
def block (depth : Nat) (opening closing : String) (lines : List String) : String :=
  if lines.isEmpty then opening ++ closing
  else opening ++ "\n" ++ String.intercalate ",\n" (lines.map (indent (depth + 1) ++ ·))
    ++ "\n" ++ indent depth ++ closing

mutual

/-- The written form on many lines, inside so many levels of nesting. -/
def prettyAt (depth : Nat) : Json → String
  | null => "null"
  | flag b => if b then "true" else "false"
  | number n => toString n
  | text s => quote s
  | list items => block depth "[" "]" (prettyItems (depth + 1) items)
  | object fields => block depth "\x7b" "\x7d" (prettyFields (depth + 1) fields)

/-- The items of a row, each on its lines. -/
def prettyItems (depth : Nat) : List Json → List String
  | [] => []
  | v :: vs => prettyAt depth v :: prettyItems depth vs

/-- The fields of an object, each on its lines. -/
def prettyFields (depth : Nat) : List (String × Json) → List String
  | [] => []
  | (k, v) :: rest => (quote k ++ ": " ++ prettyAt depth v) :: prettyFields depth rest

end

/-- The written form on many lines. -/
def pretty (v : Json) : String :=
  prettyAt 0 v

end Json

end LogCourier
