import LogCourier.Document
import LogCourier.Numeral

/-!
# Values without quotes or brackets

Numbers, dates and flags are written without anything around them, and end where a
character comes that none of them has. This file tells of such a **token** what it
is.

* Whole numbers have a sign and base ten, or no sign and `0x`, `0o` or `0b`. They
  fit sixty-four bits. Underscores may stand between digits, and a number in base
  ten does not start with a zero that is not all of it.
* Numbers with a point or an exponent may not be too large for a floating point
  number of sixty-four bits, at least not if they are positive; `inf` and `nan`
  are numbers, too.
* Dates are dates of the calendar. A date and a time have a `T` or a blank between
  them and may have an offset at the end; a time alone has none.
-/

namespace LogCourier.Toml

/-- Whether a character may stand in a token. -/
def isTokenChar (c : Char) : Bool :=
  let n := c.toNat
  (48 ≤ n && n ≤ 57) || (65 ≤ n && n ≤ 90) || (97 ≤ n && n ≤ 122)
    || c == '+' || c == '-' || c == '_' || c == '.' || c == ':'

/-! ### Whole numbers -/

/-- Digits with single underscores between them; the answer is the digits. -/
def grouped? (base : Nat) : List Char → Option (List Char)
  | [] => none
  | [c] => if Numeral.isDigit base c then some [c] else none
  | c :: '_' :: rest =>
    if Numeral.isDigit base c then (grouped? base rest).map (c :: ·) else none
  | c :: rest =>
    if Numeral.isDigit base c then (grouped? base rest).map (c :: ·) else none

/-- Digits in base ten, not starting with a zero that is not all of them. -/
def decimal? (cs : List Char) : Option (List Char) := do
  let digits ← grouped? 10 cs
  if digits.head? = some '0' ∧ 1 < digits.length then none else some digits

/-- The largest whole number. -/
def maxInteger : Nat := 9223372036854775807

/-- A whole number that is not negative. -/
def natural? (base : Nat) (digits : List Char) : Option Int :=
  (Numeral.below? base (maxInteger + 1) digits).map Int.ofNat

/-- A whole number below zero, or zero. -/
def negative? (digits : List Char) : Option Int :=
  (Numeral.below? 10 (maxInteger + 2) digits).map fun n => -Int.ofNat n

/-- The whole number that a token is. -/
def integer? : List Char → Option Int
  | '0' :: 'x' :: rest => grouped? 16 rest >>= natural? 16
  | '0' :: 'o' :: rest => grouped? 8 rest >>= natural? 8
  | '0' :: 'b' :: rest => grouped? 2 rest >>= natural? 2
  | '+' :: rest => decimal? rest >>= natural? 10
  | '-' :: rest => decimal? rest >>= negative?
  | cs => decimal? cs >>= natural? 10

/-! ### Numbers with a fraction or an exponent -/

/-- A token without its sign, and whether that is a minus. -/
def splitSign : List Char → Bool × List Char
  | '-' :: rest => (true, rest)
  | '+' :: rest => (false, rest)
  | cs => (false, cs)

/-- Whether a character is a digit or stands between digits. -/
def isGroupChar (c : Char) : Bool :=
  Numeral.isDigit 10 c || c == '_'

/-- The size of an exponent. A digit counts as long as those before it stand for less
than `65536`; from there on digits are passed over. -/
def exponentSize (digits : List Char) : Nat :=
  digits.foldl (fun n c => if n < 65536 then 10 * n + (Numeral.digit? c).getD 0 else n) 0

/-- An exponent: the letter, a sign perhaps, and digits. -/
def exponent? : List Char → Option Int
  | c :: rest =>
    if c = 'e' ∨ c = 'E' then
      match splitSign rest with
      | (negative, digits) => do
        let n := exponentSize (← grouped? 10 digits)
        some (if negative then -n else n)
    else none
  | [] => none

/-- The first number that rounds to no floating point number of sixty-four bits. -/
def floatBound : Nat := Nat.pow 2 1024 - Nat.pow 2 970

/-- How many digits that number has. -/
def floatPlaces : Nat := 309

/-- Whether digits are too large for a floating point number, if the point stands `e`
places behind them. Without the zeros in front, how many there are before the point
decides, unless they are as many as the bound has: then these digits are compared with
it, zeros being there where none are written. -/
def overflows (digits : List Char) (e : Int) : Bool :=
  let digits := digits.dropWhile (· = '0')
  let places : Int := digits.length + e
  if digits = [] ∨ places < floatPlaces then false
  else if floatPlaces < places then true
  else floatBound ≤ Numeral.value 10 ((digits.take floatPlaces).rightpad floatPlaces '0')

/-- Whether a token without its sign is a number with a fraction or an exponent. -/
def isUnsignedFloat (negative : Bool) (cs : List Char) : Bool :=
  match cs.span isGroupChar with
  | (whole, rest) =>
    match decimal? whole with
    | none => false
    | some digits =>
      let fits (fraction : List Char) (e : Int) : Bool :=
        negative || !overflows (digits ++ fraction) (e - fraction.length)
      match rest with
      | '.' :: more =>
        match more.span isGroupChar with
        | (fraction, tail) =>
          match grouped? 10 fraction with
          | none => false
          | some fraction =>
            if tail = [] then fits fraction 0
            else match exponent? tail with
              | some e => fits fraction e
              | none => false
      | tail =>
        match exponent? tail with
        | some e => fits [] e
        | none => false

/-- Whether a token is a number with a fraction or an exponent, or one of the two
that are no number. -/
def isFloat (cs : List Char) : Bool :=
  match splitSign cs with
  | (negative, body) =>
    body = ['i', 'n', 'f'] || body = ['n', 'a', 'n'] || isUnsignedFloat negative body

/-! ### Dates and times -/

/-- A number of exactly so many digits, in a range. -/
def field? (length low high : Nat) (cs : List Char) : Option (Nat × List Char) :=
  let digits := cs.take length
  let n := Numeral.value 10 digits
  if digits.length = length ∧ digits.all (Numeral.isDigit 10) ∧ low ≤ n ∧ n ≤ high then
    some (n, cs.drop length)
  else none

/-- A character that has to be there. -/
def expect? (c : Char) : List Char → Option (List Char)
  | [] => none
  | d :: rest => if d = c then some rest else none

/-- Whether a year has a leap day. -/
def isLeapYear (year : Nat) : Bool :=
  year % 4 == 0 && (year % 100 != 0 || year % 400 == 0)

/-- The days of a month. -/
def daysOf (year month : Nat) : Nat :=
  if month = 2 then (if isLeapYear year then 29 else 28)
  else if month = 4 ∨ month = 6 ∨ month = 9 ∨ month = 11 then 30
  else 31

/-- The text behind a date. -/
def skipDate? (cs : List Char) : Option (List Char) := do
  let (year, cs) ← field? 4 0 9999 cs
  let (month, cs) ← field? 2 1 12 (← expect? '-' cs)
  let (_, cs) ← field? 2 1 (daysOf year month) (← expect? '-' cs)
  return cs

/-- The text behind a point and digits, if it starts with them. -/
def skipFraction (cs : List Char) : List Char :=
  match cs with
  | '.' :: c :: rest =>
    if Numeral.isDigit 10 c then rest.dropWhile (Numeral.isDigit 10) else cs
  | _ => cs

/-- The text behind a time of the day. A minute may have a leap second. -/
def skipTime? (cs : List Char) : Option (List Char) := do
  let (_, cs) ← field? 2 0 23 cs
  let (_, cs) ← field? 2 0 59 (← expect? ':' cs)
  let (_, cs) ← field? 2 0 60 (← expect? ':' cs)
  return skipFraction cs

/-- Whether a text is an offset from universal time. -/
def isOffset : List Char → Bool
  | ['Z'] | ['z'] => true
  | c :: cs =>
    (c == '+' || c == '-') &&
      ((do
        let (_, cs) ← field? 2 0 23 cs
        let (_, cs) ← field? 2 0 59 (← expect? ':' cs)
        return cs) == some [])
  | [] => false

/-- Whether a text is a time of the day, with an offset perhaps. -/
def isTimeWithOffset (cs : List Char) : Bool :=
  match skipTime? cs with
  | some rest => rest = [] || isOffset rest
  | none => false

/-- Whether a token is a date alone. -/
def isDate (cs : List Char) : Bool :=
  skipDate? cs == some []

/-- Whether a token is a date, a time, or both. -/
def isDateTime (cs : List Char) : Bool :=
  skipTime? cs == some [] ||
    match skipDate? cs with
    | some [] => true
    | some (c :: rest) => (c == 'T' || c == 't') && isTimeWithOffset rest
    | none => false

/-- Whether a text starts like a time: two digits and a colon. -/
def startsLikeTime : List Char → Bool
  | a :: b :: ':' :: _ => Numeral.isDigit 10 a && Numeral.isDigit 10 b
  | _ => false

/-! ### Tokens -/

/-- What a token is. -/
def classify? (token : List Char) : Option Document :=
  if token = ['t', 'r', 'u', 'e'] then some (.flag true)
  else if token = ['f', 'a', 'l', 's', 'e'] then some (.flag false)
  else if isDateTime token then some (.dateTime (String.ofList token))
  else if isFloat token then some (.float (String.ofList token))
  else (integer? token).map .integer

/-- A value without quotes or brackets. A date may be followed by a blank and a time,
which then have to be one value. -/
def readToken? (cs : List Char) : Option (Document × List Char) :=
  match cs.span isTokenChar with
  | (token, rest) =>
    match rest with
    | ' ' :: more =>
      if isDate token && startsLikeTime more then
        match more.span isTokenChar with
        | (time, rest) =>
          if isTimeWithOffset time then
            some (.dateTime (String.ofList (token ++ ' ' :: time)), rest)
          else none
      else (classify? token).map (·, rest)
    | _ => (classify? token).map (·, rest)

end LogCourier.Toml
