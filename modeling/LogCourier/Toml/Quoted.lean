import LogCourier.Toml.Lexical

/-!
# Reading quoted text

TOML has four kinds of quotes, by two questions: whether escapes are understood,
and whether the text may have several lines.

| opened by | escapes | several lines |
| --- | --- | --- |
| `"` | yes | no |
| `'` | no | no |
| `"""` | yes | yes |
| `'''` | no | yes |

In the kinds with several lines a line end right after the opening quotes does not
count, line ends read as `\n` however they are written, and one or two quotes may
stand anywhere, even right before the three that close.

The readers here begin behind the opening quotes and end behind the closing ones.
-/

namespace LogCourier.Toml

/-! ### Escapes -/

/-- The character of a number, if there is one. -/
def scalar? (n : Nat) : Option Char :=
  if h : n.isValidChar then some (Char.ofNatAux n h) else none

/-- A character given by so many digits in base sixteen. -/
def readScalar? (length : Nat) (cs : List Char) : Option (Char × List Char) :=
  let digits := cs.take length
  if digits.length = length ∧ digits.all (Numeral.isDigit 16) then
    (scalar? (Numeral.value 16 digits)).map (·, cs.drop length)
  else none

/-- The character that a letter behind a backslash stands for. -/
def escapeLetter? : Char → Option Char
  | 'b' => some '\x08'
  | 't' => some '\t'
  | 'n' => some '\n'
  | 'f' => some '\x0C'
  | 'r' => some '\r'
  | '"' => some '"'
  | '\\' => some '\\'
  | _ => none

/-- An escape, behind its backslash. -/
def readEscape? : List Char → Option (Char × List Char)
  | [] => none
  | c :: rest =>
    if c = 'u' then readScalar? 4 rest
    else if c = 'U' then readScalar? 8 rest
    else (escapeLetter? c).map (·, rest)

theorem length_lt_of_readEscape? {cs rest : List Char} {c : Char}
    (h : readEscape? cs = some (c, rest)) : rest.length < cs.length := by
  match cs with
  | [] => simp [readEscape?] at h
  | d :: tail =>
    have key : rest.length ≤ tail.length := by
      simp only [readEscape?] at h
      split at h
      · simp only [readScalar?] at h
        split at h
        · obtain ⟨_, _, h⟩ := Option.map_eq_some_iff.mp h
          obtain ⟨-, rfl⟩ := Prod.mk.inj h
          simp
        · simp at h
      · split at h
        · simp only [readScalar?] at h
          split at h
          · obtain ⟨_, _, h⟩ := Option.map_eq_some_iff.mp h
            obtain ⟨-, rfl⟩ := Prod.mk.inj h
            simp
          · simp at h
        · obtain ⟨_, _, h⟩ := Option.map_eq_some_iff.mp h
          obtain ⟨-, rfl⟩ := Prod.mk.inj h
          simp
    simp
    omega

/-! ### One line -/

/-- Text behind `"`. -/
def readBasic? (cs : List Char) : Option (List Char × List Char) :=
  match cs with
  | [] => none
  | c :: rest =>
    if c = '"' then some ([], rest)
    else if c = '\\' then
      match _h : readEscape? rest with
      | some (e, rest') => (readBasic? rest').map fun (s, r) => (e :: s, r)
      | none => none
    else if isPlain c then (readBasic? rest).map fun (s, r) => (c :: s, r)
    else none
termination_by cs.length
decreasing_by
  · have := length_lt_of_readEscape? _h
    simp
    omega
  · simp

/-- Text behind `'`. -/
def readLiteral? : List Char → Option (List Char × List Char)
  | [] => none
  | c :: rest =>
    if c = '\'' then some ([], rest)
    else if isPlain c then (readLiteral? rest).map fun (s, r) => (c :: s, r)
    else none

/-! ### Several lines -/

/-- What a row of so many quotes does: if there are three or more it ends the text,
and up to two before the last three belong to it. The answer is how many belong to
the text and how many are used up. -/
def closing? (quotes : Nat) : Option (Nat × Nat) :=
  if quotes < 3 then none else some (min (quotes - 3) 2, min quotes 5)

/-- The number of quotes that a text starts with. -/
def quotesAt (quote : Char) (cs : List Char) : Nat :=
  (cs.takeWhile (· = quote)).length

/-- The text behind a line end that is escaped, and behind the blanks and line ends
after it. The text given starts behind the backslash. -/
def skipEscapedNewline? (cs : List Char) : Option (List Char) :=
  (skipNewline? (skipSpaces cs)).map skipLines

theorem length_skipLines_le (cs : List Char) : (skipLines cs).length ≤ cs.length := by
  fun_induction skipLines cs with
  | case1 => exact Nat.le_refl _
  | case2 rest ih => exact Nat.le_succ_of_le (Nat.le_succ_of_le ih)
  | case3 c rest _ _ ih => exact Nat.le_succ_of_le ih
  | case4 => exact Nat.le_refl _

theorem length_lt_of_skipNewline? {cs rest : List Char} (h : skipNewline? cs = some rest) :
    rest.length < cs.length := by
  unfold skipNewline? at h
  split at h
  · cases h
    exact Nat.lt_succ_self _
  · cases h
    exact Nat.lt_succ_of_le (Nat.le_succ _)
  · cases h

theorem length_lt_of_skipEscapedNewline? {cs rest : List Char}
    (h : skipEscapedNewline? cs = some rest) : rest.length < cs.length := by
  obtain ⟨mid, hmid, rfl⟩ := Option.map_eq_some_iff.mp h
  have h₁ := length_lt_of_skipNewline? hmid
  have h₂ := (List.dropWhile_sublist isSpace (l := cs)).length_le
  have h₃ := length_skipLines_le mid
  simp only [skipSpaces] at h₁
  omega

/-- Text behind `"""`. -/
def readBasicLines? (cs : List Char) : Option (List Char × List Char) :=
  match cs with
  | [] => none
  | c :: rest =>
    if c = '"' then
      match closing? (quotesAt '"' cs) with
      | some (kept, used) => some (List.replicate kept '"', cs.drop used)
      | none => (readBasicLines? rest).map fun (s, r) => (c :: s, r)
    else if c = '\\' then
      match _h : skipEscapedNewline? rest with
      | some rest' => readBasicLines? rest'
      | none =>
        match _h : readEscape? rest with
        | some (e, rest') => (readBasicLines? rest').map fun (s, r) => (e :: s, r)
        | none => none
    else
      match _h : skipNewline? (c :: rest) with
      | some rest' => (readBasicLines? rest').map fun (s, r) => ('\n' :: s, r)
      | none =>
        if isPlain c then (readBasicLines? rest).map fun (s, r) => (c :: s, r)
        else none
termination_by cs.length
decreasing_by
  · simp
  · have := length_lt_of_skipEscapedNewline? _h
    simp
    omega
  · have := length_lt_of_readEscape? _h
    simp
    omega
  · exact length_lt_of_skipNewline? _h
  · simp

/-- Text behind `'''`. -/
def readLiteralLines? (cs : List Char) : Option (List Char × List Char) :=
  match cs with
  | [] => none
  | c :: rest =>
    if c = '\'' then
      match closing? (quotesAt '\'' cs) with
      | some (kept, used) => some (List.replicate kept '\'', cs.drop used)
      | none => (readLiteralLines? rest).map fun (s, r) => (c :: s, r)
    else
      match _h : skipNewline? (c :: rest) with
      | some rest' => (readLiteralLines? rest').map fun (s, r) => ('\n' :: s, r)
      | none =>
        if isPlain c then (readLiteralLines? rest).map fun (s, r) => (c :: s, r)
        else none
termination_by cs.length
decreasing_by
  · simp
  · exact length_lt_of_skipNewline? _h
  · simp

/-! ### All four -/

/-- The text behind a line end that does not count. -/
def skipFirstNewline (cs : List Char) : List Char :=
  (skipNewline? cs).getD cs

/-- **Quoted text** of any of the four kinds. -/
def readQuoted? : List Char → Option (List Char × List Char)
  | '"' :: '"' :: '"' :: rest => readBasicLines? (skipFirstNewline rest)
  | '\'' :: '\'' :: '\'' :: rest => readLiteralLines? (skipFirstNewline rest)
  | '"' :: rest => readBasic? rest
  | '\'' :: rest => readLiteral? rest
  | _ => none

/-- Quoted text on one line, as names have it. -/
def readQuotedLine? : List Char → Option (List Char × List Char)
  | '"' :: rest => readBasic? rest
  | '\'' :: rest => readLiteral? rest
  | _ => none

end LogCourier.Toml
