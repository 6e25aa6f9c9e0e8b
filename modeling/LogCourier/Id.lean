import LogCourier.Bytes

/-!
# Identifiers

An electronic control unit, an application and a context are each named by a
short identifier: one to four ASCII characters. On the wire it takes four bytes
always, filled up with NUL.

`LogCourier.Id` is the text without the filling, and what makes it an identifier
is part of the type, so a name that is none cannot be built. The one way in is
`LogCourier.Id.ofBytes`, which takes the text with or without its filling:

* `LogCourier.Id.Error` lists the four reasons for which bytes name nothing;
* `LogCourier.Id.bytes` is the wire form, `LogCourier.Id.text` the readable one.
-/

namespace LogCourier

/-- A name of one to four ASCII characters, none of them NUL. -/
structure Id where
  /-- The characters, without filling. -/
  chars : Bytes
  /-- There is at least one. -/
  ne_nil : chars ≠ []
  /-- There are at most four. -/
  length_le : chars.length ≤ 4
  /-- Each is ASCII, and not NUL. -/
  ascii : ∀ b ∈ chars, b ≠ 0 ∧ b < 128
  deriving DecidableEq

namespace Id

/-- Why bytes are no identifier. -/
inductive Error
  /-- There are none, or more than four. -/
  | length (n : Nat)
  /-- The first that is not ASCII. -/
  | nonAscii (byte : UInt8)
  /-- The first is NUL, so there is no text. -/
  | empty
  /-- A character stands after a NUL. -/
  | gap
  deriving DecidableEq, Repr

/-- The text of an error. -/
def Error.message : Error → String
  | length n => s!"identifier must be 1 to 4 characters, got {n}"
  | nonAscii b => s!"identifier contains non-ASCII byte 0x{Bytes.hex b}"
  | empty => "identifier is empty"
  | gap => "identifier has a character after NUL padding"

/-- **The identifier that bytes stand for**: text, and then nothing but NUL. Of
several faults the first of `LogCourier.Id.Error` is told. -/
def ofBytes (raw : Bytes) : Except Error Id :=
  if hlen : raw.length = 0 ∨ 4 < raw.length then .error (.length raw.length)
  else match hfind : raw.find? (128 ≤ ·) with
    | some b => .error (.nonAscii b)
    | none =>
      if hnil : raw.takeWhile (· ≠ 0) = [] then .error .empty
      else if (raw.dropWhile (· ≠ 0)).any (· ≠ 0) then .error .gap
      else .ok
        { chars := raw.takeWhile (· ≠ 0)
          ne_nil := hnil
          length_le := by
            have := (List.takeWhile_sublist (· ≠ 0) (l := raw)).length_le
            omega
          ascii := by
            intro b hb
            have hmem : b ∈ raw := (List.takeWhile_sublist _).subset hb
            have hasc := List.find?_eq_none.mp hfind b hmem
            have hnul := List.all_takeWhile (p := (· ≠ 0)) (l := raw)
            rw [List.all_eq_true] at hnul
            have := hnul b hb
            simp only [decide_eq_true_eq, UInt8.not_le] at hasc this
            exact ⟨this, hasc⟩ }

/-- The identifier that a text names. -/
def ofText (s : String) : Except Error Id :=
  ofBytes (Bytes.ofText s)

/-- The four bytes of the wire form. -/
def bytes (id : Id) : Bytes :=
  id.chars ++ List.replicate (4 - id.chars.length) 0

/-- The characters as text. -/
def text (id : Id) : String :=
  String.ofList (id.chars.map fun b => Char.ofNat b.toNat)

/-- The wire form has four bytes. -/
@[simp] theorem length_bytes (id : Id) : id.bytes.length = 4 := by
  have := id.length_le
  simp [bytes]
  omega

/-! ### The names in use -/

/-- The control unit that messages name unless told otherwise. -/
def ecu1 : Id := ⟨[0x45, 0x43, 0x55, 0x31], by simp, by simp, by simp⟩

/-- The application and the context that a transfer names unless told otherwise. -/
def ft : Id := ⟨[0x46, 0x54], by simp, by simp, by simp⟩

/-! ### A form for the eye -/

/-- One character, written so that it can be told apart on a screen. -/
def inspectChar (b : UInt8) : String :=
  if b = 0x09 then "\\t"
  else if b = 0x0A then "\\n"
  else if b = 0x0D then "\\r"
  else if b = 0x22 then "\\\""
  else if b = 0x5C then "\\\\"
  else if b < 0x20 ∨ b = 0x7F then
    "\\u\x7b" ++ String.ofList (Nat.toDigits 16 b.toNat) ++ "\x7d"
  else String.ofList [Char.ofNat b.toNat]

/-- The identifier with its type's name, its quotes and control characters escaped. -/
def inspect (id : Id) : String :=
  "DltId(\"" ++ String.join (id.chars.map inspectChar) ++ "\")"

end Id

end LogCourier
