/-!
# Byte strings

Everything the courier puts on a wire or takes from a disk is a list of bytes.
This file fixes the four ways a number becomes bytes – two or four of them, most
or least significant first – and the readings that undo them, together with the
passage between bytes and text.

Numbers are split by division rather than by shifting, so that a digit of the
wire form is literally a digit of the number in base 256:

* `LogCourier.Bytes.be16`, `LogCourier.Bytes.be32`: most significant byte first;
* `LogCourier.Bytes.le16`, `LogCourier.Bytes.le32`: least significant byte first;
* `LogCourier.Bytes.ofText` and `LogCourier.Bytes.text?`: UTF-8, where the second
  refuses anything the first does not produce.
-/

namespace LogCourier

/-- A byte string. -/
abbrev Bytes := List UInt8

namespace Bytes

/-! ### Numbers as bytes -/

/-- Two bytes, most significant first. -/
def be16 (n : UInt16) : Bytes :=
  [UInt8.ofNat (n.toNat / 256), UInt8.ofNat n.toNat]

/-- Four bytes, most significant first. -/
def be32 (n : UInt32) : Bytes :=
  [UInt8.ofNat (n.toNat / 16777216), UInt8.ofNat (n.toNat / 65536),
    UInt8.ofNat (n.toNat / 256), UInt8.ofNat n.toNat]

/-- Two bytes, least significant first. -/
def le16 (n : UInt16) : Bytes :=
  [UInt8.ofNat n.toNat, UInt8.ofNat (n.toNat / 256)]

/-- Four bytes, least significant first. -/
def le32 (n : UInt32) : Bytes :=
  [UInt8.ofNat n.toNat, UInt8.ofNat (n.toNat / 256),
    UInt8.ofNat (n.toNat / 65536), UInt8.ofNat (n.toNat / 16777216)]

/-- The number whose two bytes are `a`, `b`, the most significant first. -/
def word16 (a b : UInt8) : UInt16 :=
  UInt16.ofNat (a.toNat * 256 + b.toNat)

/-- The number whose four bytes are `a`, `b`, `c`, `d`, the most significant first. -/
def word32 (a b c d : UInt8) : UInt32 :=
  UInt32.ofNat (a.toNat * 16777216 + b.toNat * 65536 + c.toNat * 256 + d.toNat)

/-! ### Text as bytes -/

/-- The UTF-8 form of a text. -/
def ofText (s : String) : Bytes :=
  s.toByteArray.data.toList

/-- The text whose UTF-8 form is given, if there is one. -/
def text? (bs : Bytes) : Option String :=
  String.fromUTF8? ⟨bs.toArray⟩

/-! ### Bytes for the eye -/

/-- The lower-case hexadecimal digit of a number below sixteen. -/
def hexDigit (n : Nat) : Char :=
  if n < 10 then Char.ofNat (48 + n) else Char.ofNat (87 + n)

/-- The two lower-case hexadecimal digits of a byte. -/
def hex (b : UInt8) : String :=
  String.ofList [hexDigit (b.toNat / 16), hexDigit (b.toNat % 16)]

end Bytes

end LogCourier
