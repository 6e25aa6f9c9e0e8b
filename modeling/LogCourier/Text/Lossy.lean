import LogCourier.Bytes

/-!
# Reading text that may be damaged

A log line arrives as bytes that nobody has checked. It is shown all the same:
every character that is there is kept, and every stretch of bytes that is not
part of one is shown as a single replacement character `U+FFFD`.

The stretch is as long as it can be while still looking like the start of a
character, and no longer: after a first byte that announces two, three or four
bytes, the further bytes are taken while they are in the range that the first
byte leaves open (`LogCourier.Text.secondRange`), and the first byte out of range
starts afresh. So `F0 90 41` is one replacement character and an `A`, and
`F4 90` is two replacement characters, since no character starts so.
-/

namespace LogCourier.Text

/-- The character shown for bytes that form none. -/
def replacement : Char := '\uFFFD'

/-- Whether a byte continues a character begun before it. -/
def isTail (b : UInt8) : Bool :=
  0x80 ≤ b && b ≤ 0xBF

/-- How many bytes the character begun by `a` has, if `a` begins one of several bytes. -/
def width? (a : UInt8) : Option Nat :=
  if 0xC2 ≤ a && a ≤ 0xDF then some 2
  else if 0xE0 ≤ a && a ≤ 0xEF then some 3
  else if 0xF0 ≤ a && a ≤ 0xF4 then some 4
  else none

/-- Whether `b` may follow the first byte `a`. Four first bytes leave less than
the full range open: two would allow a longer spelling of a character that has a
shorter one, one would reach the surrogates, and one would leave Unicode. -/
def secondRange (a b : UInt8) : Bool :=
  if a = 0xE0 then 0xA0 ≤ b && b ≤ 0xBF
  else if a = 0xED then 0x80 ≤ b && b ≤ 0x9F
  else if a = 0xF0 then 0x90 ≤ b && b ≤ 0xBF
  else if a = 0xF4 then 0x80 ≤ b && b ≤ 0x8F
  else isTail b

/-- The six low bits of a continuation byte. -/
def tailBits (b : UInt8) : Nat :=
  b.toNat % 64

/-- The character shown for the bytes that start with `a`, and how many of the
bytes after `a` it accounts for. -/
def lossyStep (a : UInt8) (rest : Bytes) : Char × Nat :=
  if a < 0x80 then (Char.ofNat a.toNat, 0)
  else match width? a, rest with
    | some 2, b :: _ =>
      if secondRange a b then (Char.ofNat (a.toNat % 32 * 64 + tailBits b), 1)
      else (replacement, 0)
    | some 3, b :: rest' =>
      if secondRange a b then
        match rest' with
        | c :: _ =>
          if isTail c then
            (Char.ofNat (a.toNat % 16 * 4096 + tailBits b * 64 + tailBits c), 2)
          else (replacement, 1)
        | [] => (replacement, 1)
      else (replacement, 0)
    | some 4, b :: rest' =>
      if secondRange a b then
        match rest' with
        | c :: rest'' =>
          if isTail c then
            match rest'' with
            | d :: _ =>
              if isTail d then
                (Char.ofNat (a.toNat % 8 * 262144 + tailBits b * 4096 + tailBits c * 64
                  + tailBits d), 3)
              else (replacement, 2)
            | [] => (replacement, 2)
          else (replacement, 1)
        | [] => (replacement, 1)
      else (replacement, 0)
    | _, _ => (replacement, 0)

/-- The characters shown for the bytes after the next `skip` ones, which have
been accounted for. -/
def lossyFrom : Nat → Bytes → List Char
  | _, [] => []
  | 0, a :: rest => (lossyStep a rest).1 :: lossyFrom (lossyStep a rest).2 rest
  | skip + 1, _ :: rest => lossyFrom skip rest

/-- **Every byte string has a text**: characters where there are characters, and
replacement characters elsewhere. -/
def lossy (bs : Bytes) : List Char :=
  lossyFrom 0 bs

end LogCourier.Text
