import LogCourier.SocketAddress

/-!
# Reading socket addresses

A written address is read from left to right, each reader answering with what it
has read and the text that is left, or with nothing.

* A byte of an IPv4 address has one to three digits and no leading zero.
* A group of an IPv6 address has one to four digits. The last two groups may be
  written as an IPv4 address. One stretch of groups, one group at least, may be
  left out where `::` stands.
* A scope and a port have as many digits as one likes, and are in range.

`LogCourier.SocketAddress.ofText?` reads the whole of a text.
-/

namespace LogCourier

/-- The text without a character that it starts with. -/
def skip? (c : Char) : List Char → Option (List Char)
  | [] => none
  | d :: rest => if d = c then some rest else none

/-- A number in base ten below a bound. -/
def readDecimal? (bound : Nat) (cs : List Char) : Option (Nat × List Char) :=
  match Numeral.split 10 cs with
  | (digits, rest) =>
    if digits = [] then none else (Numeral.below? 10 bound digits).map (·, rest)

namespace IPv4

/-- A byte: no more than three digits, and no zero in front of another. -/
def readByte? (cs : List Char) : Option (UInt8 × List Char) :=
  match Numeral.split 10 cs with
  | (digits, rest) =>
    if digits = [] ∨ 3 < digits.length ∨ (digits.head? = some '0' ∧ digits.length ≠ 1) then none
    else (Numeral.below? 10 256 digits).map (UInt8.ofNat ·, rest)

/-- Four bytes with points between them. -/
def read? (cs : List Char) : Option (IPv4 × List Char) := do
  let (a, cs) ← readByte? cs
  let (b, cs) ← readByte? (← skip? '.' cs)
  let (c, cs) ← readByte? (← skip? '.' cs)
  let (d, cs) ← readByte? (← skip? '.' cs)
  return (⟨a, b, c, d⟩, cs)

/-- The two groups that an IPv4 address makes in an IPv6 one. -/
def groups (h : IPv4) : List UInt16 :=
  [UInt16.ofNat (h.a.toNat * 256 + h.b.toNat), UInt16.ofNat (h.c.toNat * 256 + h.d.toNat)]

end IPv4

namespace IPv6

/-- A group: no more than four digits. -/
def readGroup? (cs : List Char) : Option (UInt16 × List Char) :=
  match Numeral.split 16 cs with
  | (digits, rest) =>
    if digits = [] ∨ 4 < digits.length then none
    else some (UInt16.ofNat (Numeral.value 16 digits), rest)

/-- What stands before a group: a colon, unless it is the first. -/
def separator? (first : Bool) (cs : List Char) : Option (List Char) :=
  if first then some cs else skip? ':' cs

/-- As many groups as there are, at most so many; whether an IPv4 address ends
them; and the text that is left. -/
def readGroups : Nat → Bool → List Char → List UInt16 × Bool × List Char
  | 0, _, cs => ([], false, cs)
  | limit + 1, first, cs =>
    match (if 0 < limit then separator? first cs >>= IPv4.read? else none) with
    | some (h, rest) => (h.groups, true, rest)
    | none =>
      match separator? first cs >>= readGroup? with
      | none => ([], false, cs)
      | some (g, rest) =>
        match readGroups limit false rest with
        | (gs, embedded, rest) => (g :: gs, embedded, rest)

/-- The address with those groups, if there are eight. -/
def ofGroups? (groups : List UInt16) : Option IPv6 :=
  if h : groups.length = 8 then some ⟨groups, h⟩ else none

/-- An address: eight groups, or fewer with `::` among them. An IPv4 address does
not stand before `::`. -/
def read? (cs : List Char) : Option (IPv6 × List Char) :=
  match readGroups 8 true cs with
  | (head, embedded, rest) =>
    if head.length = 8 then (ofGroups? head).map (·, rest)
    else if embedded then none
    else do
      let rest ← skip? ':' (← skip? ':' rest)
      match readGroups (7 - head.length) true rest with
      | (tail, _, rest) =>
        let middle := List.replicate (8 - head.length - tail.length) 0
        (ofGroups? (head ++ middle ++ tail)).map (·, rest)

end IPv6

namespace SocketAddress

/-- A colon and a port. -/
def readPort? (cs : List Char) : Option (UInt16 × List Char) := do
  let (n, rest) ← readDecimal? 65536 (← skip? ':' cs)
  return (UInt16.ofNat n, rest)

/-- A scope, and `0` where none is written. -/
def readScope (cs : List Char) : UInt32 × List Char :=
  match skip? '%' cs >>= readDecimal? 4294967296 with
  | some (n, rest) => (UInt32.ofNat n, rest)
  | none => (0, cs)

/-- An address of the older family. -/
def readV4? (cs : List Char) : Option (SocketAddress × List Char) := do
  let (host, cs) ← IPv4.read? cs
  let (port, cs) ← readPort? cs
  return (v4 host port, cs)

/-- An address of the newer family. -/
def readV6? (cs : List Char) : Option (SocketAddress × List Char) := do
  let (host, cs) ← IPv6.read? (← skip? '[' cs)
  let (scope, cs) := readScope cs
  let (port, cs) ← readPort? (← skip? ']' cs)
  return (v6 host scope port, cs)

/-- **The address that a text is**, if it is one. -/
def ofText? (s : String) : Option SocketAddress :=
  match (readV4? s.toList).or (readV6? s.toList) with
  | some (a, []) => some a
  | _ => none

end SocketAddress

end LogCourier
