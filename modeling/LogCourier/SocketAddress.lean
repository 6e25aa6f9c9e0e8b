import LogCourier.Numeral

/-!
# Socket addresses

Where messages go to and where records come from: an address of a host, in one of
two families, and a port. An IPv6 address may be tied to one of the host's own
networks, by a **scope**; with scope `0` it is not.

This file has the addresses and their written form:

* four bytes are written in base ten, `127.0.0.1:3490`;
* eight groups are written in base sixteen and in brackets, `[fe80::1%4]:80`. The
  first of the longest stretches of zeros is left out, if it is longer than one.
  An IPv4 address that is mapped into IPv6 shows its four bytes,
  `[::ffff:10.0.0.1]:80`.

How they are read is the business of `LogCourier.SocketAddress.Reader`.
-/

namespace LogCourier

/-- The four bytes of an IPv4 address. -/
structure IPv4 where
  /-- The first byte. -/
  a : UInt8
  /-- The second byte. -/
  b : UInt8
  /-- The third byte. -/
  c : UInt8
  /-- The fourth byte. -/
  d : UInt8
  deriving DecidableEq, Repr

/-- The eight groups of an IPv6 address. -/
structure IPv6 where
  /-- The groups. -/
  groups : List UInt16
  /-- There are eight. -/
  length_eq : groups.length = 8
  deriving DecidableEq, Repr

/-- An address and a port. -/
inductive SocketAddress
  /-- In the older family. -/
  | v4 (host : IPv4) (port : UInt16)
  /-- In the newer family, with a scope. -/
  | v6 (host : IPv6) (scope : UInt32) (port : UInt16)
  deriving DecidableEq, Repr

/-! ### Written forms -/

/-- The written form of an IPv4 address. -/
def IPv4.text (h : IPv4) : String :=
  ".".intercalate ([h.a, h.b, h.c, h.d].map fun byte => Numeral.text 10 byte.toNat)

namespace IPv6

/-- The number of zeros that a list starts with. -/
def zeros (groups : List UInt16) : Nat :=
  (groups.takeWhile (· = 0)).length

/-- The first of the longest stretches of zeros: where it starts, and its length. -/
def longestZeros (groups : List UInt16) : Nat × Nat :=
  (List.range groups.length).foldl
    (fun best start =>
      let length := zeros (groups.drop start)
      if best.2 < length then (start, length) else best)
    (0, 0)

/-- Groups in base sixteen. -/
def groupsText (groups : List UInt16) : String :=
  ":".intercalate (groups.map fun g => Numeral.text 16 g.toNat)

/-- The IPv4 address that is mapped into IPv6 so. -/
def mapped? (h : IPv6) : Option IPv4 :=
  match h.groups with
  | [0, 0, 0, 0, 0, 0xFFFF, hi, lo] =>
    some ⟨UInt8.ofNat (hi.toNat / 256), UInt8.ofNat hi.toNat, UInt8.ofNat (lo.toNat / 256),
      UInt8.ofNat lo.toNat⟩
  | _ => none

/-- The written form of an IPv6 address. -/
def text (h : IPv6) : String :=
  match h.mapped? with
  | some inner => "::ffff:" ++ inner.text
  | none =>
    match longestZeros h.groups with
    | (start, length) =>
      if 1 < length then
        groupsText (h.groups.take start) ++ "::" ++ groupsText (h.groups.drop (start + length))
      else groupsText h.groups

end IPv6

namespace SocketAddress

/-- **The written form of a socket address.** -/
def text : SocketAddress → String
  | v4 host port => host.text ++ ":" ++ Numeral.text 10 port.toNat
  | v6 host scope port =>
    let tie := if scope = 0 then "" else "%" ++ Numeral.text 10 scope.toNat
    "[" ++ host.text ++ tie ++ "]:" ++ Numeral.text 10 port.toNat

/-- A port of this very host. -/
def loopback (port : UInt16) : SocketAddress :=
  v4 ⟨127, 0, 0, 1⟩ port

end SocketAddress

end LogCourier
