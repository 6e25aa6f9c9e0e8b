import LogCourier.Proofs.Numeral
import LogCourier.SocketAddress.Reader

/-!
# Addresses that are written and read

An address of the older family is written as four bytes with points between them, a colon and a
port, all in base ten, and **it is read again** (`LogCourier.SocketAddress.ofText?_v4`). A number
ends where its digits do, so what comes behind it need only start with something else; and a byte
has at most three digits, none of them a zero in front of others, which is all that a reader of
bytes asks for.
-/

namespace LogCourier

/-- The points and colons between numbers are no digits. -/
def IsApart (rest : List Char) : Prop :=
  ∀ c ∈ rest.head?, Numeral.isDigit 10 c = false

theorem isApart_nil : IsApart [] := by
  simp [IsApart]

theorem isApart_cons {c : Char} (h : Numeral.isDigit 10 c = false) (rest : List Char) :
    IsApart (c :: rest) :=
  forall_head?_cons h

theorem skip?_cons (c : Char) (rest : List Char) : skip? c (c :: rest) = some rest := by
  simp [skip?]

/-- A number below a bound is read again. -/
theorem readDecimal?_toDigits {n bound : Nat} (h : n < bound) {rest : List Char}
    (hrest : IsApart rest) : readDecimal? bound (Nat.toDigits 10 n ++ rest) = some (n, rest) := by
  rw [readDecimal?, Numeral.split_toDigits (by decide) (by decide) n hrest]
  simp only []
  rw [if_neg Nat.toDigits_ne_nil, Numeral.below?_toDigits (by decide) (by decide) h]
  rfl

namespace IPv4

/-- A byte is read again. -/
theorem readByte?_toDigits (b : UInt8) {rest : List Char} (hrest : IsApart rest) :
    readByte? (Nat.toDigits 10 b.toNat ++ rest) = some (b, rest) := by
  have hlt : b.toNat < 256 := b.toNat_lt
  have hlength : (Nat.toDigits 10 b.toNat).length ≤ 3 := by
    rw [Nat.length_toDigits_le_iff (by decide) (by decide)]
    omega
  have hzero : ¬ ((Nat.toDigits 10 b.toNat).head? = some '0' ∧
      (Nat.toDigits 10 b.toNat).length ≠ 1) := by
    rintro ⟨hhead, hmore⟩
    rw [Numeral.head?_toDigits (by decide) (by decide) _ hhead] at hmore
    exact hmore rfl
  rw [readByte?, Numeral.split_toDigits (by decide) (by decide) _ hrest]
  simp only []
  rw [if_neg (by simp only [Nat.toDigits_ne_nil, false_or, not_or]; exact ⟨by omega, hzero⟩),
    Numeral.below?_toDigits (by decide) (by decide) hlt]
  simp only [Option.map_some, UInt8.ofNat_toNat]

/-- The written form of a host, character by character. -/
theorem toList_text (h : IPv4) : h.text.toList =
    Nat.toDigits 10 h.a.toNat ++ '.' :: (Nat.toDigits 10 h.b.toNat ++ '.' ::
      (Nat.toDigits 10 h.c.toNat ++ '.' :: Nat.toDigits 10 h.d.toNat)) := by
  simp [text, Numeral.text]

/-- **A host is read again.** -/
theorem read?_text (h : IPv4) {rest : List Char} (hrest : IsApart rest) :
    read? (h.text.toList ++ rest) = some (h, rest) := by
  have hpoint : Numeral.isDigit 10 '.' = false := by decide
  rw [toList_text]
  simp only [List.append_assoc, List.cons_append]
  simp only [read?, readByte?_toDigits _ (isApart_cons hpoint _), readByte?_toDigits _ hrest,
    skip?_cons, Option.bind_eq_bind, Option.bind_some]
  rfl

end IPv4

namespace SocketAddress

theorem readPort?_toDigits (port : UInt16) {rest : List Char} (hrest : IsApart rest) :
    readPort? (':' :: (Nat.toDigits 10 port.toNat ++ rest)) = some (port, rest) := by
  simp only [readPort?, skip?_cons, readDecimal?_toDigits port.toNat_lt hrest,
    Option.bind_eq_bind, Option.bind_some, UInt16.ofNat_toNat]
  rfl

/-- **An address of the older family is read again.** -/
theorem ofText?_v4 (host : IPv4) (port : UInt16) :
    ofText? (text (.v4 host port)) = some (.v4 host port) := by
  have hcolon : Numeral.isDigit 10 ':' = false := by decide
  have hread : readV4? (text (.v4 host port)).toList = some (.v4 host port, []) := by
    have hport := readPort?_toDigits port isApart_nil
    rw [List.append_nil] at hport
    have htext : (text (.v4 host port)).toList =
        host.text.toList ++ ':' :: Nat.toDigits 10 port.toNat := by
      simp [text, Numeral.text]
    rw [htext]
    simp only [readV4?, IPv4.read?_text host (isApart_cons hcolon _), hport, Option.bind_eq_bind,
      Option.bind_some]
    rfl
  rw [ofText?, hread]
  rfl

end SocketAddress

end LogCourier
