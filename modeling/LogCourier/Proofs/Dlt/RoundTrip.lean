import LogCourier.Dlt.Message
import LogCourier.Proofs.Bytes
import LogCourier.Proofs.Id

/-!
# Reading what was written

A receiver reads from a message exactly what was put into it. The file goes through the
layers of a message from the inside: the header, with its numbers and identifiers, one argument,
all arguments.

Each layer has one statement, and it is about what was written **followed by anything**: the
reader takes what belongs to it and hands on the rest. So the layers fit together without
looking into one another. The rest of a whole datagram is empty, which is why every byte of it is
accounted for.

* `LogCourier.Dlt.Header.read?_append`: a header;
* `LogCourier.Dlt.Argument.read?_append`: an argument, if it has a written form;
* `LogCourier.Dlt.Argument.readAll?_append`: an argument before others.
-/

namespace LogCourier

namespace Dlt

/-! ### Headers -/

/-- **A header is read from its bytes**, whatever follows. -/
theorem Header.read?_append (h : Header) (rest : Bytes) :
    Header.read? (h.bytes ++ rest) = some (h, rest) := by
  obtain ⟨e₀, e₁, e₂, e₃, hecu⟩ := h.ecu.exists_bytes_eq
  obtain ⟨a₀, a₁, a₂, a₃, happ⟩ := h.appid.exists_bytes_eq
  obtain ⟨c₀, c₁, c₂, c₃, hctx⟩ := h.ctxid.exists_bytes_eq
  -- one byte has the kind of message in its low half and the level in its high half
  have hverbose : h.messageInfo % 16 = 1 := by
    rw [messageInfo]
    cases h.level <;> decide
  have hlevel : Level.ofCode? (h.messageInfo / 16) = some h.level := by
    have hcode : h.messageInfo / 16 = h.level.code := by
      rw [messageInfo]
      cases h.level <;> decide
    rw [hcode, Level.ofCode?_code]
  have hecu' := h.ecu.ofBytes_bytes
  have happ' := h.appid.ofBytes_bytes
  have hctx' := h.ctxid.ofBytes_bytes
  rw [hecu] at hecu'
  rw [happ] at happ'
  rw [hctx] at hctx'
  simp only [bytes, hecu, happ, hctx, Bytes.be16, Bytes.be32, List.cons_append, List.nil_append,
    read?, Bytes.word16_eq, Bytes.word32_eq]
  simp [hverbose, hlevel, hecu', happ', hctx', Except.toOption]

/-! ### Arguments -/

namespace Argument

/-- Bytes behind their length are read again, whatever follows. -/
theorem sized?_append {data : Bytes} (h : data.length ≤ 65535) (rest : Bytes) :
    sized? (Bytes.le16 (UInt16.ofNat data.length) ++ data ++ rest) = some (data, rest) := by
  have hlength : (UInt16.ofNat data.length).toNat = data.length := by
    rw [UInt16.toNat_ofNat']
    omega
  simp only [Bytes.le16, List.cons_append, List.nil_append, sized?, Bytes.word16_eq]
  rw [hlength, if_neg (by simp), List.take_left, List.drop_left]

theorem read?_type (type : UInt32) (rest : Bytes) :
    read? (Bytes.le32 type ++ rest) = readTyped? type rest := by
  simp only [Bytes.le32, List.cons_append, List.nil_append, read?, Bytes.word32_eq]

/-- **An argument is read from its bytes**, whatever follows. -/
theorem read?_append {a : Argument} {written : Bytes} (h : a.bytes = .ok written) (rest : Bytes) :
    read? (written ++ rest) = some (a, rest) := by
  cases a with
  | number value =>
    obtain rfl := Except.ok.inj h
    rw [List.append_assoc, read?_type]
    simp only [readTyped?, if_true, Bytes.le32, List.cons_append, List.nil_append,
      Bytes.word32_eq]
  | raw data =>
    simp only [bytes] at h
    split at h
    · exact absurd h (by simp)
    · obtain rfl := Except.ok.inj h
      rw [List.append_assoc, List.append_assoc, read?_type]
      unfold readTyped?
      rw [if_neg (by decide), if_pos rfl, ← List.append_assoc, sized?_append (by omega)]
      rfl
  | text data =>
    simp only [bytes] at h
    split at h
    · exact absurd h (by simp)
    · obtain rfl := Except.ok.inj h
      -- a text is written with a zero byte behind it, which its length counts
      have hsized := @sized?_append (data ++ [0]) (by simp; omega) rest
      rw [List.length_append, List.length_singleton] at hsized
      simp only [List.append_assoc] at hsized ⊢
      rw [read?_type]
      unfold readTyped?
      rw [if_neg (by decide), if_neg (by decide), if_pos rfl, hsized]
      simp

/-- **The arguments of a list are read one after the other.** -/
theorem readAll?_append {a : Argument} {written : Bytes} (h : a.bytes = .ok written)
    (rest : Bytes) : readAll? (written ++ rest) = (readAll? rest).map (a :: ·) := by
  have hread := read?_append h rest
  have hsome : written ++ rest ≠ [] := by
    intro hnil
    rw [hnil] at hread
    exact absurd hread (by simp [read?])
  rw [readAll?, if_neg hsome]
  split
  · rename_i a' rest' hread'
    rw [hread, Option.some.injEq, Prod.mk.injEq] at hread'
    rw [hread'.1, hread'.2]
  · rename_i hnone
    rw [hread] at hnone
    exact absurd hnone (by simp)

end Argument

end Dlt

end LogCourier
