import LogCourier.Bytes

/-!
# Numbers and texts as bytes

What is written is read again, and read bytes are those that would be written. For numbers that
is said of their bytes one by one; for a text, of all its bytes. Then, how many bytes a text has:
those of its parts, if it is put together, and four for a character at most.
-/

namespace LogCourier.Bytes

/-! ### Numbers -/

theorem word16_eq (n : UInt16) :
    word16 (UInt8.ofNat (n.toNat / 256)) (UInt8.ofNat n.toNat) = n := by
  rw [← UInt16.toNat_inj]
  have hlt := n.toNat_lt
  simp only [word16, UInt16.toNat_ofNat', UInt8.toNat_ofNat']
  omega

theorem word32_eq (n : UInt32) :
    word32 (UInt8.ofNat (n.toNat / 16777216)) (UInt8.ofNat (n.toNat / 65536))
      (UInt8.ofNat (n.toNat / 256)) (UInt8.ofNat n.toNat) = n := by
  rw [← UInt32.toNat_inj]
  have hlt := n.toNat_lt
  simp only [word32, UInt32.toNat_ofNat', UInt8.toNat_ofNat']
  omega

theorem toNat_word16 (a b : UInt8) : (word16 a b).toNat = a.toNat * 256 + b.toNat := by
  have ha := a.toNat_lt
  have hb := b.toNat_lt
  rw [word16, UInt16.toNat_ofNat']
  omega

/-- The bytes of a number of two bytes are the bytes that it was read from. -/
theorem be16_word16 (a b : UInt8) : be16 (word16 a b) = [a, b] := by
  have ha := a.toNat_lt
  have hb := b.toNat_lt
  have hhigh : (a.toNat * 256 + b.toNat) / 256 = a.toNat := by omega
  rw [be16, toNat_word16, hhigh, UInt8.ofNat_toNat, List.cons.injEq, List.cons.injEq]
  refine ⟨rfl, ?_, rfl⟩
  rw [← UInt8.toNat_inj, UInt8.toNat_ofNat']
  omega

/-! ### Texts -/

/-- **Bytes that are UTF-8**: those of some characters, one character after the other. -/
def IsUtf8 (bs : Bytes) : Prop :=
  ∃ cs : List Char, bs = cs.flatMap String.utf8EncodeChar

/-- The bytes of a text are those of its characters. -/
theorem ofText_ofList (cs : List Char) :
    ofText (String.ofList cs) = cs.flatMap String.utf8EncodeChar := by
  rw [ofText, String.toByteArray_ofList, List.utf8Encode, List.data_toByteArray]

theorem isUtf8_ofText (s : String) : IsUtf8 (ofText s) :=
  ⟨s.toList, by rw [← ofText_ofList, String.ofList_toList]⟩

theorem IsUtf8.exists_ofText {bs : Bytes} (h : IsUtf8 bs) : ∃ s, ofText s = bs := by
  obtain ⟨cs, rfl⟩ := h
  exact ⟨String.ofList cs, ofText_ofList cs⟩

/-- **A text is read from its bytes.** -/
theorem text?_ofText (s : String) : text? (ofText s) = some s := by
  have hbytes : (⟨(ofText s).toArray⟩ : ByteArray) = s.toByteArray := by
    rw [ofText, Array.toArray_toList]
  rw [text?, hbytes, String.fromUTF8?, dif_pos s.isValidUTF8]
  rfl

/-- Bytes that are a text are the bytes of that text. -/
theorem ofText_of_text? {bs : Bytes} {s : String} (h : text? bs = some s) : ofText s = bs := by
  simp only [text?, String.fromUTF8?] at h
  split at h
  · rw [← Option.some.inj h]
    rfl
  · exact absurd h (by simp)

/-- Texts with the same bytes are the same. -/
theorem ofText_inj {s t : String} : ofText s = ofText t ↔ s = t := by
  refine ⟨fun h => ?_, fun h => h ▸ rfl⟩
  have hs := text?_ofText s
  rw [h, text?_ofText] at hs
  exact (Option.some.inj hs).symm

/-- A text that is put together has the bytes of its parts, one after the other. -/
theorem ofText_append (s t : String) : ofText (s ++ t) = ofText s ++ ofText t := by
  rw [← String.ofList_toList (s := s), ← String.ofList_toList (s := t), ← String.ofList_append,
    ofText_ofList, ofText_ofList, ofText_ofList, List.flatMap_append]

/-! ### ASCII -/

/-- An ASCII character is one byte. -/
theorem utf8EncodeChar_of_lt {c : Char} (h : c.toNat < 128) :
    String.utf8EncodeChar c = [UInt8.ofNat c.toNat] := by
  have hle : c.val.toNat ≤ 127 := Nat.le_of_lt_succ h
  simp only [String.utf8EncodeChar, if_pos hle]
  rfl

/-! ### How many bytes a text has -/

theorem length_ofText (s : String) : (ofText s).length = s.utf8ByteSize := by
  rw [ofText, Array.length_toList]
  rfl

/-- A text that is put together has the bytes of its parts. -/
theorem length_ofText_append (s t : String) :
    (ofText (s ++ t)).length = (ofText s).length + (ofText t).length := by
  simp only [length_ofText, String.utf8ByteSize_append]

/-- A character has at most four bytes. -/
theorem length_ofText_le (s : String) : (ofText s).length ≤ 4 * s.length := by
  rw [length_ofText, ← String.ofList_toList (s := s)]
  induction s.toList with
  | nil => exact Nat.zero_le _
  | cons c cs ih =>
    rw [String.ofList_cons, String.utf8ByteSize_append, String.utf8ByteSize_singleton,
      String.length_append]
    have hc := c.utf8Size_le_four
    have hone : (String.singleton c).length = 1 := by simp
    omega

end LogCourier.Bytes
