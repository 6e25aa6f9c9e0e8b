import LogCourier.Id

/-!
# Identifiers on the wire

An identifier takes four bytes on the wire, and **each identifier has its own four bytes**: what
was written is read again (`LogCourier.Id.ofBytes_bytes`), and four bytes that are read as an
identifier are those that it would be written with (`LogCourier.Id.bytes_of_ofBytes`). So nothing
else is read than text with NUL behind it (`LogCourier.Id.Padded`).

Of the second only this much is true: bytes that are fewer than four are read as well, the filling
being left out, and are then not the ones that would be written.
-/

namespace LogCourier

namespace Id

/-! ### Filling -/

/-- The text of an identifier ends where its filling begins, however long that is. -/
theorem takeWhile_filled (id : Id) (k : Nat) :
    (id.chars ++ List.replicate k 0).takeWhile (· ≠ 0) = id.chars := by
  rw [List.takeWhile_append_of_pos]
  · simp
  · intro b hb
    simpa using (id.ascii b hb).1

/-- From the filling on there is nothing else. -/
theorem dropWhile_filled (id : Id) (k : Nat) :
    (id.chars ++ List.replicate k 0).dropWhile (· ≠ 0) = List.replicate k 0 := by
  rw [List.dropWhile_append_of_pos]
  · simp
  · intro b hb
    simpa using (id.ascii b hb).1

/-- With its filling an identifier is ASCII. -/
theorem find?_filled (id : Id) (k : Nat) :
    (id.chars ++ List.replicate k 0).find? (128 ≤ ·) = none := by
  rw [List.find?_eq_none]
  intro b hb
  rw [decide_eq_true_eq, UInt8.not_le]
  rcases List.mem_append.mp hb with hchar | hfill
  · exact (id.ascii b hchar).2
  · rw [(List.mem_replicate.mp hfill).2]
    decide

/-- **However much it is filled up, an identifier is read**, as long as there are no more than four
bytes. -/
theorem ofBytes_filled (id : Id) {k : Nat} (h : id.chars.length + k ≤ 4) :
    ofBytes (id.chars ++ List.replicate k 0) = .ok id := by
  have hsome := List.length_pos_iff.mpr id.ne_nil
  unfold ofBytes
  rw [dif_neg (by rw [List.length_append, List.length_replicate]; omega)]
  split
  · rename_i b hb
    rw [find?_filled] at hb
    exact absurd hb (by simp)
  · rw [dif_neg (by rw [takeWhile_filled]; exact id.ne_nil),
      if_neg (by rw [dropWhile_filled]; simp)]
    simp only [takeWhile_filled]

/-- **What is read is an identifier that was filled up.** -/
theorem eq_filled_of_ofBytes {raw : Bytes} {id : Id} (h : ofBytes raw = .ok id) :
    raw.length ≤ 4 ∧ ∃ k, raw = id.chars ++ List.replicate k 0 := by
  unfold ofBytes at h
  split at h
  · exact absurd h (by simp)
  rename_i hlength
  split at h
  · exact absurd h (by simp)
  split at h
  · exact absurd h (by simp)
  split at h
  · exact absurd h (by simp)
  · rename_i hgap
    obtain rfl := Except.ok.inj h
    -- behind the first NUL there is no character, so it is all filling
    have hfilling : ∀ b ∈ raw.dropWhile (· ≠ 0), b = 0 := by
      intro b hb
      exact Decidable.byContradiction fun hne =>
        hgap (List.any_eq_true.mpr ⟨b, hb, decide_eq_true hne⟩)
    refine ⟨by omega, (raw.dropWhile (· ≠ 0)).length, ?_⟩
    rw [← List.eq_replicate_of_mem hfilling]
    exact List.takeWhile_append_dropWhile.symm

/-- **The wire form stands for the identifier.** -/
theorem ofBytes_bytes (id : Id) : ofBytes id.bytes = .ok id :=
  id.ofBytes_filled (by have := id.length_le; omega)

/-- The wire form, byte by byte. -/
theorem exists_bytes_eq (id : Id) : ∃ a b c d, id.bytes = [a, b, c, d] := by
  have hlength := id.length_bytes
  match hbytes : id.bytes with
  | [a, b, c, d] => exact ⟨a, b, c, d, rfl⟩
  | [] | [_] | [_, _] | [_, _, _] | _ :: _ :: _ :: _ :: _ :: _ =>
    rw [hbytes] at hlength
    simp at hlength

/-! ### What the four bytes may be -/

/-- **Four bytes that are filled up**: one character or more, each ASCII and not NUL, and after
them nothing but NUL. -/
structure Padded (raw : Bytes) : Prop where
  /-- There are four. -/
  length : raw.length = 4
  /-- They are characters, and then NUL. -/
  parts : ∃ chars filling, raw = chars ++ filling ∧ chars ≠ [] ∧
    (∀ b ∈ chars, b ≠ 0 ∧ b < 128) ∧ ∀ b ∈ filling, b = 0

/-- The wire form is filled up. -/
theorem padded_bytes (id : Id) : Padded id.bytes where
  length := id.length_bytes
  parts := ⟨id.chars, _, rfl, id.ne_nil, id.ascii, fun _ hb => (List.mem_replicate.mp hb).2⟩

/-- **Four bytes that are filled up are a wire form.** -/
theorem Padded.exists_bytes_eq {raw : Bytes} (h : Padded raw) : ∃ id : Id, id.bytes = raw := by
  obtain ⟨chars, filling, rfl, hsome, hascii, hfilling⟩ := h.parts
  have hlength := h.length
  rw [List.length_append] at hlength
  refine ⟨⟨chars, hsome, by omega, hascii⟩, ?_⟩
  have hcount : 4 - chars.length = filling.length := by omega
  rw [bytes, hcount, ← List.eq_replicate_of_mem hfilling]

/-- **Four bytes that stand for an identifier are its wire form.** -/
theorem bytes_of_ofBytes {raw : Bytes} {id : Id} (hlength : raw.length = 4)
    (h : ofBytes raw = .ok id) : id.bytes = raw := by
  obtain ⟨-, k, rfl⟩ := eq_filled_of_ofBytes h
  rw [List.length_append, List.length_replicate] at hlength
  rw [bytes, ← hlength, Nat.add_sub_cancel_left]

end Id

end LogCourier
