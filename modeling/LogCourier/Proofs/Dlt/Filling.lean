import LogCourier.Proofs.Dlt.Arguments

/-!
# What is in a buffer

A buffer that is filled argument by argument holds just the arguments that were not refused, and a
reader who knows the types finds them again, each once and in their order
(`LogCourier.Dlt.filling_exact`). Nothing stands between two arguments: each says by its type and
its length where it ends.

Two things have to be seen.

* **A refusal leaves the buffer alone.** For one argument that is how it is put. For a packet it has
  to be shown: once the buffer is emptied nothing may be refused any more, and that is because the
  limit of a packet is tighter than that of either argument (`LogCourier.Packet.put_of_le`).
* **A text may have a NUL in it.** It is read by its length, which counts the NUL behind the text,
  and not up to the first NUL; so the longest text is one byte shorter than the longest raw
  argument.

Without a buffer, `LogCourier.Dlt.Argument.append` and `LogCourier.Packet.arguments` come to the
same.
-/

namespace LogCourier

namespace Dlt

namespace Argument

/-! ### Which arguments can be written -/

/-- The bytes that an argument stands for. -/
def size : Argument → Nat
  | number _ => 4
  | raw data | text data => data.length

/-- Whether the length of an argument can be written. That of a text counts one byte more. -/
def fits : Argument → Bool
  | number _ => true
  | raw data => data.length ≤ 65535
  | text data => data.length ≤ 65534

/-- What comes of putting an argument into a buffer. -/
def verdict (a : Argument) : Except TooLarge Unit :=
  if a.fits then .ok () else .error ⟨a.size⟩

/-- An argument has a written form if it fits, and is refused with its size if not. -/
theorem bytes_cases (a : Argument) :
    (a.fits = true ∧ ∃ more, a.bytes = .ok more) ∨ a.fits = false ∧ a.bytes = .error ⟨a.size⟩ := by
  cases a with
  | number value => exact Or.inl ⟨rfl, _, rfl⟩
  | raw data =>
    by_cases h : data.length ≤ 65535
    · exact Or.inl ⟨decide_eq_true h, _, if_neg (by omega)⟩
    · exact Or.inr ⟨decide_eq_false h, if_pos (by omega)⟩
  | text data =>
    by_cases h : data.length ≤ 65534
    · exact Or.inl ⟨decide_eq_true h, _, if_neg (by omega)⟩
    · exact Or.inr ⟨decide_eq_false h, if_pos (by omega)⟩

/-! ### One argument -/

theorem append_of_refused {a : Argument} {e : TooLarge} (h : a.bytes = .error e)
    (written : Bytes) : a.append written = .error e := by
  simp only [append, h]

end Argument

/-! ### Some arguments -/

namespace Filling

/-- Some things done to a buffer one after the other, whatever comes of each. -/
def each : List Filling → Bytes → List (Except TooLarge Unit) × Bytes
  | [], buf => ([], buf)
  | first :: rest, buf =>
    match first buf with
    | (answer, buf) =>
      match each rest buf with
      | (answers, buf) => (answer :: answers, buf)

theorem each_cons (first : Filling) (rest : List Filling) (buf : Bytes) :
    each (first :: rest) buf =
      ((first buf).1 :: (each rest (first buf).2).1, (each rest (first buf).2).2) :=
  rfl

/-- **Behind what was there stand the arguments that were not refused**, by induction on the calls:
what a call appends is read as its argument, whatever is appended after it. -/
theorem each_put (calls : List Argument) (buf : Bytes) :
    (each (calls.map Argument.put) buf).1 = calls.map Argument.verdict ∧
      ∃ appended, (each (calls.map Argument.put) buf).2 = buf ++ appended ∧
        Argument.readAll? appended = some (calls.filter Argument.fits) := by
  induction calls generalizing buf with
  | nil => exact ⟨rfl, [], (List.append_nil buf).symm, by rw [Argument.readAll?]; rfl⟩
  | cons a calls ih =>
    rw [List.map_cons, each_cons]
    rcases a.bytes_cases with ⟨hfits, more, hbytes⟩ | ⟨hfits, hbytes⟩
    · obtain ⟨hanswers, appended, hbuf, hread⟩ := ih (buf ++ more)
      rw [Argument.put_of_bytes hbytes]
      refine ⟨?_, more ++ appended, ?_, ?_⟩
      · rw [hanswers, List.map_cons, Argument.verdict, hfits]
        rfl
      · rw [hbuf, List.append_assoc]
      · rw [Argument.readAll?_append hbytes, hread, List.filter_cons_of_pos hfits]
        rfl
    · obtain ⟨hanswers, appended, hbuf, hread⟩ := ih buf
      rw [Argument.put_of_refused hbytes]
      refine ⟨?_, appended, hbuf, ?_⟩
      · rw [hanswers, List.map_cons, Argument.verdict, hfits]
        rfl
      · rw [hread, List.filter_cons_of_neg (by simp [hfits])]

end Filling

end Dlt

namespace Dlt

/-- **A buffer holds just what was not refused.**

Whatever is in a buffer: an argument whose length cannot be written is refused, and the buffer is as
it was; any other is put behind what is there.

Whatever is in a buffer, and whatever arguments are put into it one after the other, those that fit
are taken and the others refused; what was there still is, and what stands behind it is read as the
list of the arguments that were taken, in their order and with nothing left over.

A packet whose payload is too long is refused, and the buffer is as it was. Any other leaves nothing
in the buffer of what was there: its contents are then the same for all buffers, and they are read
as the number and the payload of the packet. -/
theorem filling_exact :
    (∀ (a : Argument) (buf : Bytes),
      (a.fits = false → a.put buf = (.error ⟨a.size⟩, buf) ∧ a.append buf = .error ⟨a.size⟩) ∧
      (a.fits = true → ∃ more, a.put buf = (.ok (), buf ++ more) ∧
        a.append buf = .ok (buf ++ more))) ∧
    (∀ (calls : List Argument) (buf : Bytes),
      let run := Filling.each (calls.map Argument.put) buf
      run.1 = calls.map Argument.verdict ∧
        ∃ appended, run.2 = buf ++ appended ∧
          Argument.readAll? appended = some (calls.filter Argument.fits)) ∧
    ∀ p : Packet,
      (Packet.maxPayload < p.payload.length → p.arguments = .error ⟨p.payload.length⟩ ∧
        ∀ buf, p.put buf = (.error ⟨p.payload.length⟩, buf)) ∧
      (p.payload.length ≤ Packet.maxPayload → ∃ written, p.arguments = .ok written ∧
        (∀ buf, p.put buf = (.ok (), written)) ∧
        Argument.readAll? written = some [.number p.sequence, p.payloadArgument]) := by
  refine ⟨fun a buf => ?_, Filling.each_put, fun p => ⟨fun h => ?_, fun h => ?_⟩⟩
  · rcases a.bytes_cases with ⟨hfits, more, hbytes⟩ | ⟨hfits, hbytes⟩
    · exact ⟨fun hnot => absurd (hfits.symm.trans hnot) (by simp),
        fun _ => ⟨more, Argument.put_of_bytes hbytes buf, Argument.append_of_bytes hbytes buf⟩⟩
    · exact ⟨fun _ => ⟨Argument.put_of_refused hbytes buf, Argument.append_of_refused hbytes buf⟩,
        fun hyes => absurd (hfits.symm.trans hyes) (by simp)⟩
  · exact ⟨if_pos h, Packet.put_of_lt h⟩
  · exact ⟨p.written, Packet.arguments_eq h, Packet.put_of_le h, Packet.readAll?_written h⟩

/-- Of three arguments the second is too long, and the third has a NUL in it; as a packet the second
is too long as well. -/
theorem filling_exact_refused :
    let long : Bytes := List.replicate 65536 0x00
    let calls : List Argument := [.number 7, .raw long, .text [0x61, 0x00, 0x62]]
    let p : Packet := ⟨long, .info, Id.ft, Id.ft, 0, 0⟩
    (Argument.raw long).fits = false ∧
      (Argument.raw long).put [0xEE] = (.error ⟨65536⟩, [0xEE]) ∧
      (Filling.each (calls.map Argument.put) [0xEE]).1 = [.ok (), .error ⟨65536⟩, .ok ()] ∧
      (∃ appended, (Filling.each (calls.map Argument.put) [0xEE]).2 = [0xEE] ++ appended ∧
        Argument.readAll? appended = some [.number 7, .text [0x61, 0x00, 0x62]]) ∧
      Packet.maxPayload < p.payload.length ∧ p.put [0xEE] = (.error ⟨65536⟩, [0xEE]) := by
  intro long calls p
  have hlength : long.length = 65536 := List.length_replicate
  have hfits : (Argument.raw long).fits = false := by
    simp only [Argument.fits, hlength]
    decide
  have hlong : Packet.maxPayload < p.payload.length := by
    change Packet.maxPayload < long.length
    rw [hlength]
    decide
  obtain ⟨hone, hall, hpacket⟩ := filling_exact
  have hverdict : (Argument.raw long).verdict = .error ⟨65536⟩ := by
    simp only [Argument.verdict, hfits, Argument.size, hlength]
    rfl
  obtain ⟨hanswers, appended, hbuf, hread⟩ := hall calls [0xEE]
  refine ⟨hfits, ?_, ?_, ⟨appended, hbuf, ?_⟩, hlong, ?_⟩
  · have hput := ((hone (.raw long) [0xEE]).1 hfits).1
    rw [Argument.size, hlength] at hput
    exact hput
  · rw [hanswers]
    simp only [calls, List.map_cons, List.map_nil, hverdict]
    rfl
  · rw [hread]
    simp only [calls, List.filter_cons, hfits]
    rfl
  · have hput := ((hpacket p).1 hlong).2 [0xEE]
    rw [show p.payload = long from rfl, hlength] at hput
    exact hput

end Dlt

end LogCourier
