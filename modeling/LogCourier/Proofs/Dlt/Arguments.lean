import LogCourier.Dlt.Buffer
import LogCourier.Proofs.Dlt.RoundTrip

/-!
# The arguments of a packet

A packet has two arguments, its number and its payload. There is one limit to what a payload may
be, `LogCourier.Packet.maxPayload`, and it is tighter than what the length field of either argument
allows: so **it is the only one that a packet is refused for**. What the arguments of any other
packet look like can then be written down, byte by byte (`LogCourier.Packet.written`).

There are two ways to come by those bytes, and both are described here: to put them into a
buffer (`LogCourier.Packet.put`), which is what a channel does, and to ask for them
(`LogCourier.Packet.arguments`). The first has one point that the second does not:

* **A buffer that was used before tells nothing of it.** It is emptied first, and once it is empty
  nothing may be refused any more (`LogCourier.Packet.put_of_le`). A packet that is refused is
  refused before that (`LogCourier.Packet.put_of_lt`).
-/

namespace LogCourier

namespace Dlt.Argument

/-! ### One argument -/

/-- An argument that has a written form is put behind what is written. -/
theorem append_of_bytes {a : Argument} {more : Bytes} (h : a.bytes = .ok more)
    (written : Bytes) : a.append written = .ok (written ++ more) := by
  simp only [append, h]

/-- **What an argument does to a buffer**: its written form is put behind what is there, or it is
refused and the buffer is left alone. -/
theorem put_eq (a : Argument) (buf : Bytes) :
    a.put buf = match a.bytes with
      | .ok more => (.ok (), buf ++ more)
      | .error e => (.error e, buf) := by
  cases a with
  | number value => simp [put, bytes, Filling.write]
  | raw data =>
    simp only [put, bytes]
    split
    · rfl
    · simp [Filling.write]
  | text data =>
    simp only [put, bytes]
    split
    · rfl
    · simp [Filling.write]

theorem put_of_bytes {a : Argument} {more : Bytes} (h : a.bytes = .ok more) (buf : Bytes) :
    a.put buf = (.ok (), buf ++ more) := by
  rw [put_eq, h]

theorem put_of_refused {a : Argument} {e : TooLarge} (h : a.bytes = .error e) (buf : Bytes) :
    a.put buf = (.error e, buf) := by
  rw [put_eq, h]

end Dlt.Argument

/-! ### The arguments of a packet -/

namespace Packet

variable {p : Packet}

/-- The type of a payload's argument. -/
def payloadType (p : Packet) : UInt32 :=
  match p.content with
  | .info => Dlt.Argument.rawType
  | .error => Dlt.Argument.textType

/-- What stands behind the length of a payload's argument: the payload, and a NUL if it is text. -/
def body (p : Packet) : Bytes :=
  match p.content with
  | .info => p.payload
  | .error => p.payload ++ [0]

/-- **The arguments of a packet**, as far as they can be written: its number, and its payload
behind a type and a length. -/
def written (p : Packet) : Bytes :=
  Bytes.le32 Dlt.Argument.numberType ++ Bytes.le32 p.sequence ++
    (Bytes.le32 p.payloadType ++ Bytes.le16 (UInt16.ofNat p.body.length) ++ p.body)

theorem length_body_le (p : Packet) : p.body.length ≤ p.payload.length + 1 := by
  rw [body]
  split <;> simp

theorem length_written (p : Packet) : p.written.length = 14 + p.body.length := by
  simp only [written, Bytes.le32, Bytes.le16, List.length_append, List.length_cons,
    List.length_nil]
  omega

theorem bytes_number (p : Packet) : (Dlt.Argument.number p.sequence).bytes =
    .ok (Bytes.le32 Dlt.Argument.numberType ++ Bytes.le32 p.sequence) :=
  rfl

theorem bytes_payloadArgument (h : p.payload.length ≤ maxPayload) : p.payloadArgument.bytes =
    .ok (Bytes.le32 p.payloadType ++ Bytes.le16 (UInt16.ofNat p.body.length) ++ p.body) := by
  have hmax : maxPayload = 65470 := rfl
  cases hcontent : p.content with
  | info =>
    simp only [payloadArgument, payloadType, body, hcontent, Dlt.Argument.bytes]
    rw [if_neg (by omega)]
  | error =>
    simp only [payloadArgument, payloadType, body, hcontent, Dlt.Argument.bytes]
    -- the NUL stands behind the payload, and the length counts it
    rw [if_neg (by omega), List.length_append, List.length_singleton,
      List.append_assoc _ p.payload]

theorem arguments_eq (h : p.payload.length ≤ maxPayload) : p.arguments = .ok p.written := by
  rw [arguments, if_neg (Nat.not_lt.mpr h), Dlt.Argument.append_of_bytes p.bytes_number]
  exact Dlt.Argument.append_of_bytes (bytes_payloadArgument h) _

/-- **A packet has arguments if its payload is not too long**, and only then. -/
theorem arguments_eq_ok_iff {arguments : Bytes} : p.arguments = .ok arguments ↔
    p.payload.length ≤ maxPayload ∧ arguments = p.written := by
  constructor
  · intro h
    have hle : p.payload.length ≤ maxPayload := by
      rw [Packet.arguments] at h
      split at h
      · exact absurd h (by simp)
      · omega
    rw [arguments_eq hle] at h
    exact ⟨hle, (Except.ok.inj h).symm⟩
  · rintro ⟨hle, rfl⟩
    exact arguments_eq hle

/-- **Arguments leave room for a header**, in a message and in a datagram. -/
theorem length_written_le (h : p.payload.length ≤ maxPayload) :
    p.written.length ≤ Dlt.Header.maxPayload ∧
      Dlt.Header.size + p.written.length ≤ maxDatagram := by
  have hmax : maxPayload = 65470 := rfl
  have hroom : Dlt.Header.maxPayload = 65513 := rfl
  have hsize : Dlt.Header.size = 22 := rfl
  have hdatagram : maxDatagram = 65507 := rfl
  have hbody := p.length_body_le
  rw [length_written]
  omega

theorem readAll?_written (h : p.payload.length ≤ maxPayload) :
    Dlt.Argument.readAll? p.written = some [.number p.sequence, p.payloadArgument] := by
  have hlast := Dlt.Argument.readAll?_append (bytes_payloadArgument h) []
  rw [List.append_nil] at hlast
  rw [written, Dlt.Argument.readAll?_append p.bytes_number, hlast, Dlt.Argument.readAll?]
  rfl

/-! ### In a buffer -/

/-- **A packet that is not refused has the buffer for itself**: nothing is refused any more once the
buffer is empty. -/
theorem put_of_le (h : p.payload.length ≤ maxPayload) (buf : Bytes) :
    p.put buf = (.ok (), p.written) := by
  rw [put, if_neg (Nat.not_lt.mpr h)]
  simp only [Dlt.Filling.andThen, Dlt.Filling.clear, Dlt.Argument.put_of_bytes p.bytes_number,
    Dlt.Argument.put_of_bytes (bytes_payloadArgument h), List.nil_append, written]

/-- One that is refused leaves it alone. -/
theorem put_of_lt (h : maxPayload < p.payload.length) (buf : Bytes) :
    p.put buf = (.error ⟨p.payload.length⟩, buf) :=
  congrFun (if_pos h) buf

end Packet

end LogCourier
