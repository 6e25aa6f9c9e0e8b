import LogCourier.Channel
import LogCourier.Proofs.Dlt.Arguments

/-!
# Packets that fit

A packet becomes a message if its payload is not too long, and only then
(`LogCourier.Channel.frame_eq_ok_iff`). The length field of a message would allow more than that, so
**a packet that has arguments has a header as well**.

The message can be written down, byte by byte: `LogCourier.Packet.written` are its arguments, which
are all there is in the channel's buffer when they have been put there, and
`LogCourier.Channel.header` is its header. **A receiver finds in it the number and the payload of
the packet, under the number of the message** (`LogCourier.Channel.read?_message`).
-/

namespace LogCourier

/-- The length that a header tells stands behind its first two bytes. -/
theorem Dlt.Header.exists_bytes_eq (h : Dlt.Header) :
    ∃ back, h.bytes = [headerType, h.counter] ++ Bytes.be16 h.length ++ back :=
  ⟨h.ecu.bytes ++ Bytes.be32 h.timestamp ++ [h.messageInfo, h.argumentCount] ++ h.appid.bytes ++
    h.ctxid.bytes, by simp only [bytes, List.append_assoc]⟩

namespace Channel

variable {p : Packet}

/-! ### Messages -/

/-- The header of the message that a packet becomes next. -/
def header (c : Channel) (p : Packet) : Dlt.Header where
  counter := c.counter
  length := UInt16.ofNat (Dlt.Header.size + p.written.length)
  ecu := c.config.ecu
  timestamp := p.timestamp
  level := p.content.level
  argumentCount := Packet.argumentCount
  appid := p.appid
  ctxid := p.ctxid

/-- **The message that a packet becomes next.** -/
def message (c : Channel) (p : Packet) : Bytes :=
  (c.header p).bytes ++ p.written

theorem length_message (c : Channel) (p : Packet) :
    (c.message p).length = Dlt.Header.size + p.written.length := by
  rw [message, List.length_append, Dlt.Header.length_bytes]

/-- The header tells the length of the message. -/
theorem toNat_length_header (c : Channel) (h : p.payload.length ≤ Packet.maxPayload) :
    (c.header p).length.toNat = (c.message p).length := by
  have hdatagram : Packet.maxDatagram = 65507 := rfl
  obtain ⟨-, hle⟩ := Packet.length_written_le h
  rw [length_message]
  change (UInt16.ofNat (Dlt.Header.size + p.written.length)).toNat = _
  rw [UInt16.toNat_ofNat']
  omega

/-- The header is there for the arguments of a packet that has any. -/
theorem log_eq (c : Channel) (h : p.payload.length ≤ Packet.maxPayload) :
    Dlt.Header.log c.counter p.written.length c.config.ecu p.timestamp p.content.level
      Packet.argumentCount p.appid p.ctxid = .ok (c.header p) :=
  if_neg (Nat.not_lt.mpr (Packet.length_written_le h).1)

/-! ### Framing -/

/-- The channel with the arguments of a packet in its buffer. -/
def filled (c : Channel) (p : Packet) : Channel :=
  { c with scratch := p.written }

/-- **A packet that is not too long is framed**, whatever was in the buffer. -/
theorem frame_eq (c : Channel) (h : p.payload.length ≤ Packet.maxPayload) :
    c.frame p = (.ok (c.header p), c.filled p) := by
  simp only [frame, Packet.put_of_le h, c.log_eq h, filled]

/-- **A packet that is too long is refused**, and the channel is as it was. -/
theorem frame_of_lt (c : Channel) (h : Packet.maxPayload < p.payload.length) :
    c.frame p = (.error ⟨p.payload.length⟩, c) := by
  simp only [frame, Packet.put_of_lt h]

/-- **A packet becomes a message if its payload is not too long**, and only then. -/
theorem frame_eq_ok_iff {c c' : Channel} {header : Dlt.Header} : c.frame p = (.ok header, c') ↔
    p.payload.length ≤ Packet.maxPayload ∧ header = c.header p ∧ c' = c.filled p := by
  constructor
  · intro h
    rcases Nat.lt_or_ge Packet.maxPayload p.payload.length with hlt | hle
    · rw [c.frame_of_lt hlt] at h
      exact absurd h (by simp)
    · rw [c.frame_eq hle, Prod.mk.injEq, Except.ok.injEq] at h
      exact ⟨hle, h.1.symm, h.2.symm⟩
  · rintro ⟨hle, rfl, rfl⟩
    exact c.frame_eq hle

/-! ### Reading a message -/

/-- **The message of a packet is read as its header and its arguments.** -/
theorem read?_message (c : Channel) (h : p.payload.length ≤ Packet.maxPayload) :
    Dlt.Message.read? (c.message p) =
      some ⟨c.header p, [.number p.sequence, p.payloadArgument]⟩ := by
  have htotal := c.toNat_length_header h
  have hcount : (c.header p).argumentCount.toNat =
      [.number p.sequence, p.payloadArgument].length := rfl
  rw [message] at htotal ⊢
  simp only [Dlt.Message.read?, Dlt.Header.read?_append, bind, Option.bind]
  rw [if_neg (not_not_intro htotal)]
  simp only [Packet.readAll?_written h]
  rw [if_neg (not_not_intro hcount)]
  rfl

end Channel

end LogCourier
