import LogCourier.Proofs.Channel.Sending

/-!
# What a receiver learns

A receiver who knows the layout of messages, and nothing else, learns from a datagram all that was
put into it: which control unit sent it, under which number, and the whole packet – every field of
it (`LogCourier.Dlt.Message.packet?`). **So no two packets look alike on the wire**: a datagram is a
message of one unit, one number and one packet.

That the packet comes back whole is more than reading back what was written. A packet has a
content, and a message has none; it has a level in its header, and an argument of some type.
Either of them would tell the content, and a receiver who insists on both rejects what no packet
looks like.

* `LogCourier.Dlt.Header.Tells`: twenty-two bytes tell a receiver of a header;
* `LogCourier.Channel.Tells`: a datagram tells a receiver of a unit, a number and a packet;
* `LogCourier.Channel.receiving_exact`: headers do, messages do, and so a datagram has one meaning.
-/

namespace LogCourier

namespace Dlt

/-! ### Receivers -/

/-- The packet of that content in a message, its number and its payload being given. -/
def Message.packetOf (m : Message) (content : Packet.Content) (sequence : UInt32)
    (payload : Bytes) : Packet where
  payload := payload
  content := content
  appid := m.header.appid
  ctxid := m.header.ctxid
  sequence := sequence
  timestamp := m.header.timestamp

/-- **The packet that a message carries**, if it carries one: its level and the type of its second
argument say the same of the content. -/
def Message.packet? (m : Message) : Option Packet :=
  match m.header.level, m.arguments with
  | .info, [.number sequence, .raw payload] => some (m.packetOf .info sequence payload)
  | .error, [.number sequence, .text payload] => some (m.packetOf .error sequence payload)
  | _, _ => none

/-! ### Headers -/

/-- A receiver learns a header from its bytes alone. -/
structure Header.Tells (h : Header) (data : Bytes) : Prop where
  /-- There are twenty-two. -/
  size : data.length = 22
  /-- They are read as the header, with nothing left. -/
  read : Header.read? data = some (h, [])

theorem Header.tells_bytes (h : Header) : h.Tells h.bytes where
  size := h.length_bytes
  read := by
    have hread := h.read?_append []
    rwa [List.append_nil] at hread

/-- Arguments for which there is room have a header, and it tells their length. -/
theorem Header.exists_log (counter : UInt8) {payload : Nat} (h : payload ≤ maxPayload) (ecu : Id)
    (timestamp : UInt32) (level : Level) (argumentCount : UInt8) (appid ctxid : Id) :
    ∃ length, length.toNat = 22 + payload ∧
      log counter payload ecu timestamp level argumentCount appid ctxid =
        .ok ⟨counter, length, ecu, timestamp, level, argumentCount, appid, ctxid⟩ := by
  have hmax : maxPayload = 65513 := rfl
  refine ⟨UInt16.ofNat (size + payload), ?_, if_neg (Nat.not_lt.mpr h)⟩
  have hsize : size = 22 := rfl
  rw [UInt16.toNat_ofNat']
  omega

end Dlt

namespace Channel

/-! ### Messages -/

/-- **A receiver learns from a datagram** which message it is of that channel, and all of the
packet. -/
structure Tells (c : Channel) (p : Packet) (datagram : Bytes) : Prop where
  /-- The datagram is one message, to the last byte, and the message carries the packet under the
  channel's control unit and number. -/
  read : ∃ m, Dlt.Message.read? datagram = some m ∧ m.packet? = some p ∧
    m.header.ecu = c.config.ecu ∧ m.header.counter = c.counter ∧
    m.header.timestamp = p.timestamp ∧ m.header.level = p.content.level ∧
    m.header.appid = p.appid ∧ m.header.ctxid = p.ctxid ∧ m.header.argumentCount = 2
  /-- Its third and fourth byte are its length, the most significant byte first. -/
  length : ∃ front back n, datagram = front ++ Bytes.be16 n ++ back ∧ front.length = 2 ∧
    n.toNat = datagram.length

variable {c c' : Channel} {p p' : Packet}

theorem packet?_message (c : Channel) (p : Packet) :
    (Dlt.Message.mk (c.header p) [.number p.sequence, p.payloadArgument]).packet? = some p := by
  rcases p with ⟨payload, content, appid, ctxid, sequence, timestamp⟩
  cases content <;> rfl

theorem tells_message (c : Channel) (h : p.payload.length ≤ Packet.maxPayload) :
    c.Tells p (c.message p) where
  read := ⟨_, c.read?_message h, c.packet?_message p, rfl, rfl, rfl, rfl, rfl, rfl, rfl⟩
  length := by
    obtain ⟨back, hback⟩ := (c.header p).exists_bytes_eq
    refine ⟨[Dlt.Header.headerType, c.counter], back ++ p.written, (c.header p).length, ?_, rfl,
      c.toNat_length_header h⟩
    rw [message, hback, List.append_assoc]
    rfl

/-- **A datagram tells of one message only.** -/
theorem Tells.unique {datagram : Bytes} (h : c.Tells p datagram) (h' : c'.Tells p' datagram) :
    p = p' ∧ c.config.ecu = c'.config.ecu ∧ c.counter = c'.counter := by
  obtain ⟨m, hread, hpacket, hecu, hcounter, -⟩ := h.read
  obtain ⟨m', hread', hpacket', hecu', hcounter', -⟩ := h'.read
  -- there is one reader, so both see one message
  obtain rfl : m = m' := Option.some.inj (hread.symm.trans hread')
  exact ⟨Option.some.inj (hpacket.symm.trans hpacket'), hecu.symm.trans hecu',
    hcounter.symm.trans hcounter'⟩

/-- **A receiver learns exactly what was sent.**

Whatever the channel and the packet, as long as the payload is not too long: the packet becomes a
header of twenty-two bytes and arguments, which are all there is in the channel's buffer then; this
is the datagram that is handed to the outlet, and the datagram tells of the channel's unit and
number and of the whole packet. Whatever the fields of a header, as long as there is room for the
arguments: its bytes alone tell of all of them. And if what two channels make of two packets is the
same datagram, then the packets are the same, and so are the units and the numbers. -/
theorem receiving_exact :
    (∀ (c : Channel) (p : Packet), p.payload.length ≤ Packet.maxPayload →
      ∃ header arguments, c.frame p = (.ok header, { c with scratch := arguments }) ∧
        header.bytes.length = 22 ∧ c.Tells p (header.bytes ++ arguments) ∧
        ∀ {σ : Type} (out : Outlet σ) (s : σ) (sent : List Bytes),
          c.countBurst.delay? (out.now s) ≠ none →
          (c.send out.recorded p (s, sent)).2.2.2 = sent ++ [header.bytes ++ arguments]) ∧
    (∀ (counter : UInt8) (payload : Nat) (ecu : Id) (timestamp : UInt32) (level : Level)
      (argumentCount : UInt8) (appid ctxid : Id), payload ≤ Dlt.Header.maxPayload →
      ∃ h, Dlt.Header.log counter payload ecu timestamp level argumentCount appid ctxid = .ok h ∧
        h.Tells h.bytes ∧ h.counter = counter ∧ h.length.toNat = 22 + payload ∧ h.ecu = ecu ∧
        h.timestamp = timestamp ∧ h.level = level ∧ h.argumentCount = argumentCount ∧
        h.appid = appid ∧ h.ctxid = ctxid) ∧
    ∀ (c c' d d' : Channel) (p p' : Packet) (header header' : Dlt.Header),
      c.frame p = (.ok header, d) → c'.frame p' = (.ok header', d') →
      header.bytes ++ d.scratch = header'.bytes ++ d'.scratch →
      p = p' ∧ c.config.ecu = c'.config.ecu ∧ c.counter = c'.counter := by
  refine ⟨?_, ?_, ?_⟩
  · intro c p hle
    refine ⟨_, _, c.frame_eq hle, (c.header p).length_bytes, c.tells_message hle, ?_⟩
    intro σ out s sent htime
    rcases c.send_recorded_cases out hle s sent with ⟨hnone, -⟩ | ⟨_, _, _, -, -, hsend⟩
    · exact absurd hnone htime
    · rw [hsend]
      rfl
  · intro counter payload ecu timestamp level argumentCount appid ctxid hle
    obtain ⟨length, hlength, hlog⟩ :=
      Dlt.Header.exists_log counter hle ecu timestamp level argumentCount appid ctxid
    exact ⟨_, hlog, Dlt.Header.tells_bytes _, rfl, hlength, rfl, rfl, rfl, rfl, rfl, rfl⟩
  · intro c c' d d' p p' header header' hframe hframe' hsame
    obtain ⟨hle, rfl, rfl⟩ := frame_eq_ok_iff.mp hframe
    obtain ⟨hle', rfl, rfl⟩ := frame_eq_ok_iff.mp hframe'
    have htells : c.Tells p (c.message p) := c.tells_message hle
    have htells' : c'.Tells p' (c'.message p') := c'.tells_message hle'
    rw [show c.message p = c'.message p' from hsame] at htells
    exact htells.unique htells'

/-- A datagram of thirty-nine bytes tells of a piece of three, and one of thirty-eight tells of a
notice of one letter: its argument is text, and the length counts the NUL. -/
theorem receiving_exact_abc :
    let app : Id := ⟨[0x41, 0x50, 0x50, 0x31], by decide, by decide, by simp⟩
    let piece : Packet := ⟨[0x61, 0x62, 0x63], .info, app, Id.ft, 5, 100⟩
    let notice : Packet := ⟨[0x78], .error, app, Id.ft, 1, 100⟩
    (piece.payload.length ≤ Packet.maxPayload ∧ (fresh .default).Tells piece
      [0x35, 0x00, 0x00, 0x27, 0x45, 0x43, 0x55, 0x31, 0x00, 0x00, 0x00, 0x64, 0x41, 0x02,
        0x41, 0x50, 0x50, 0x31, 0x46, 0x54, 0x00, 0x00, 0x43, 0x00, 0x00, 0x00, 0x05, 0x00,
        0x00, 0x00, 0x00, 0x04, 0x00, 0x00, 0x03, 0x00, 0x61, 0x62, 0x63]) ∧
    notice.payload.length ≤ Packet.maxPayload ∧ { fresh .default with counter := 1 }.Tells notice
      [0x35, 0x01, 0x00, 0x26, 0x45, 0x43, 0x55, 0x31, 0x00, 0x00, 0x00, 0x64, 0x21, 0x02,
        0x41, 0x50, 0x50, 0x31, 0x46, 0x54, 0x00, 0x00, 0x43, 0x00, 0x00, 0x00, 0x01, 0x00,
        0x00, 0x00, 0x00, 0x82, 0x00, 0x00, 0x02, 0x00, 0x78, 0x00] := by
  intro app piece notice
  -- the datagram that is told of is the one that the channel makes
  have htells {c : Channel} {p : Packet} (hle : p.payload.length ≤ Packet.maxPayload)
      {datagram : Bytes} (hdatagram : c.message p = datagram) : c.Tells p datagram := by
    obtain ⟨header, arguments, hframe, -, htells, -⟩ := receiving_exact.1 c p hle
    obtain ⟨-, rfl, hfilled⟩ := frame_eq_ok_iff.mp hframe
    obtain rfl : arguments = p.written := congrArg scratch hfilled
    rw [← hdatagram]
    exact htells
  have hpiece : piece.payload.length ≤ Packet.maxPayload := by decide
  have hnotice : notice.payload.length ≤ Packet.maxPayload := by decide
  exact ⟨⟨hpiece, htells hpiece (by decide)⟩, hnotice, htells hnotice (by decide)⟩

end Channel

end LogCourier
