import LogCourier.Proofs.Channel.Sending
import LogCourier.Proofs.Entry
import LogCourier.Proofs.Transfer.Fitting
import LogCourier.Settings

/-!
# Settings that make sense

Settings that make sense are a promise: **no packet is lost for being too long**. Whatever file is
asked for, whatever the system answers when it is opened and read, each packet of the transfer
becomes a message, and one datagram holds it.

There are three lengths that something could be too long for, each with its own limit: that of the
payload's argument, which counts a NUL if there is one; that of the message, which counts the
header; and that of a datagram. The last one is the least, and the one that
`LogCourier.Packet.maxPayload` is computed from, so the check of the settings sees to all three.
What the check cannot see is a notice, whose length nobody sets; for it there is
`LogCourier.Transfer.Failure.length_notice_le`.

The main statement is `LogCourier.Settings.framing_lossless`.
-/

namespace LogCourier

/-- **A packet as a channel frames it**: there are arguments and there is a header for them, both
lengths in it are the true ones, the whole is no longer than a datagram may be, and it is what is
handed to an outlet. -/
structure Channel.Framed (c : Channel) (p : Packet) (h : Dlt.Header) (arguments : Bytes) :
    Prop where
  /-- The packet has arguments. -/
  hasArguments : p.arguments = .ok arguments
  /-- There is a header for them. -/
  hasHeader : Dlt.Header.log c.counter arguments.length c.config.ecu p.timestamp p.content.level
    Packet.argumentCount p.appid p.ctxid = .ok h
  /-- Whatever was in a buffer, the arguments take its place. -/
  isFilling : ∀ buf, p.put buf = (.ok (), arguments)
  /-- So they do in the channel's. -/
  isFrame : c.frame p = (.ok h, { c with scratch := arguments })
  /-- The two are handed over, in two slices, after the wait that there is. -/
  isHanded : ∀ {σ : Type} (out : Outlet σ) (s : σ) (nanos : Nat),
    c.countBurst.delay? (out.now s) = some nanos →
    (c.send out p s).2.2 = (out.send [h.bytes, arguments] (await out nanos s)).2
  /-- The header tells how long the message is. -/
  messageLength : h.length.toNat = (h.bytes ++ arguments).length ∧
    ∃ front back, h.bytes = front ++ Bytes.be16 h.length ++ back ∧ front.length = 2
  /-- The argument tells how long the payload is, with a NUL behind it if it is text. -/
  payloadLength : ∃ front n, arguments = front ++ Bytes.le16 n ++ p.body ∧ front.length = 12 ∧
    n.toNat = p.body.length
  /-- A datagram has room for both. -/
  datagram : (h.bytes ++ arguments).length ≤ 65507

/-- A packet that is not too long is framed. -/
theorem Channel.framed (c : Channel) {p : Packet} (h : p.payload.length ≤ Packet.maxPayload) :
    c.Framed p (c.header p) p.written where
  hasArguments := Packet.arguments_eq h
  hasHeader := c.log_eq h
  isFilling := Packet.put_of_le h
  isFrame := c.frame_eq h
  isHanded out s nanos hdelay := by
    rcases c.send_cases out p s with ⟨hp, -⟩ | ⟨-, hnone, -⟩ | ⟨-, n, delivery, s', hn, hout, hsend⟩
    · exact absurd h (of_decide_eq_false hp)
    · exact absurd (hnone.symm.trans hdelay) (by simp)
    · obtain rfl := Option.some.inj (hn.symm.trans hdelay)
      rw [hsend, hout]
  messageLength := by
    obtain ⟨back, hback⟩ := (c.header p).exists_bytes_eq
    exact ⟨c.toNat_length_header h, _, back, hback, rfl⟩
  payloadLength := by
    refine ⟨Bytes.le32 Dlt.Argument.numberType ++ Bytes.le32 p.sequence ++
      Bytes.le32 p.payloadType, UInt16.ofNat p.body.length, ?_, rfl, ?_⟩
    · simp only [Packet.written, List.append_assoc]
    · have hmax : Packet.maxPayload = 65470 := rfl
      have hbody := p.length_body_le
      rw [UInt16.toNat_ofNat']
      omega
  datagram := by
    have hroom := (Packet.length_written_le h).2
    rw [List.length_append, Dlt.Header.length_bytes]
    exact hroom

namespace Settings

/-- Settings that make sense have chunks that fit a message. -/
theorem sizeFor_le_of_check {settings : Settings} (h : settings.check = .ok ()) :
    ChunkReader.sizeFor settings.pool.chunkSize ≤ Packet.maxPayload := by
  by_cases hsize : 1 ≤ settings.transfers.chunkSize.toNat ∧
      settings.transfers.chunkSize.toNat ≤ Packet.maxPayload
  · rw [ChunkReader.sizeFor]
    split
    · decide
    · exact hsize.2
  · simp [check, hsize] at h

/-- **With settings that make sense no packet is lost for being too long.**

Let the settings make sense and let an entry have been read from a record. Then, whatever a
transfer with these settings meets with – as long as no reading gives more than it was asked for,
which files do not (`LogCourier.Transfer.measures_site`), and the system is brief about its
errors – every packet that it hands over is framed by any channel, and dropped by none.

Of any packet it is true that it has arguments exactly if its payload is not too long, and that
there is a header for arguments that a packet has, whatever else is in it. So a channel drops what
has no arguments, and nothing else; and what it drops leaves no trace in its buffer. -/
theorem framing_lossless :
    (∀ (settings : Settings) (record : Bytes) (entry : Entry), settings.check = .ok () →
      Entry.decode record = .ok entry →
      ∀ {σ : Type} (around : Transfer.Surroundings σ) (n : Nat) (s : σ),
      let deeds :=
        ((Transfer.fresh entry settings.pool.chunkSize).run around.recorded n (s, [])).2.2
      Transfer.Measured deeds → Transfer.Brief deeds →
      ∀ p back, .handed p back ∈ deeds → ∀ c : Channel,
        (∃ h arguments, c.Framed p h arguments) ∧
        ∀ {τ : Type} (out : Channel.Outlet τ) (r : τ),
          (c.send out p r).2.1.stats.dropped = c.stats.dropped) ∧
    (∀ p : Packet,
      (∃ arguments, p.arguments = .ok arguments) ↔ p.payload.length ≤ Packet.maxPayload) ∧
    (∀ (p : Packet) (arguments : Bytes), p.arguments = .ok arguments →
      ∀ (counter : UInt8) (ecu : Id) (timestamp : UInt32) (level : Level) (argumentCount : UInt8)
        (appid ctxid : Id), ∃ h, Dlt.Header.log counter arguments.length ecu timestamp level
          argumentCount appid ctxid = .ok h) ∧
    ∀ (c c' : Channel) (p : Packet) (e : Dlt.TooLarge), c.frame p = (.error e, c') →
      p.arguments = .error e ∧ c' = c := by
  refine ⟨?_, ?_, ?_, ?_⟩
  · intro settings record entry hcheck hdecode σ around n s deeds hmeasured hbrief p back hp c
    have hle : p.payload.length ≤ Packet.maxPayload :=
      (Transfer.course_run around n (Transfer.fresh entry settings.pool.chunkSize) s).payload_le
        (Entry.length_fileName_le_of_decode hdecode) (sizeFor_le_of_check hcheck) hmeasured hbrief
        hp
    refine ⟨⟨_, _, c.framed hle⟩, fun out r => ?_⟩
    rw [c.dropped_send, if_pos hle]
  · intro p
    constructor
    · rintro ⟨arguments, harguments⟩
      exact (Packet.arguments_eq_ok_iff.mp harguments).1
    · exact fun hle => ⟨_, Packet.arguments_eq hle⟩
  · intro p arguments harguments counter ecu timestamp level argumentCount appid ctxid
    obtain ⟨hle, rfl⟩ := Packet.arguments_eq_ok_iff.mp harguments
    exact ⟨_, if_neg (Nat.not_lt.mpr (Packet.length_written_le hle).1)⟩
  · intro c c' p e hframe
    rcases Nat.lt_or_ge Packet.maxPayload p.payload.length with hlt | hle
    · rw [c.frame_of_lt hlt, Prod.mk.injEq, Except.error.injEq] at hframe
      exact ⟨(if_pos hlt).trans (congrArg _ hframe.1), hframe.2.symm⟩
    · rw [c.frame_eq hle] at hframe
      exact absurd hframe (by simp)

open Transfer in
/-- A byte is read, and then reading fails: the piece is framed, and so is the notice. -/
theorem framing_lossless_broken :
    let entry : Entry := ⟨Id.ecu1, Id.ft, "/f", true⟩
    let record : Bytes := [0x01, 0x45, 0x43, 0x55, 0x31, 0x46, 0x54, 0x00, 0x00, 0x01, 0x00, 0x02,
      0x2F, 0x66]
    let deeds := ((fresh entry Settings.default.pool.chunkSize).run Surroundings.scripted.recorded 6
      ([.data [7], .data [], .failed (.refused "gone")], [])).2.2
    Settings.default.check = .ok () ∧ Entry.decode record = .ok entry ∧ Measured deeds ∧
      Brief deeds ∧ (taken deeds).map Packet.content = [.info, .error] ∧
      ∀ p ∈ taken deeds, ∃ h arguments, (Channel.fresh .default).Framed p h arguments := by
  intro entry record deeds
  have hdeeds : deeds = [.opened "/f" 1024 .opened, .read 1024 (.data [7]), .read 1023 (.data []),
      .handed ⟨[7], .info, Id.ecu1, Id.ft, 0, 0⟩ true, .read 1024 (.failed (.refused "gone")),
      .handed ⟨Bytes.ofText (Failure.notice "/f" (.reading 1 (.refused "gone"))), .error,
        Id.ecu1, Id.ft, 1, 0⟩ true] := rfl
  have hcheck : Settings.default.check = .ok () := rfl
  have hdecode : Entry.decode record = .ok entry := rfl
  have hmeasured : Measured deeds :=
    measures_scripted.run 6 _ _ fun _ _ hmem => absurd hmem (by simp)
  have hbrief : Brief deeds := by
    rw [hdeeds]
    intro d hd e he
    simp only [List.mem_cons, List.not_mem_nil, or_false] at hd
    rcases hd with rfl | rfl | rfl | rfl | rfl | rfl <;>
      simp only [Deed.error?, Option.some.injEq, reduceCtorEq] at he
    rw [← he]
    exact (by decide : (Bytes.ofText "gone").length ≤ maxErrorLength)
  refine ⟨hcheck, hdecode, hmeasured, hbrief, by rw [hdeeds]; rfl, fun p hp => ?_⟩
  exact (framing_lossless.1 Settings.default record entry hcheck hdecode _ 6 _ hmeasured hbrief p
    true (mem_taken.mp hp) _).1

end Settings

end LogCourier
