import LogCourier.Proofs.Channel.Framing
import LogCourier.Proofs.Channel.Time

/-!
# What a channel sends

A packet can leave a channel in five ways: it fits no message; there is no time to wait until; and
what is handed to the outlet is sent, or not sent, or thrown. Each of these changes some of what the
channel keeps and leaves the rest alone, and only the last three hand anything over
(`LogCourier.Channel.send_cases`). What is handed over are two slices, the header and what is in the
channel's buffer.

Whoever wants to know which datagrams a channel sends keeps a record of them beside its outlet
(`LogCourier.Channel.Outlet.recorded`). Handing over a packet that fits a message, to a channel
whose outlet sends whatever it gets, then has one of two outcomes
(`LogCourier.Channel.emit_cases`): **a message goes out that carries the packet and the next
number**, or the channel throws because there is no time to wait until, and nothing goes out.
-/

namespace LogCourier

/-- What a receiver sees of a packet: its identifiers and its arguments. -/
def Packet.shown (p : Packet) : Id × Id × List Dlt.Argument :=
  (p.appid, p.ctxid, [.number p.sequence, p.payloadArgument])

/-- What a receiver sees of a message, but for its number and its time. -/
def Dlt.Message.shown (m : Dlt.Message) : Id × Id × List Dlt.Argument :=
  (m.header.appid, m.header.ctxid, m.arguments)

namespace Channel

variable {σ : Type}

/-! ### What becomes of a packet -/

/-- Whether a packet fits a message. -/
def fits (p : Packet) : Bool :=
  p.payload.length ≤ Packet.maxPayload

/-- What the channel makes of what came of a datagram. -/
def Delivery.outcome : Delivery → Outcome
  | .sent n => .sent n
  | .failed e => .error (.io e)
  | .thrown => .thrown

/-- The channel when it knows what came of a datagram, and when. -/
def settle (c : Channel) (now : Instant) : Delivery → Channel
  | .sent n => (c.advance now).countSent n
  | .failed _ => (c.advance now).countFailure
  | .thrown => c

/-- **What becomes of a packet**: it is dropped; or there is no time to wait until; or its datagram
is handed over after the wait, and what came of that is counted. -/
theorem send_cases (out : Outlet σ) (c : Channel) (p : Packet) (s : σ) :
    (fits p = false ∧ c.send out p s = (.error (.tooLarge ⟨p.payload.length⟩), c.drop, s)) ∨
    (fits p = true ∧ c.countBurst.delay? (out.now s) = none ∧
      c.send out p s = (.thrown, (c.filled p).countBurst, s)) ∨
    (fits p = true ∧ ∃ nanos delivery s', c.countBurst.delay? (out.now s) = some nanos ∧
      out.send [(c.header p).bytes, p.written] (await out nanos s) = (delivery, s') ∧
      c.send out p s =
        (delivery.outcome, (c.filled p).countBurst.settle (out.now s') delivery, s')) := by
  rcases Nat.lt_or_ge Packet.maxPayload p.payload.length with hlt | hle
  · refine Or.inl ⟨decide_eq_false (Nat.not_le.mpr hlt), ?_⟩
    simp only [send, c.frame_of_lt hlt]
  -- the wait does not depend on what is in the buffer
  have hsame : (c.filled p).countBurst.delay? (out.now s) = c.countBurst.delay? (out.now s) := rfl
  right
  cases hdelay : c.countBurst.delay? (out.now s) with
  | none =>
    refine Or.inl ⟨decide_eq_true hle, rfl, ?_⟩
    simp only [send, c.frame_eq hle, hsame, hdelay]
  | some nanos =>
    rcases hsend : out.send [(c.header p).bytes, p.written] (await out nanos s)
      with ⟨delivery, s'⟩
    refine Or.inr ⟨decide_eq_true hle, nanos, delivery, s', rfl, hsend, ?_⟩
    have hslices : out.send [(c.header p).bytes, (c.filled p).countBurst.scratch]
        (await out nanos s) = (delivery, s') := hsend
    simp only [send, c.frame_eq hle, hsame, hdelay, hslices]
    cases delivery <;> rfl

/-- **A channel drops a packet that is too long, and no other.** -/
theorem dropped_send (out : Outlet σ) (c : Channel) (p : Packet) (s : σ) :
    (c.send out p s).2.1.stats.dropped =
      if p.payload.length ≤ Packet.maxPayload then c.stats.dropped else c.stats.dropped + 1 := by
  rcases c.send_cases out p s with ⟨hp, hsend⟩ | ⟨hp, -, hsend⟩ |
    ⟨hp, nanos, delivery, s', -, -, hsend⟩ <;> rw [hsend]
  · rw [if_neg (of_decide_eq_false hp)]
    rfl
  · rw [if_pos (of_decide_eq_true hp)]
    rfl
  · rw [if_pos (of_decide_eq_true hp)]
    cases delivery <;> rfl

/-- All that a packet changes about the outlet comes of waiting and sending. -/
theorem leads_send (out : Outlet σ) (c : Channel) (p : Packet) (s : σ) :
    out.Leads s (c.send out p s).2.2 := by
  rcases c.send_cases out p s with ⟨-, hsend⟩ | ⟨-, -, hsend⟩ |
    ⟨-, nanos, delivery, s', -, hout, hsend⟩ <;> rw [hsend]
  · exact .refl out s
  · exact .refl out s
  · have hleads := Outlet.Leads.send_await out [(c.header p).bytes, p.written] nanos s
    rw [hout] at hleads
    exact hleads

/-! ### On record -/

/-- **The same outlet, with a record of the datagrams** handed to it. -/
def Outlet.recorded (out : Outlet σ) : Outlet (σ × List Bytes) where
  now := fun (s, _) => out.now s
  sleep nanos := fun (s, sent) => (out.sleep nanos s, sent)
  send slices := fun (s, sent) =>
    match out.send slices s with
    | (delivery, s) => (delivery, s, sent ++ [slices.flatten])

/-- An outlet that sends whatever it gets. -/
def Outlet.Sends (out : Outlet σ) : Prop :=
  ∀ slices s, ∃ n, (out.send slices s).1 = .sent n

/-- What is handed over goes on record, and else a record changes nothing. -/
theorem send_await_recorded (out : Outlet σ) (slices : List Bytes) (nanos : Nat) (s : σ)
    (sent : List Bytes) :
    out.recorded.send slices (await out.recorded nanos (s, sent)) =
      ((out.send slices (await out nanos s)).1, (out.send slices (await out nanos s)).2,
        sent ++ [slices.flatten]) := by
  unfold await
  split <;> rfl

/-- **What becomes of a packet that fits is on record**: nothing if there is no time to wait until,
and else its message, whatever comes of sending it. -/
theorem send_recorded_cases (out : Outlet σ) (c : Channel) {p : Packet}
    (h : p.payload.length ≤ Packet.maxPayload) (s : σ) (sent : List Bytes) :
    (c.countBurst.delay? (out.now s) = none ∧
      c.send out.recorded p (s, sent) = (.thrown, (c.filled p).countBurst, s, sent)) ∨
    ∃ nanos delivery s', c.countBurst.delay? (out.now s) = some nanos ∧
      out.send [(c.header p).bytes, p.written] (await out nanos s) = (delivery, s') ∧
      c.send out.recorded p (s, sent) = (delivery.outcome,
        (c.filled p).countBurst.settle (out.now s') delivery, s', sent ++ [c.message p]) := by
  rcases c.send_cases out.recorded p (s, sent) with ⟨hp, -⟩ | ⟨-, hdelay, hsend⟩ |
    ⟨-, nanos, delivery, ⟨s', sent'⟩, hdelay, hout, hsend⟩
  · exact absurd h (of_decide_eq_false hp)
  · exact .inl ⟨hdelay, hsend⟩
  · rw [send_await_recorded, Prod.mk.injEq, Prod.mk.injEq] at hout
    obtain ⟨rfl, rfl, rfl⟩ := hout
    refine .inr ⟨nanos, _, _, hdelay, rfl, hsend.trans ?_⟩
    rw [List.flatten_cons, List.flatten_cons, List.flatten_nil, List.append_nil, message]
    rfl

/-- **Handing over a packet that fits**: a message goes out that carries it and the next number,
or the channel throws and nothing goes out. -/
theorem emit_cases {out : Outlet σ} (hsends : out.Sends) (c : Channel) {p : Packet}
    (h : p.payload.length ≤ Packet.maxPayload) (s : σ) (sent : List Bytes) :
    (∃ c' s' datagram m,
      c.emit out.recorded p (s, sent) = (true, [], c', s', sent ++ [datagram]) ∧
      Dlt.Message.read? datagram = some m ∧ m.header.counter = c.counter ∧ m.shown = p.shown ∧
      c'.counter = c.counter + 1 ∧ c'.config = c.config ∧
      c'.lastSend = some (out.now s') ∧ out.Leads s s') ∨
    (∃ c', c.emit out.recorded p (s, sent) = (false, [], c', s, sent) ∧
      c'.counter = c.counter ∧ c'.config = c.config ∧ c'.lastSend = c.lastSend ∧
      c.countBurst.delay? (out.now s) = none) := by
  rcases c.send_recorded_cases out h s sent with ⟨hdelay, hsend⟩ |
    ⟨nanos, delivery, s', -, hout, hsend⟩
  · right
    refine ⟨(c.filled p).countBurst, ?_, rfl, rfl, rfl, hdelay⟩
    rw [emit, hsend]
    rfl
  · left
    obtain ⟨n, hn⟩ := hsends [(c.header p).bytes, p.written] (await out nanos s)
    have hleads := Outlet.Leads.send_await out [(c.header p).bytes, p.written] nanos s
    rw [hout] at hn hleads
    obtain rfl : delivery = .sent n := hn
    refine ⟨((c.filled p).countBurst.advance (out.now s')).countSent n, s', c.message p, _, ?_,
      c.read?_message h, rfl, rfl, rfl, rfl, rfl, hleads⟩
    rw [emit, hsend]
    rfl

/-! ### The time of the last datagram -/

/-- **A channel whose last datagram was sent at a time that the clock told**, on the way to where
the outlet is now. -/
def Timely (out : Outlet σ) (c : Channel) (s : σ) : Prop :=
  ∀ last, c.lastSend = some last → ∃ s₀, out.Leads s₀ s ∧ last = out.now s₀

namespace Timely

variable {out : Outlet σ} {c : Channel} {s : σ}

theorem fresh (out : Outlet σ) (config : Config) (s : σ) : Timely out (fresh config) s :=
  fun _ h => absurd h (by simp [Channel.fresh])

/-- Sending nothing changes nothing about that, wherever the outlet goes. -/
theorem of_leads (h : Timely out c s) {c' : Channel} (hlast : c'.lastSend = c.lastSend) {s' : σ}
    (hleads : out.Leads s s') : Timely out c' s' := by
  intro last hc'
  obtain ⟨s₀, hbefore, htime⟩ := h last (hlast.symm.trans hc')
  exact ⟨s₀, hbefore.trans hleads, htime⟩

/-- If the clock has had time enough, there is a time to wait until. -/
theorem delay?_ne_none (h : Timely out c s) (htime : out.HadTime c.config.burstInterval s)
    (now : Instant) : c.countBurst.delay? now ≠ none := by
  unfold delay?
  split
  · simp
  · cases hlast : c.countBurst.lastSend with
    | none => simp
    | some last =>
      obtain ⟨s₀, hbefore, rfl⟩ := h last hlast
      have hlater : (out.now s₀).later? c.config.burstInterval =
          some ((out.now s₀).later c.config.burstInterval) := if_pos (htime s₀ hbefore)
      simp only [show c.countBurst.config = c.config from rfl, hlater]
      simp

end Timely

end Channel

end LogCourier
