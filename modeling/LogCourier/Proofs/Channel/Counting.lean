import LogCourier.Proofs.Channel.Sending
import LogCourier.Proofs.Lists
import Mathlib.Algebra.GroupWithZero.Nat
import Mathlib.Data.List.Induction

/-!
# What a channel counts

Two things may be counted apart, what is asked of a channel (`LogCourier.Channel.Use`) and what
the outlet makes of it (`LogCourier.Channel.Outlet.noted`), and **what the channel has counted is
what the notes say** (`LogCourier.Channel.Counted`).

The number of a message is the one thing that later datagrams depend on. It counts the datagrams
that the outlet came back from, sent or not, and starts again after 256; a datagram that was thrown
has a number which the next one has as well. Of what else came before, a datagram shows nothing:
**it is a function of its packet, its control unit and its number** (`LogCourier.Channel.datagram`),
although its arguments are written into a buffer where those of other packets have been.

Between two packets the world may go on in any way, and the clock may be turned back. All that is
asked of it is about the run: that there is a time to wait until after each datagram that the
outlet came back from. The main statement is `LogCourier.Channel.counting_exact`.
-/

namespace LogCourier.Channel

variable {σ : Type}

/-! ### What a packet becomes -/

/-- **The datagram of a packet**, from that control unit under that number. -/
def datagram (ecu : Id) (counter : UInt8) (p : Packet) : Bytes :=
  Dlt.Header.bytes
    { counter
      length := UInt16.ofNat (Dlt.Header.size + p.written.length)
      ecu
      timestamp := p.timestamp
      level := p.content.level
      argumentCount := Packet.argumentCount
      appid := p.appid
      ctxid := p.ctxid } ++ p.written

/-- The message that a packet becomes next depends on no more than that. -/
theorem message_eq_datagram (c : Channel) (p : Packet) :
    c.message p = datagram c.config.ecu c.counter p :=
  rfl

/-- The number stands in the second byte. -/
theorem datagram_getElem?_one (ecu : Id) (counter : UInt8) (p : Packet) :
    (datagram ecu counter p)[1]? = some counter :=
  rfl

/-! ### What is asked of a channel -/

/-- Something that happens to a channel. -/
inductive Use (σ : Type)
  /-- A packet is sent, and somebody looks at the result. -/
  | send (p : Packet)
  /-- A packet is emitted, and nobody does. -/
  | emit (p : Packet)
  /-- No packet comes, and the world goes on by itself. -/
  | pass (go : σ → σ)

namespace Use

/-- The packet that the channel is given, if it is given one. -/
def packet? : Use σ → Option Packet
  | send p | emit p => some p
  | pass _ => none

/-- The same, in a world with something besides that stays as it is. -/
def beside (τ : Type) : Use σ → Use (σ × τ)
  | send p => send p
  | emit p => emit p
  | pass go => pass (Prod.map go id)

end Use

/-- The packets that a channel was given. -/
def given (uses : List (Use σ)) : List Packet :=
  uses.filterMap Use.packet?

/-- The channel and the world after something has happened. -/
def use (out : Outlet σ) (c : Channel) (s : σ) : Use σ → Channel × σ
  | .send p => (c.send out p s).2
  | .emit p => (c.emit out p s).2.2
  | .pass go => (c, go s)

/-- The channel and the world after some things have happened. -/
def useAll (out : Outlet σ) (uses : List (Use σ)) (c : Channel) (s : σ) : Channel × σ :=
  uses.foldl (fun x u => x.1.use out x.2 u) (c, s)

/-- The last thing comes after all the others. -/
theorem useAll_concat (out : Outlet σ) (uses : List (Use σ)) (u : Use σ) (c : Channel) (s : σ) :
    c.useAll out (uses ++ [u]) s =
      (c.useAll out uses s).1.use out (c.useAll out uses s).2 u := by
  rw [useAll, List.foldl_append]
  rfl

/-- It is all one to a channel whether anybody looks at the result. -/
theorem use_of_packet? {out : Outlet σ} {u : Use σ} {p : Packet} (h : u.packet? = some p)
    (c : Channel) (s : σ) : c.use out s u = (c.send out p s).2 := by
  cases u with
  | send q | emit q =>
    obtain rfl := Option.some.inj h
    rfl
  | pass go => exact absurd h (by simp [Use.packet?])

/-! ### Outlets with something beside them -/

/-- **An outlet with something beside it** that does not get in its way. -/
structure Outlet.Beside {τ : Type} (out : Outlet σ) (both : Outlet (σ × τ)) : Prop where
  /-- It has the same clock. -/
  now_eq : ∀ x, both.now x = out.now x.1
  /-- It sleeps as long. -/
  sleep_eq : ∀ nanos x, (both.sleep nanos x).1 = out.sleep nanos x.1
  /-- It makes the same of a datagram. -/
  send_eq : ∀ slices x,
    ((both.send slices x).1, (both.send slices x).2.1) = out.send slices x.1

namespace Outlet.Beside

variable {τ : Type} {out : Outlet σ} {both : Outlet (σ × τ)}

theorem await_eq (h : out.Beside both) (nanos : Nat) (x : σ × τ) :
    (await both nanos x).1 = await out nanos x.1 := by
  unfold await
  split
  · rfl
  · exact h.sleep_eq nanos x

/-- A channel does not notice. -/
theorem channelSend_eq (h : out.Beside both) (c : Channel) (p : Packet) (x : σ × τ) :
    ((c.send both p x).2.1, (c.send both p x).2.2.1) = (c.send out p x.1).2 := by
  simp only [Channel.send]
  rcases c.frame p with ⟨e | header, d⟩
  · rfl
  · simp only [h.now_eq]
    cases d.countBurst.delay? (out.now x.1) with
    | none => rfl
    | some nanos =>
      have hsend := h.send_eq [header.bytes, d.countBurst.scratch] (await both nanos x)
      rw [h.await_eq] at hsend
      rcases hboth : both.send [header.bytes, d.countBurst.scratch] (await both nanos x)
        with ⟨delivery, x'⟩
      rw [hboth] at hsend
      simp only [hboth, ← hsend]
      cases delivery <;> rfl

theorem use_eq (h : out.Beside both) (c : Channel) (x : σ × τ) (u : Use σ) :
    ((c.use both x (u.beside τ)).1, (c.use both x (u.beside τ)).2.1) = c.use out x.1 u := by
  cases u with
  | send p | emit p => exact h.channelSend_eq c p x
  | pass go => rfl

/-- **However much happens to it.** -/
theorem useAll_eq (h : out.Beside both) (uses : List (Use σ)) (c : Channel) (x : σ × τ) :
    ((c.useAll both (uses.map (Use.beside τ)) x).1,
      (c.useAll both (uses.map (Use.beside τ)) x).2.1) = c.useAll out uses x.1 := by
  induction uses generalizing c x with
  | nil => rfl
  | cons u uses ih =>
    have hstep := h.use_eq c x u
    rcases hu : c.use both x (u.beside τ) with ⟨c', x'⟩
    rw [hu] at hstep
    simp only [useAll, List.map_cons, List.foldl_cons, hu, ← hstep]
    exact ih c' x'

end Outlet.Beside

/-! ### What the outlet notes -/

/-- **A note of a datagram** that was handed to an outlet. -/
structure Note where
  /-- The datagram. -/
  bytes : Bytes
  /-- What came of it. -/
  delivery : Delivery
  /-- When that was known. -/
  ended : Instant
  deriving DecidableEq

/-- **The same outlet, with a note of each datagram** and of what came of it. -/
def Outlet.noted (out : Outlet σ) : Outlet (σ × List Note) where
  now := fun (s, _) => out.now s
  sleep nanos := fun (s, notes) => (out.sleep nanos s, notes)
  send slices := fun (s, notes) =>
    match out.send slices s with
    | (delivery, s) => (delivery, s, notes ++ [⟨slices.flatten, delivery, out.now s⟩])

theorem beside_noted (out : Outlet σ) : out.Beside out.noted :=
  ⟨fun _ => rfl, fun _ _ => rfl, fun _ _ => rfl⟩

/-- What is handed over is noted. -/
theorem send_await_noted (out : Outlet σ) (slices : List Bytes) (nanos : Nat) (s : σ)
    (notes : List Note) :
    out.noted.send slices (await out.noted nanos (s, notes)) =
      ((out.send slices (await out nanos s)).1, (out.send slices (await out nanos s)).2,
        notes ++ [⟨slices.flatten, (out.send slices (await out nanos s)).1,
          out.now (out.send slices (await out nanos s)).2⟩]) := by
  unfold await
  split <;> rfl

namespace Delivery

/-- Whether a datagram was sent. -/
def isSent : Delivery → Bool
  | .sent _ => true
  | .failed _ | .thrown => false

/-- Whether a datagram was not sent. -/
def isFailed : Delivery → Bool
  | .failed _ => true
  | .sent _ | .thrown => false

/-- Whether a datagram was thrown. -/
def isThrown : Delivery → Bool
  | .thrown => true
  | .sent _ | .failed _ => false

/-- The bytes that were reported as sent. -/
def reported : Delivery → Nat
  | .sent n => n
  | .failed _ | .thrown => 0

end Delivery

/-- The number that comes after some datagrams: those that were thrown do not count. -/
def numberAfter (notes : List Note) : UInt8 :=
  UInt8.ofNat (notes.countP fun note => !note.delivery.isThrown)

/-- **There is a time to wait until** after each datagram that the outlet came back from. -/
def TimeAfter (pause : Nat) (notes : List Note) : Prop :=
  ∀ note ∈ notes, note.delivery.isThrown = false → note.ended.nanos + pause < Instant.limit

instance (pause : Nat) (notes : List Note) : Decidable (TimeAfter pause notes) :=
  inferInstanceAs (Decidable (∀ note ∈ notes, _ → _))

/-- There was one after those before, then. -/
theorem TimeAfter.left {pause : Nat} {notes more : List Note}
    (h : TimeAfter pause (notes ++ more)) : TimeAfter pause notes :=
  fun note hmem => h note (List.mem_append_left more hmem)

/-- **The last time of a channel is on note**, as that of a datagram from which the outlet came
back. -/
def LastNoted (c : Channel) (notes : List Note) : Prop :=
  ∀ last, c.lastSend = some last →
    ∃ note ∈ notes, note.delivery.isThrown = false ∧ note.ended = last

namespace LastNoted

variable {c : Channel} {notes : List Note}

theorem fresh (config : Config) (notes : List Note) : (Channel.fresh config).LastNoted notes :=
  fun _ h => absurd h (by simp [Channel.fresh])

/-- **It stays so when a datagram more is on note**, as the outlet came back from it or not. -/
theorem settle (h : c.LastNoted notes) (bs : Bytes) (delivery : Delivery) (now : Instant) :
    (c.countBurst.settle now delivery).LastNoted (notes ++ [⟨bs, delivery, now⟩]) := by
  have hnew (d : Delivery) : ⟨bs, d, now⟩ ∈ notes ++ [⟨bs, d, now⟩] :=
    List.mem_append_right _ (List.mem_singleton.mpr rfl)
  intro last hlast
  cases delivery with
  | sent n => exact ⟨_, hnew _, rfl, Option.some.inj hlast⟩
  | failed e => exact ⟨_, hnew _, rfl, Option.some.inj hlast⟩
  | thrown =>
    obtain ⟨note, hmem, hnote⟩ := h last hlast
    exact ⟨note, List.mem_append_left _ hmem, hnote⟩

/-- If there is a time after each datagram, there is one to wait until. -/
theorem delay?_ne_none (h : c.LastNoted notes) (htime : TimeAfter c.config.burstInterval notes)
    (now : Instant) : c.countBurst.delay? now ≠ none := by
  rw [delay?, show c.countBurst.config = c.config from rfl]
  split
  · simp
  · cases hlast : c.countBurst.lastSend with
    | none => simp
    | some last =>
      obtain ⟨note, hmem, hthrown, rfl⟩ := h last hlast
      have hlater : note.ended.later? c.config.burstInterval =
          some (note.ended.later c.config.burstInterval) := if_pos (htime note hmem hthrown)
      simp only [hlater]
      simp

end LastNoted

/-! ### What the channel has counted -/

/-- **What a channel has counted is what the notes say**, and the datagrams noted are those of the
packets given that fit a message. -/
structure Counted (config : Config) (packets : List Packet) (c : Channel) (notes : List Note) :
    Prop where
  /-- The channel is set up as it was. -/
  config_eq : c.config = config
  /-- The datagrams sent. -/
  messages : c.stats.messages = notes.countP (·.delivery.isSent)
  /-- The datagrams not sent. -/
  sendFailures : c.stats.sendFailures = notes.countP (·.delivery.isFailed)
  /-- The packets that fit no message. -/
  dropped : c.stats.dropped = packets.countP fun p => !fits p
  /-- The bytes sent. -/
  bytes : c.stats.bytes = UInt64.ofNat (notes.map (·.delivery.reported)).sum
  /-- The next number. -/
  counter : c.counter = numberAfter notes
  /-- There is a note for each packet that fits a message. -/
  length_notes : notes.length = packets.countP fits
  /-- It has the datagram of that packet, under its number. -/
  noted : ∀ (k : Nat) (note : Note), notes[k]? = some note →
    ∃ p, (packets.filter fits)[k]? = some p ∧
      note.bytes = datagram config.ecu (numberAfter (notes.take k)) p
  /-- The last time is that of a datagram noted, from which the outlet came back. -/
  lastNoted : c.LastNoted notes

/-- A channel with something else in its buffer. -/
def refilled (c : Channel) (buf : Bytes) : Channel :=
  { c with scratch := buf }

namespace Counted

variable {config : Config} {packets : List Packet} {c : Channel} {notes : List Note}

theorem fresh (config : Config) : Counted config [] (Channel.fresh config) [] :=
  ⟨rfl, rfl, rfl, rfl, rfl, rfl, rfl, fun _ _ h => absurd h (by simp), .fresh config []⟩

/-- **Nothing that is counted depends on what is in the buffer.** -/
theorem refilled (h : Counted config packets c notes) (buf : Bytes) :
    Counted config packets (c.refilled buf) notes :=
  ⟨h.config_eq, h.messages, h.sendFailures, h.dropped, h.bytes, h.counter, h.length_notes, h.noted,
    h.lastNoted⟩

/-- A packet that fits no message is dropped, and that is all. -/
theorem drop (h : Counted config packets c notes) {p : Packet} (hp : fits p = false) :
    Counted config (packets ++ [p]) c.drop notes where
  config_eq := h.config_eq
  messages := h.messages
  sendFailures := h.sendFailures
  dropped := by
    rw [List.countP_append, List.countP_singleton, hp, ← h.dropped]
    rfl
  bytes := h.bytes
  counter := h.counter
  length_notes := by
    rw [List.countP_append, List.countP_singleton, hp, ← h.length_notes]
    rfl
  noted := by
    have hsame : (packets ++ [p]).filter fits = packets.filter fits := by
      rw [List.filter_append, List.filter_cons, hp]
      exact List.append_nil _
    rw [hsame]
    exact h.noted
  lastNoted := h.lastNoted

/-- **A datagram that is handed over is noted and counted.** -/
theorem settle (h : Counted config packets c notes) {p : Packet} (hp : fits p = true)
    (delivery : Delivery) (now : Instant) :
    Counted config (packets ++ [p]) (c.countBurst.settle now delivery)
      (notes ++ [⟨c.message p, delivery, now⟩]) where
  config_eq := by
    rw [← h.config_eq]
    cases delivery <;> rfl
  messages := by
    rw [List.countP_append, List.countP_singleton, ← h.messages]
    cases delivery <;> rfl
  sendFailures := by
    rw [List.countP_append, List.countP_singleton, ← h.sendFailures]
    cases delivery <;> rfl
  dropped := by
    rw [List.countP_append, List.countP_singleton, hp, ← h.dropped]
    cases delivery <;> rfl
  bytes := by
    rw [List.map_append, List.sum_append_nat, UInt64.ofNat_add, ← h.bytes]
    cases delivery <;> simp [Channel.settle, Delivery.reported, countSent, countFailure, advance,
      countBurst]
  counter := by
    rw [numberAfter, List.countP_append, List.countP_singleton, UInt8.ofNat_add]
    change _ = numberAfter notes + _
    rw [← h.counter]
    cases delivery <;> simp [Channel.settle, Delivery.isThrown, countSent, countFailure, advance,
      countBurst]
  length_notes := by
    rw [List.countP_append, List.countP_singleton, hp, ← h.length_notes, List.length_append]
    rfl
  noted := by
    have hplaces : (packets.filter fits).length = notes.length := by
      rw [h.length_notes, List.countP_eq_length_filter]
    rw [List.filter_append, List.filter_cons, hp]
    intro k note hk
    rcases getElem?_concat_cases hk with hold | ⟨rfl, rfl⟩
    · obtain ⟨hlt, -⟩ := List.getElem?_eq_some_iff.mp hold
      obtain ⟨q, hq, hnote⟩ := h.noted k note hold
      refine ⟨q, ?_, ?_⟩
      · rw [List.getElem?_append_left (by omega)]
        exact hq
      · rw [List.take_append_of_le_length (by omega)]
        exact hnote
    -- the last note has the last packet, under the number that was due
    · refine ⟨p, ?_, ?_⟩
      · rw [← hplaces]
        exact List.getElem?_concat_length
      · rw [List.take_left, message_eq_datagram, h.config_eq, h.counter]
  lastNoted := h.lastNoted.settle _ delivery now

/-! ### What a packet does to the notes -/

/-- **A packet is dropped or noted**, as long as there is a time to wait until. -/
theorem send_noted_cases (h : Counted config packets c notes)
    (htime : TimeAfter config.burstInterval notes) (out : Outlet σ) (p : Packet) (s : σ) :
    (fits p = false ∧ (c.send out.noted p (s, notes)).2 = (c.drop, s, notes)) ∨
    (fits p = true ∧ ∃ delivery s', (c.send out.noted p (s, notes)).2 =
      ((c.filled p).countBurst.settle (out.now s') delivery, s',
        notes ++ [⟨c.message p, delivery, out.now s'⟩])) := by
  rcases c.send_cases out.noted p (s, notes) with
    ⟨hp, hsend⟩ | ⟨-, hdelay, -⟩ | ⟨hp, nanos, delivery, ⟨s', notes'⟩, -, hout, hsend⟩
  · exact .inl ⟨hp, by rw [hsend]⟩
  · exact absurd hdelay (h.lastNoted.delay?_ne_none (h.config_eq ▸ htime) _)
  · refine .inr ⟨hp, delivery, s', ?_⟩
    simp only [send_await_noted, List.flatten_cons, List.flatten_nil, List.append_nil,
      Prod.mk.injEq] at hout
    obtain ⟨rfl, rfl, rfl⟩ := hout
    rw [hsend]
    rfl

end Counted

/-! ### One thing, and all things -/

/-- Notes change nothing. -/
theorem useAll_noted (out : Outlet σ) (uses : List (Use σ)) (c : Channel) (s : σ)
    (notes : List Note) :
    let run := c.useAll out.noted (uses.map (Use.beside _)) (s, notes)
    (run.1, run.2.1) = c.useAll out uses s :=
  (beside_noted out).useAll_eq uses c (s, notes)

/-- **A note stays**, whatever happens. -/
theorem notes_use (out : Outlet σ) (c : Channel) (x : σ × List Note) (u : Use σ) :
    ∃ more, (c.use out.noted x (u.beside _)).2.2 = x.2 ++ more := by
  cases u with
  | send p | emit p =>
    change ∃ more, (c.send out.noted p x).2.2.2 = x.2 ++ more
    rcases c.send_cases out.noted p x with ⟨-, hsend⟩ | ⟨-, -, hsend⟩ |
      ⟨-, nanos, delivery, x', -, hout, hsend⟩ <;> rw [hsend]
    · exact ⟨[], (List.append_nil _).symm⟩
    · exact ⟨[], (List.append_nil _).symm⟩
    · rw [show x = (x.1, x.2) from rfl, send_await_noted] at hout
      exact ⟨_, congrArg (fun y => y.2.2) hout.symm⟩
  | pass go => exact ⟨[], (List.append_nil _).symm⟩

namespace Counted

variable {config : Config} {packets : List Packet} {c : Channel} {notes : List Note}

/-- **Whatever happens to a channel, it has counted what the notes say.** -/
theorem use (h : Counted config packets c notes) (htime : TimeAfter config.burstInterval notes)
    (out : Outlet σ) (s : σ) (u : Use σ) :
    Counted config (packets ++ u.packet?.toList) (c.use out.noted (s, notes) (u.beside _)).1
      (c.use out.noted (s, notes) (u.beside _)).2.2 := by
  cases u with
  | send p | emit p =>
    change Counted config (packets ++ [p]) (c.send out.noted p (s, notes)).2.1
      (c.send out.noted p (s, notes)).2.2.2
    rcases h.send_noted_cases htime out p s with ⟨hp, hsend⟩ | ⟨hp, delivery, s', hsend⟩
    · rw [hsend]
      exact h.drop hp
    · rw [hsend]
      exact (h.refilled p.written).settle hp delivery _
  | pass go =>
    rw [Use.packet?, Option.toList_none, List.append_nil]
    exact h

/-- **However often**, by induction from behind: if there is time after the datagrams noted in the
end, there was time after those noted before. -/
theorem useAll (h : Counted config packets c notes) (out : Outlet σ) (uses : List (Use σ)) (s : σ)
    (htime : TimeAfter config.burstInterval
      (c.useAll out.noted (uses.map (Use.beside _)) (s, notes)).2.2) :
    let run := c.useAll out.noted (uses.map (Use.beside _)) (s, notes)
    Counted config (packets ++ given uses) run.1 run.2.2 := by
  induction uses using List.reverseRecOn with
  | nil =>
    rw [given, List.filterMap_nil, List.append_nil]
    exact h
  | append_singleton uses u ih =>
    rw [List.map_append, List.map_singleton, useAll_concat] at htime
    have hgiven : packets ++ given (uses ++ [u]) = packets ++ given uses ++ u.packet?.toList := by
      rw [given, List.filterMap_append, List.append_assoc]
      cases hu : u.packet? with
      | none => rw [List.filterMap_cons_none hu]; rfl
      | some p => rw [List.filterMap_cons_some hu]; rfl
    simp only [List.map_append, List.map_singleton, useAll_concat, hgiven]
    obtain ⟨more, hmore⟩ := notes_use out (c.useAll out.noted (uses.map (Use.beside _))
      (s, notes)).1 (c.useAll out.noted (uses.map (Use.beside _)) (s, notes)).2 u
    rw [hmore] at htime
    exact (ih htime.left).use htime.left out _ u

/-- A datagram was sent, or not sent, or thrown. -/
theorem length_notes_eq (h : Counted config packets c notes) :
    notes.length =
      c.stats.messages + c.stats.sendFailures + notes.countP (·.delivery.isThrown) := by
  rw [h.messages, h.sendFailures]
  clear h
  induction notes with
  | nil => rfl
  | cons note notes ih =>
    simp only [List.countP_cons, List.length_cons, ih]
    cases note.delivery <;> simp [Delivery.isSent, Delivery.isFailed, Delivery.isThrown] <;> omega

/-- The next number is that of the datagrams sent and not sent. -/
theorem counter_eq (h : Counted config packets c notes) :
    c.counter = UInt8.ofNat (c.stats.messages + c.stats.sendFailures) := by
  have hsplit := List.length_eq_countP_add_countP (fun note : Note => note.delivery.isThrown)
    (l := notes)
  have hlength := h.length_notes_eq
  rw [h.counter, numberAfter]
  refine congrArg UInt8.ofNat ?_
  simp only [Bool.not_eq_true, Bool.decide_eq_false] at hsplit
  omega

/-- Each packet was sent, or not sent, or dropped, or thrown. -/
theorem length_packets_eq (h : Counted config packets c notes) :
    packets.length = c.stats.messages + c.stats.sendFailures + c.stats.dropped +
      notes.countP (·.delivery.isThrown) := by
  have hsplit := List.length_eq_countP_add_countP fits (l := packets)
  have hlength := h.length_notes_eq
  have hfit := h.length_notes
  have hdropped := h.dropped
  simp only [Bool.not_eq_true, Bool.decide_eq_false] at hsplit
  omega

end Counted

/-- **A channel counts exactly**, whatever it is given, however the world goes on in between, and
whatever the outlet makes of the datagrams, as long as there is a time to wait until after those
that the outlet came back from. Notes of them change nothing, and

* each packet given was sent, or not sent, or dropped, or thrown; the channel has counted the first
  three apart, and the bytes that were reported as sent;
* there is a note for each packet that fits a message, and what was handed over is the datagram of
  that packet under its number, which is that of the datagrams before that were not thrown;
* a packet that fits no message is counted as dropped: nothing else changes, and nothing is handed
  over. Any other is handed over once, under the number of datagrams counted so far, which its
  second byte tells. Neither depends on what is in the channel's buffer: filled with anything else
  it makes no difference to the datagram. -/
theorem counting_exact (out : Outlet σ) (config : Config) (uses : List (Use σ)) (s : σ)
    (htime : TimeAfter config.burstInterval
      ((fresh config).useAll out.noted (uses.map (Use.beside _)) (s, [])).2.2) :
    let run := (fresh config).useAll out.noted (uses.map (Use.beside _)) (s, [])
    let stats := run.1.stats
    let notes := run.2.2
    let packets := given uses
    (fresh config).useAll out uses s = (run.1, run.2.1) ∧
    (packets.length = stats.messages + stats.sendFailures + stats.dropped +
        notes.countP (·.delivery.isThrown) ∧
      stats.messages = notes.countP (·.delivery.isSent) ∧
      stats.sendFailures = notes.countP (·.delivery.isFailed) ∧
      stats.dropped = packets.countP (fun p => !fits p) ∧
      stats.bytes = UInt64.ofNat (notes.map (·.delivery.reported)).sum) ∧
    (notes.length = (packets.filter fits).length ∧
      ∀ (k : Nat) (note : Note), notes[k]? = some note →
        ∃ p, (packets.filter fits)[k]? = some p ∧
          note.bytes = datagram config.ecu (numberAfter (notes.take k)) p) ∧
    ∀ (u : Use σ) (p : Packet) (buf : Bytes), u.packet? = some p →
      let now := run.1.refilled buf
      let next := now.use out.noted run.2 (u.beside _)
      (Packet.maxPayload < p.payload.length → next = (now.drop, run.2)) ∧
      (p.payload.length ≤ Packet.maxPayload → ∃ bs delivery ended,
        next.2.2 = notes ++ [⟨bs, delivery, ended⟩] ∧
        bs = datagram config.ecu (UInt8.ofNat (stats.messages + stats.sendFailures)) p ∧
        bs[1]? = some (UInt8.ofNat (stats.messages + stats.sendFailures))) := by
  intro run stats notes packets
  have hcounted : Counted config packets run.1 notes :=
    (Counted.fresh config).useAll out uses s htime
  refine ⟨(useAll_noted out uses (fresh config) s []).symm,
    ⟨hcounted.length_packets_eq, hcounted.messages, hcounted.sendFailures, hcounted.dropped,
      hcounted.bytes⟩,
    ⟨hcounted.length_notes.trans List.countP_eq_length_filter, hcounted.noted⟩, ?_⟩
  intro u p buf hu now next
  have hnow : Counted config packets now notes := hcounted.refilled buf
  have hpacket : (u.beside (List Note)).packet? = some p := by
    cases u <;> exact hu
  have hnext : next = (now.send out.noted p (run.2.1, notes)).2 := use_of_packet? hpacket _ _
  rcases hnow.send_noted_cases htime out p run.2.1 with ⟨hp, hsend⟩ | ⟨hp, delivery, s', hsend⟩
  · exact ⟨fun _ => hnext.trans hsend, fun hle => absurd hle (of_decide_eq_false hp)⟩
  · refine ⟨fun hlt => absurd (of_decide_eq_true hp) (Nat.not_le.mpr hlt), fun _ => ?_⟩
    have hnumber : now.message p =
        datagram config.ecu (UInt8.ofNat (stats.messages + stats.sendFailures)) p := by
      rw [message_eq_datagram, hnow.config_eq, hnow.counter_eq]
      rfl
    refine ⟨now.message p, delivery, out.now s', ?_, hnumber, ?_⟩
    · rw [hnext, hsend]
    · rw [hnumber, datagram_getElem?_one]

/-- An outlet that does what is written down, and sends whatever comes after. Its clock goes on by
what is slept and by one for each datagram. -/
def ticking : Outlet (Nat × List Delivery) where
  now := fun (t, _) => ⟨t⟩
  sleep nanos := fun (t, script) => (t + nanos, script)
  send slices := fun (t, script) =>
    (script.headD (.sent slices.flatten.length), t + 1, script.tail)

/-- A packet of so many bytes. -/
def packetOf (length : Nat) : Packet where
  payload := List.replicate length 0
  content := .info
  appid := Id.ecu1
  ctxid := Id.ecu1
  sequence := 0
  timestamp := 0

/-- One datagram is sent, one is not, and one is thrown; the second comes late, and the third waits
for it. Then comes a packet that fits no message. -/
theorem counting_exact_scripted :
    let config : Config := ⟨Id.ecu1, 1, 10⟩
    let uses : List (Use (Nat × List Delivery)) :=
      [.send (packetOf 2), .pass fun x => (x.1 + 20, x.2), .emit (packetOf 1), .send (packetOf 0)]
    let run := (fresh config).useAll ticking.noted (uses.map (Use.beside _))
      ((0, [.sent 38, .failed .notFound, .thrown]), [])
    TimeAfter config.burstInterval run.2.2 ∧
    run.1.stats = { messages := 1, bytes := 38, sendFailures := 1, dropped := 0 } ∧
    run.2.2.map (fun note => (note.delivery, note.ended.nanos)) =
      [(.sent 38, 1), (.failed .notFound, 22), (.thrown, 33)] ∧
    ∀ buf, (run.1.refilled buf).use ticking.noted run.2 (Use.beside _ (.emit (packetOf 65471))) =
      ((run.1.refilled buf).drop, run.2) := by
  intro config uses run
  have htime : TimeAfter config.burstInterval run.2.2 := by decide
  have hstats : run.1.stats = { messages := 1, bytes := 38, sendFailures := 1, dropped := 0 } := by
    decide
  have hnotes : run.2.2.map (fun note => (note.delivery, note.ended.nanos)) =
      [(.sent 38, 1), (.failed .notFound, 22), (.thrown, 33)] := by decide
  have hlong : Packet.maxPayload < (packetOf 65471).payload.length := by
    rw [packetOf, List.length_replicate]
    decide
  obtain ⟨-, -, -, hnext⟩ := counting_exact ticking config uses _ htime
  exact ⟨htime, hstats, hnotes,
    fun buf => (hnext (.emit (packetOf 65471)) (packetOf 65471) buf rfl).1 hlong⟩

end LogCourier.Channel
