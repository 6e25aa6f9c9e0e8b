import LogCourier.Proofs.Channel.Counting

/-!
# How a channel paces its bursts

A packet that ends a burst is not handed over before a time has passed since the last datagram.
Which packets these are is told by a number of 32 bits, which counts the packets that fit a message
and begins again from zero (`LogCourier.Channel.EndsBurst`). What has to be seen is

* **that a burst never gets longer**, not even where the number begins again: zero ends a burst
  whatever its length is, so a burst that is cut off there is a short one
  (`LogCourier.Channel.exists_endsBurst`);
* that three things are kept up by different packets. A packet that is dropped changes none of
  them; **one that is thrown counts for its burst, but the time is still that of a datagram before
  it**; and any other changes both.

Whoever wants to know the times keeps them beside the outlet (`LogCourier.Channel.Outlet.timed`).
The channel then knows what the times say (`LogCourier.Channel.Watched`), and each datagram is
handed over as its place asks for (`LogCourier.Channel.Paced`).

The clock is never turned back, and a sleep takes at least as long as it was asked to
(`LogCourier.Channel.Outlet.Steady`). So if there is a time to wait until at the end of a run, there
has been one all along. The main statement is `LogCourier.Channel.pacing_exact`.
-/

namespace LogCourier.Channel

variable {σ : Type}

/-! ### Pauses and datagrams -/

/-- A pause: when it began, and how many nanoseconds were asked for. -/
structure Pause where
  /-- When it began. -/
  begun : Instant
  /-- The nanoseconds. -/
  nanos : Nat
  deriving DecidableEq

/-- **A datagram that was handed over**, and when. -/
structure Sending where
  /-- The pauses that were made for it. -/
  pauses : List Pause
  /-- When it was handed over. -/
  begun : Instant
  /-- What came of it. -/
  delivery : Delivery
  /-- When that was known. -/
  ended : Instant
  deriving DecidableEq

/-- When the outlet came back from a datagram, sent or not. It does not if it throws. -/
def Sending.returned? (x : Sending) : Option Instant :=
  if x.delivery.isThrown then none else some x.ended

/-- When the outlet last came back. -/
def lastReturned (sendings : List Sending) : Option Instant :=
  (sendings.filterMap Sending.returned?).getLast?

theorem lastReturned_concat (sendings : List Sending) (x : Sending) :
    lastReturned (sendings ++ [x]) = x.returned?.or (lastReturned sendings) := by
  rw [lastReturned, List.filterMap_append]
  cases h : x.returned? with
  | none =>
    rw [List.filterMap_cons_none h, List.filterMap_nil, List.append_nil]
    rfl
  | some t =>
    rw [List.filterMap_cons_some h, List.filterMap_nil, List.getLast?_concat]
    rfl

/-- **The same outlet, with the times of what it does**: the pauses that are for no datagram yet,
and the datagrams. -/
def Outlet.timed (out : Outlet σ) : Outlet (σ × List Pause × List Sending) where
  now := fun (s, _) => out.now s
  sleep nanos := fun (s, pauses, sendings) =>
    (out.sleep nanos s, pauses ++ [⟨out.now s, nanos⟩], sendings)
  send slices := fun (s, pauses, sendings) =>
    match out.send slices s with
    | (delivery, s') => (delivery, s', [], sendings ++ [⟨pauses, out.now s, delivery, out.now s'⟩])

theorem beside_timed (out : Outlet σ) : out.Beside out.timed :=
  ⟨fun _ => rfl, fun _ _ => rfl, fun _ _ => rfl⟩

/-! ### Bursts -/

/-- **Whether a packet ends a burst**, by its number among those that fit a message, counted from
one. Of the number 32 bits are kept. -/
def EndsBurst (config : Config) (number : Nat) : Prop :=
  0 < config.burstCount.toNat ∧ number % 4294967296 % config.burstCount.toNat = 0

instance (config : Config) (number : Nat) : Decidable (EndsBurst config number) :=
  inferInstanceAs (Decidable (_ ∧ _))

/-- Before the number begins again these are every so many packets. -/
theorem endsBurst_iff_dvd {config : Config} {number : Nat} (hcount : 0 < config.burstCount.toNat)
    (hnumber : number < 4294967296) :
    EndsBurst config number ↔ config.burstCount.toNat ∣ number := by
  rw [EndsBurst, Nat.mod_eq_of_lt hnumber, Nat.dvd_iff_mod_eq_zero]
  exact and_iff_right hcount

/-- **Of as many packets as make a burst one ends a burst**, wherever they begin. -/
theorem exists_endsBurst {config : Config} (hcount : 0 < config.burstCount.toNat) (start : Nat) :
    ∃ i < config.burstCount.toNat, EndsBurst config (start + i + 1) := by
  generalize hc : config.burstCount.toNat = count at hcount
  by_cases hwraps : 4294967296 - start % 4294967296 ≤ count
  -- the number begins again on the way, with zero
  · refine ⟨4294967296 - start % 4294967296 - 1, by omega, hc ▸ hcount, ?_⟩
    have hzero : (start + (4294967296 - start % 4294967296 - 1) + 1) % 4294967296 = 0 := by omega
    rw [hzero, Nat.zero_mod]
  -- it goes on to the next multiple
  · have hrest := Nat.mod_lt (start % 4294967296) hcount
    have hmultiple := Nat.div_add_mod (start % 4294967296) count
    refine ⟨count - 1 - start % 4294967296 % count, by omega, hc ▸ hcount, ?_⟩
    have hnumber : (start + (count - 1 - start % 4294967296 % count) + 1) % 4294967296 =
        count * (start % 4294967296 / count + 1) := by
      rw [Nat.mul_succ]
      omega
    rw [hnumber, hc, Nat.mul_mod_right]

/-- Three does not divide the numbers there are: where they begin again, one burst is of one
packet. -/
example : EndsBurst ⟨Id.ecu1, 3, 0⟩ 4294967295 ∧ EndsBurst ⟨Id.ecu1, 3, 0⟩ 4294967296 := by
  decide

/-- The wait of a packet, by its number: only the end of a burst waits. -/
theorem delay?_countBurst {c : Channel} {number : Nat} (h : c.burst = UInt32.ofNat number)
    (now : Instant) :
    c.countBurst.delay? now =
      if EndsBurst c.config (number + 1) then
        match c.lastSend with
        | none => some 0
        | some last => (last.later? c.config.burstInterval).map (·.since now)
      else some 0 := by
  have hburst : (c.burst + 1).toNat = (number + 1) % 4294967296 := by
    rw [h, UInt32.toNat_add, UInt32.toNat_ofNat']
    change (number % 4294967296 + 1) % 4294967296 = _
    omega
  have hends : EndsBurst c.config (number + 1) ↔
      ¬ (c.config.burstCount = 0 ∨ (c.burst + 1) % c.config.burstCount ≠ 0) := by
    rw [EndsBurst, ← hburst, ← UInt32.toNat_mod, not_or, Classical.not_not, Nat.pos_iff_ne_zero]
    exact and_congr (not_congr (UInt32.toNat_inj (b := 0))) (UInt32.toNat_inj (b := 0))
  rw [delay?]
  by_cases hend : EndsBurst c.config (number + 1)
  · rw [if_pos hend]
    exact if_neg (hends.mp hend)
  · rw [if_neg hend]
    exact if_pos (Classical.not_not.mp fun hnot => hend (hends.mpr hnot))

/-! ### The clock -/

/-- If the world goes on by itself, this does not turn the clock back either. -/
def Use.Onward (out : Outlet σ) : Use σ → Prop
  | .send _ | .emit _ => True
  | .pass go => ∀ s, (out.now s).nanos ≤ (out.now (go s)).nanos

section Clock

variable {out : Outlet σ}

theorem Outlet.Steady.use_le (h : out.Steady) {u : Use σ} (hu : u.Onward out) (c : Channel)
    (s : σ) : (out.now s).nanos ≤ (out.now (c.use out s u).2).nanos := by
  cases u with
  | send p | emit p => exact h.now_le (c.leads_send out p s)
  | pass go => exact hu s

/-- **Whatever happens, it does not get earlier.** -/
theorem Outlet.Steady.useAll_le (h : out.Steady) {uses : List (Use σ)}
    (huses : ∀ u ∈ uses, u.Onward out) (c : Channel) (s : σ) :
    (out.now s).nanos ≤ (out.now (c.useAll out uses s).2).nanos := by
  induction uses generalizing c s with
  | nil => exact Nat.le_refl _
  | cons u uses ih =>
    obtain ⟨hu, hrest⟩ := List.forall_mem_cons.mp huses
    exact Nat.le_trans (h.use_le hu c s) (ih hrest _ _)

end Clock

/-! ### What the times say -/

/-- **A datagram that keeps the pace**, with those before it. -/
structure Paced (config : Config) (before : List Sending) (x : Sending) : Prop where
  /-- There is a pause at the end of a burst only: one, up to the time when the interval has passed
  since the outlet last came back. So there is none if that is over already. -/
  pauses : x.pauses = [] ∨ EndsBurst config (before.length + 1) ∧ ∃ last pause,
    lastReturned before = some last ∧ x.pauses = [pause] ∧ 0 < pause.nanos ∧
    pause.nanos ≤ config.burstInterval ∧
    pause.begun.nanos + pause.nanos = last.nanos + config.burstInterval
  /-- At the end of a burst the interval has passed when it is handed over. -/
  rested : EndsBurst config (before.length + 1) → ∀ last, lastReturned before = some last →
    last.nanos + config.burstInterval ≤ x.begun.nanos

/-- **What a channel knows is what the times say**, and every datagram keeps the pace. -/
structure Watched (out : Outlet σ) (config : Config) (packets : List Packet) (c : Channel) (s : σ)
    (sendings : List Sending) : Prop where
  /-- The channel is set up as it was. -/
  config_eq : c.config = config
  /-- It has counted the datagrams. -/
  burst : c.burst = UInt32.ofNat sendings.length
  /-- It knows when the outlet last came back. -/
  lastSend : c.lastSend = lastReturned sendings
  /-- That is not in the future. -/
  past : ∀ last, c.lastSend = some last → last.nanos ≤ (out.now s).nanos
  /-- There is a datagram for each packet that fits a message. -/
  length_eq : sendings.length = packets.countP fits
  /-- All of them keep the pace. -/
  paced : ∀ k x, sendings[k]? = some x → Paced config (sendings.take k) x

/-- A datagram and its times, after a wait. -/
theorem send_await_timed (out : Outlet σ) (slices : List Bytes) (nanos : Nat) (s : σ)
    (sendings : List Sending) :
    out.timed.send slices (await out.timed nanos (s, [], sendings)) =
      ((out.send slices (await out nanos s)).1, (out.send slices (await out nanos s)).2, [],
        sendings ++ [{
          pauses := if nanos = 0 then [] else [⟨out.now s, nanos⟩]
          begun := out.now (await out nanos s)
          delivery := (out.send slices (await out nanos s)).1
          ended := out.now (out.send slices (await out nanos s)).2 }]) := by
  unfold await
  split <;> rfl

namespace Watched

variable {out : Outlet σ} {config : Config} {packets : List Packet} {c : Channel} {s : σ}
  {sendings : List Sending}

theorem fresh (out : Outlet σ) (config : Config) (s : σ) :
    Watched out config [] (Channel.fresh config) s [] :=
  ⟨rfl, rfl, rfl, fun _ h => absurd h (by simp [Channel.fresh]), rfl,
    fun _ _ h => absurd h (by simp)⟩

/-- What is in the buffer has nothing to do with it. -/
theorem refilled (h : Watched out config packets c s sendings) (buf : Bytes) :
    Watched out config packets (c.refilled buf) s sendings :=
  ⟨h.config_eq, h.burst, h.lastSend, h.past, h.length_eq, h.paced⟩

/-- A packet that fits no message changes nothing. -/
theorem drop (h : Watched out config packets c s sendings) {p : Packet} (hp : fits p = false) :
    Watched out config (packets ++ [p]) c.drop s sendings where
  config_eq := h.config_eq
  burst := h.burst
  lastSend := h.lastSend
  past := h.past
  length_eq := by
    rw [List.countP_append, List.countP_singleton, hp, ← h.length_eq]
    rfl
  paced := h.paced

/-- There is a time to wait until, if there is a time the interval later than now. -/
theorem delay?_ne_none (h : Watched out config packets c s sendings)
    (htime : (out.now s).nanos + config.burstInterval < Instant.limit) :
    c.countBurst.delay? (out.now s) ≠ none := by
  rw [delay?_countBurst h.burst, h.config_eq]
  split
  · cases hlast : c.lastSend with
    | none => simp
    | some last =>
      have hpast := h.past last hlast
      have hlater : last.later? config.burstInterval = some (last.later config.burstInterval) :=
        if_pos (by omega)
      simp only [hlater]
      simp
  · simp

/-- **The next datagram keeps the pace**, if the channel waits as long as it says. -/
theorem paced_next (h : Watched out config packets c s sendings) (hsteady : out.Steady)
    {nanos : Nat} (hdelay : c.countBurst.delay? (out.now s) = some nanos) (delivery : Delivery)
    (ended : Instant) :
    Paced config sendings {
      pauses := if nanos = 0 then [] else [⟨out.now s, nanos⟩]
      begun := out.now (await out nanos s)
      delivery
      ended } := by
  rw [delay?_countBurst h.burst, h.config_eq, h.lastSend] at hdelay
  split at hdelay
  · rename_i hends
    have hwaited := hsteady.await_le nanos s
    cases hlast : lastReturned sendings with
    | none =>
      rw [hlast] at hdelay
      obtain rfl := Option.some.inj hdelay
      exact ⟨.inl rfl, fun _ last hsome => absurd hsome (by simp [hlast])⟩
    | some last =>
      have hpast := h.past last (h.lastSend.trans hlast)
      rw [hlast] at hdelay
      obtain ⟨due, hlater, hsince⟩ := Option.map_eq_some_iff.mp hdelay
      obtain rfl : last.later config.burstInterval = due := by
        rw [Instant.later?] at hlater
        split at hlater
        · exact Option.some.inj hlater
        · exact absurd hlater (by simp)
      change last.nanos + config.burstInterval - (out.now s).nanos = nanos at hsince
      refine ⟨?_, fun _ last' hlast' => ?_⟩
      · by_cases hzero : nanos = 0
        · exact .inl (if_pos hzero)
        · refine .inr ⟨hends, last, ⟨out.now s, nanos⟩, hlast, if_neg hzero,
            Nat.pos_of_ne_zero hzero, ?_, ?_⟩
          · change nanos ≤ _
            omega
          · change (out.now s).nanos + nanos = _
            omega
      · obtain rfl : last = last' := Option.some.inj (hlast.symm.trans hlast')
        change _ ≤ (out.now (await out nanos s)).nanos
        omega
  · rename_i hnot
    obtain rfl := Option.some.inj hdelay
    exact ⟨.inl rfl, fun hends => absurd hends hnot⟩

/-- **A datagram that is handed over is counted for its burst**, and unless it is thrown the channel
knows when the outlet came back. -/
theorem settle (h : Watched out config packets c s sendings) {p : Packet} (hp : fits p = true)
    {x : Sending} (hpaced : Paced config sendings x) {s' : σ} (hended : x.ended = out.now s')
    (hle : (out.now s).nanos ≤ (out.now s').nanos) :
    Watched out config (packets ++ [p]) (c.countBurst.settle (out.now s') x.delivery) s'
      (sendings ++ [x]) where
  config_eq := by
    rw [← h.config_eq]
    cases x.delivery <;> rfl
  burst := by
    have hburst : (c.countBurst.settle (out.now s') x.delivery).burst = c.burst + 1 := by
      cases x.delivery <;> rfl
    rw [hburst, h.burst, List.length_append, UInt32.ofNat_add]
    rfl
  lastSend := by
    rw [lastReturned_concat, ← h.lastSend, Sending.returned?, hended]
    cases x.delivery <;> rfl
  past := by
    have hnow (last : Instant) (hlast : some (out.now s') = some last) :
        last.nanos ≤ (out.now s').nanos :=
      Nat.le_of_eq (congrArg Instant.nanos (Option.some.inj hlast).symm)
    cases x.delivery with
    | sent n => exact hnow
    | failed e => exact hnow
    | thrown => exact fun last hlast => Nat.le_trans (h.past last hlast) hle
  length_eq := by
    rw [List.countP_append, List.countP_singleton, hp, ← h.length_eq, List.length_append]
    rfl
  paced := by
    intro k y hk
    rcases getElem?_concat_cases hk with hold | ⟨rfl, rfl⟩
    · obtain ⟨hlt, -⟩ := List.getElem?_eq_some_iff.mp hold
      rw [List.take_append_of_le_length (Nat.le_of_lt hlt)]
      exact h.paced k y hold
    · rw [List.take_left]
      exact hpaced

/-- A packet, as long as there is a time to wait until: it is dropped, or there is a datagram
more. -/
theorem send (h : Watched out config packets c s sendings) (hsteady : out.Steady)
    (htime : (out.now s).nanos + config.burstInterval < Instant.limit) (p : Packet) :
    ∃ c' s' sendings', (c.send out.timed p (s, [], sendings)).2 = (c', s', [], sendings') ∧
      Watched out config (packets ++ [p]) c' s' sendings' := by
  rcases c.send_cases out.timed p (s, [], sendings) with
    ⟨hp, hsend⟩ | ⟨-, hdelay, -⟩ | ⟨hp, nanos, delivery, ⟨s', pending, sendings'⟩, hdelay, hout,
      hsend⟩
  · exact ⟨c.drop, s, sendings, by rw [hsend], h.drop hp⟩
  · exact absurd hdelay (h.delay?_ne_none htime)
  · rw [send_await_timed, Prod.mk.injEq, Prod.mk.injEq, Prod.mk.injEq] at hout
    obtain ⟨rfl, rfl, rfl, rfl⟩ := hout
    have hle : (out.now s).nanos ≤
        (out.now (out.send [(c.header p).bytes, p.written] (await out nanos s)).2).nanos :=
      hsteady.now_le (.send_await out _ nanos s)
    exact ⟨_, _, _, by rw [hsend]; rfl,
      (h.refilled p.written).settle hp (h.paced_next hsteady hdelay _ _) rfl hle⟩

/-- **Whatever happens to a channel**, as long as there is a time to wait until. -/
theorem use (h : Watched out config packets c s sendings) (hsteady : out.Steady)
    (htime : (out.now s).nanos + config.burstInterval < Instant.limit) {u : Use σ}
    (hu : u.Onward out) :
    ∃ c' s' sendings',
      c.use out.timed (s, [], sendings) (u.beside _) = (c', s', [], sendings') ∧
      Watched out config (packets ++ u.packet?.toList) c' s' sendings' := by
  cases u with
  | send p | emit p => exact h.send hsteady htime p
  | pass go =>
    refine ⟨c, go s, sendings, rfl, ?_⟩
    rw [Use.packet?, Option.toList_none, List.append_nil]
    exact ⟨h.config_eq, h.burst, h.lastSend,
      fun last hlast => Nat.le_trans (h.past last hlast) (hu s), h.length_eq, h.paced⟩

/-- **However often**, if there is one at the end. -/
theorem useAll (h : Watched out config packets c s sendings) (hsteady : out.Steady)
    {uses : List (Use σ)} (huses : ∀ u ∈ uses, u.Onward out)
    (htime : (out.now (c.useAll out uses s).2).nanos + config.burstInterval < Instant.limit) :
    ∃ c' s' sendings',
      c.useAll out.timed (uses.map (Use.beside _)) (s, [], sendings) = (c', s', [], sendings') ∧
      Watched out config (packets ++ given uses) c' s' sendings' := by
  induction uses generalizing packets c s sendings with
  | nil =>
    refine ⟨c, s, sendings, rfl, ?_⟩
    rw [given, List.filterMap_nil, List.append_nil]
    exact h
  | cons u uses ih =>
    obtain ⟨hu, hrest⟩ := List.forall_mem_cons.mp huses
    have hnow : (out.now s).nanos + config.burstInterval < Instant.limit := by
      have hle := hsteady.useAll_le huses c s
      omega
    obtain ⟨c', s', sendings', hstep, hwatched⟩ := h.use hsteady hnow hu
    have hplain := (beside_timed out).use_eq c (s, [], sendings) u
    rw [hstep] at hplain
    have htime' : (out.now (c'.useAll out uses s').2).nanos + config.burstInterval <
        Instant.limit := by
      rw [Channel.useAll, List.foldl_cons, ← hplain] at htime
      exact htime
    have hgiven : packets ++ given (u :: uses) = packets ++ u.packet?.toList ++ given uses := by
      rw [given, List.filterMap_cons, List.append_assoc]
      cases u.packet? <;> rfl
    rw [Channel.useAll, List.map_cons, List.foldl_cons, hstep, hgiven]
    exact ih hwatched hrest htime'

end Watched

/-- **A channel keeps the pace**, however long it runs, whatever it is given, and whatever the
outlet makes of the datagrams.

Let the clock never be turned back, let sleeps be long enough, and let there be a time the interval
later than any that the clock tells. The times change nothing, there is a datagram for each packet
that fits a message, and all pauses are made for one of these. A packet that fits no message changes
nothing but that it is counted as dropped.

* Without bursts there is no pause at all.
* Only the end of a burst is paused for, and only if the interval since the outlet last came back
  has not passed: then once, for what is left of it. So when the end of a burst is handed over the
  interval has passed (`LogCourier.Channel.Paced`).
* Of as many datagrams as make a burst one ends a burst, wherever they begin.
* As long as the number of the packets has not begun again, the ends of bursts are the multiples of
  a burst's length. -/
theorem pacing_exact {out : Outlet σ} (hsteady : out.Steady) (config : Config)
    {uses : List (Use σ)} (huses : ∀ u ∈ uses, u.Onward out) (s : σ)
    (htime : (out.now ((fresh config).useAll out uses s).2).nanos + config.burstInterval <
      Instant.limit) :
    let run := (fresh config).useAll out.timed (uses.map (Use.beside _)) (s, [], [])
    let sendings := run.2.2.2
    let count := config.burstCount.toNat
    (fresh config).useAll out uses s = (run.1, run.2.1) ∧
    (run.2.2.1 = [] ∧ sendings.length = ((given uses).filter fits).length ∧
      ∀ (u : Use σ) (p : Packet), u.packet? = some p → Packet.maxPayload < p.payload.length →
        run.1.use out.timed run.2 (u.beside _) = (run.1.drop, run.2)) ∧
    (count = 0 → ∀ x ∈ sendings, x.pauses = []) ∧
    (∀ k x, sendings[k]? = some x → Paced config (sendings.take k) x) ∧
    (0 < count → ∀ start, start + count ≤ sendings.length → ∃ i x, i < count ∧
      sendings[start + i]? = some x ∧ EndsBurst config (start + i + 1) ∧
      ∀ last, lastReturned (sendings.take (start + i)) = some last →
        last.nanos + config.burstInterval ≤ x.begun.nanos) ∧
    (0 < count → ∀ number < 4294967296, EndsBurst config number ↔ count ∣ number) := by
  intro run sendings count
  obtain ⟨c, s', all, hrun, hwatched⟩ :=
    (Watched.fresh out config s).useAll hsteady huses htime
  have hall : sendings = all := congrArg (·.2.2.2) hrun
  have hpaced : ∀ k x, sendings[k]? = some x → Paced config (sendings.take k) x :=
    hall ▸ hwatched.paced
  refine ⟨((beside_timed out).useAll_eq uses (fresh config) (s, [], [])).symm,
    ⟨congrArg (·.2.2.1) hrun, ?_, ?_⟩, ?_, hpaced, ?_,
    fun hcount number => endsBurst_iff_dvd hcount⟩
  · rw [hall, hwatched.length_eq]
    exact List.countP_eq_length_filter
  · intro u p hu hlong
    have hpacket : (u.beside (List Pause × List Sending)).packet? = some p := by
      cases u <;> exact hu
    rw [use_of_packet? hpacket]
    rcases run.1.send_cases out.timed p run.2 with ⟨-, hsend⟩ | ⟨hp, -⟩ | ⟨hp, -⟩
    · rw [hsend]
    · exact absurd (of_decide_eq_true hp) (Nat.not_le.mpr hlong)
    · exact absurd (of_decide_eq_true hp) (Nat.not_le.mpr hlong)
  · intro hnone x hx
    obtain ⟨k, hk⟩ := List.getElem?_of_mem hx
    rcases (hpaced k x hk).pauses with hpauses | ⟨hends, -⟩
    · exact hpauses
    · exact absurd hends.1 (Nat.not_lt.mpr (Nat.le_of_eq hnone))
  · intro hcount start hmany
    obtain ⟨i, hi, hends⟩ := exists_endsBurst hcount start
    have hlt : start + i < sendings.length := by omega
    have hget := List.getElem?_eq_getElem hlt
    have hlength : (sendings.take (start + i)).length = start + i := by
      rw [List.length_take]
      omega
    exact ⟨i, _, hi, hget, hends, (hpaced _ _ hget).rested (hlength.symm ▸ hends)⟩

theorem steady_ticking : ticking.Steady :=
  ⟨fun _ _ => Nat.le_refl _, fun _ _ => Nat.le_succ _⟩

/-- Bursts of two, ten nanoseconds apart. The second datagram waits for the first. It is thrown, and
so is the third; so the fourth goes by the first as well, and need not wait. The sixth comes
late. -/
theorem pacing_exact_ticking :
    let config : Config := ⟨Id.ecu1, 2, 10⟩
    let script : List Delivery := [.sent 38, .thrown, .thrown, .failed .notFound]
    let go : Nat × List Delivery → Nat × List Delivery := fun x => (x.1 + 20, x.2)
    let uses : List (Use (Nat × List Delivery)) :=
      [.send (packetOf 0), .emit (packetOf 1), .emit (packetOf 0), .emit (packetOf 0),
        .send (packetOf 0), .pass go, .send (packetOf 0)]
    let run := (fresh config).useAll ticking.timed (uses.map (Use.beside _)) ((0, script), [], [])
    ticking.Steady ∧ (∀ u ∈ uses, u.Onward ticking) ∧
    (ticking.now ((fresh config).useAll ticking uses (0, script)).2).nanos + config.burstInterval <
      Instant.limit ∧
    run.2.2.2.map (fun x => (x.pauses.map Pause.nanos, x.begun.nanos, x.ended.nanos)) =
      [([], 0, 1), ([10], 11, 12), ([], 12, 13), ([], 13, 14), ([], 14, 15), ([], 35, 36)] ∧
    ∀ k x, run.2.2.2[k]? = some x → Paced config (run.2.2.2.take k) x := by
  intro config script go uses run
  have hgo : Use.Onward ticking (.pass go) := fun x => Nat.le_add_right x.1 20
  have huses : ∀ u ∈ uses, u.Onward ticking := by
    intro u hu
    simp only [uses, List.mem_cons, List.not_mem_nil, or_false] at hu
    rcases hu with rfl | rfl | rfl | rfl | rfl | rfl | rfl
    all_goals trivial
  have htime : (ticking.now ((fresh config).useAll ticking uses (0, script)).2).nanos +
      config.burstInterval < Instant.limit := by decide
  have htimes : run.2.2.2.map (fun x => (x.pauses.map Pause.nanos, x.begun.nanos, x.ended.nanos)) =
      [([], 0, 1), ([10], 11, 12), ([], 12, 13), ([], 13, 14), ([], 14, 15), ([], 35, 36)] := by
    decide
  obtain ⟨-, -, -, hpaced, -⟩ := pacing_exact steady_ticking config huses (0, script) htime
  refine ⟨steady_ticking, huses, htime, htimes, ?_⟩
  unfold run
  exact hpaced

end LogCourier.Channel
