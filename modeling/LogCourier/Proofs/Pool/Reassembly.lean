import LogCourier.Dlt.Message
import LogCourier.Proofs.Pool.Ledger
import LogCourier.Proofs.Settings

/-!
# Putting files together again

A receiver that gets the datagrams of a courier in the order in which they were sent can put
together each file that was carried: it reads the messages, keeps those that name the
application and the context of the transfer, and joins the raw bytes in them.

For one transfer by itself that would follow from what it hands over. Here transfers share the
channel, and their packets come in whatever order. What has to be seen is that **the messages a
receiver keeps are the packets of that one transfer, in their order**
(`LogCourier.Hall.Ledger.shown_messagesFrom`), and that is so because a packet names its
transfer and no two transfers have the same name. Everything else is known from the lane of the
transfer.

The main statement is `LogCourier.Hall.reassembly`.
-/

namespace LogCourier

open Transfer

/-! ### Receivers -/

namespace Dlt

/-- The raw bytes of an argument, if it has any. -/
def Argument.rawBytes : Argument → Bytes
  | .raw data => data
  | .number _ | .text _ => []

/-- The text of an argument, if it is one. -/
def Argument.texts : Argument → List Bytes
  | .text data => [data]
  | .number _ | .raw _ => []

/-- The raw bytes in a message. -/
def Message.rawBytes (m : Message) : Bytes :=
  m.arguments.flatMap Argument.rawBytes

/-- The texts in a message. -/
def Message.texts (m : Message) : List Bytes :=
  m.arguments.flatMap Argument.texts

/-- Whether a message names that application and that context. -/
def Message.isFrom (appid ctxid : Id) (m : Message) : Bool :=
  m.header.appid = appid ∧ m.header.ctxid = ctxid

/-- The same of what is shown of a message. -/
def shownFrom (appid ctxid : Id) (x : Id × Id × List Argument) : Bool :=
  x.1 = appid ∧ x.2.1 = ctxid

/-- **The messages in some datagrams that name an application and a context.** -/
def messagesFrom (appid ctxid : Id) (datagrams : List Bytes) : List Message :=
  (datagrams.filterMap Message.read?).filter (Message.isFrom appid ctxid)

/-- A message that shows a packet has its text, if the packet is a notice. -/
theorem Message.texts_of_shown {m : Message} {p : Packet} (h : m.shown = p.shown) :
    m.texts = if p.content = .error then [p.payload] else [] := by
  have harguments : m.arguments = [.number p.sequence, p.payloadArgument] :=
    congrArg (fun x => x.2.2) h
  rw [texts, harguments]
  cases hcontent : p.content <;> simp [Packet.payloadArgument, hcontent, Argument.texts]

/-- A message that shows a packet has its bytes, if the packet is a piece of the file. -/
theorem Message.rawBytes_of_shown {m : Message} {p : Packet} (h : m.shown = p.shown) :
    m.rawBytes = content [p] := by
  have harguments : m.arguments = [.number p.sequence, p.payloadArgument] :=
    congrArg (fun x => x.2.2) h
  rw [rawBytes, harguments]
  cases hcontent : p.content <;>
    simp [Packet.payloadArgument, hcontent, Argument.rawBytes, content]

/-- Messages that show some packets have their bytes. -/
theorem flatMap_rawBytes_of_shown {ms : List Message} {ps : List Packet}
    (h : ms.map Message.shown = ps.map Packet.shown) :
    ms.flatMap Message.rawBytes = content ps := by
  induction ms generalizing ps with
  | nil =>
    rw [List.map_nil, eq_comm, List.map_eq_nil_iff] at h
    rw [h]
    rfl
  | cons m ms ih =>
    cases ps with
    | nil => exact absurd h (by simp)
    | cons p ps =>
      rw [List.map_cons, List.map_cons, List.cons.injEq] at h
      rw [List.flatMap_cons, ih h.2, Message.rawBytes_of_shown h.1]
      exact (content_append [p] ps).symm

/-- Messages that show pieces of a file have no text. -/
theorem texts_eq_nil_of_shown {ms : List Message} {ps : List Packet}
    (h : ms.map Message.shown = ps.map Packet.shown) (hpieces : ∀ p ∈ ps, p.content = .info) :
    ∀ m ∈ ms, m.texts = [] := by
  intro m hm
  have hmem : m.shown ∈ ps.map Packet.shown := h ▸ List.mem_map_of_mem hm
  obtain ⟨p, hp, hshown⟩ := List.mem_map.mp hmem
  rw [Message.texts_of_shown hshown.symm, if_neg (by simp [hpieces p hp])]

/-- Each of the messages that show some packets shows the one at its place. -/
theorem exists_of_shown {ms : List Message} {ps : List Packet}
    (h : ms.map Message.shown = ps.map Packet.shown) {k : Nat} {m : Message}
    (hm : ms[k]? = some m) : ∃ p, ps[k]? = some p ∧ m.shown = p.shown := by
  have hk := congrArg (fun l => l[k]?) h
  simp only [List.getElem?_map, hm, Option.map_some] at hk
  obtain ⟨p, hp, hshown⟩ := Option.map_eq_some_iff.mp hk.symm
  exact ⟨p, hp, hshown.symm⟩

end Dlt

/-! ### What arrives -/

/-- **What a receiver gets of a transfer**, whose file has those bytes. -/
structure Transfer.Arrived (file : Bytes) (t : Transfer) (ms : List Dlt.Message) : Prop where
  /-- The messages are numbered from zero, and each has one thing more. -/
  numbered : ∀ (k : Nat) (m : Dlt.Message), ms[k]? = some m →
    ∃ v a, m.arguments = [.number v, a] ∧ v.toNat = k
  /-- The raw bytes in them are the first bytes of the file, as many as are counted. -/
  counted : ms.flatMap Dlt.Message.rawBytes = file.take t.bytes
  /-- When there is a report, they are the whole file if it says that the transfer is completed,
  and otherwise as many as it says. -/
  reported : ∀ r, t.report? = some r → ms.flatMap Dlt.Message.rawBytes =
    if r.isCompleted then file else file.take r.bytes
  /-- If the report says that the transfer failed, the last message and no other has a text, and
  that is the notice of the failure. -/
  noticed : ∀ r failure, t.report? = some r → r.failure = some failure →
    ∃ front last, ms = front ++ [last] ∧ (∀ m ∈ front, m.texts = []) ∧
      last.texts = [Bytes.ofText (failure.notice t.entry.fileName)]
  /-- If there is no report that says so, no message has a text. -/
  silent : (∀ r, t.report? = some r → r.failure = none) → ∀ m ∈ ms, m.texts = []

/-- **What is known of a transfer can be seen from its messages**, if they show the packets that
it has handed on. -/
theorem Transfer.Faithful.arrived {file rest : Bytes} {t : Transfer} {deeds : List Deed}
    {ms : List Dlt.Message} (h : Faithful file t deeds rest)
    (hshown : ms.map Dlt.Message.shown = (taken deeds).map Packet.shown) :
    Arrived file t ms where
  numbered := by
    intro k m hm
    obtain ⟨p, hp, hpacket⟩ := Dlt.exists_of_shown hshown hm
    exact ⟨p.sequence, p.payloadArgument, congrArg (fun x => x.2.2) hpacket,
      (h.account.numbered k p hp).1⟩
  counted := by rw [Dlt.flatMap_rawBytes_of_shown hshown, h.content_eq_take]
  reported := by
    intro r hr
    have hphase := report?_eq_some_iff.mp hr
    rw [Dlt.flatMap_rawBytes_of_shown hshown]
    split
    · rename_i hcompleted
      exact h.content_eq_file hphase ((h.isCompleted_iff hphase).mp hcompleted)
    · rw [h.content_eq_take, h.standing.bytes_of_over hphase]
  noticed := by
    intro r failure hr hfailure
    have hphase := report?_eq_some_iff.mp hr
    rcases h.standing.pieces_or_notice with ⟨-, hcompleted⟩ |
      ⟨r', failure', pieces, notice, hphase', hfailure', htaken, hpieces, hcontent, hpayload⟩
    · rw [hcompleted r hphase] at hfailure
      exact absurd hfailure (by simp)
    · obtain rfl : r' = r := Phase.over.inj (hphase'.symm.trans hphase)
      obtain rfl : failure' = failure := Option.some.inj (hfailure'.symm.trans hfailure)
      -- the notice is the last packet, so the message that shows it is the last message
      rw [htaken, List.map_append, List.map_singleton] at hshown
      obtain ⟨front, back, happend, hfront, hback⟩ := List.map_eq_append_iff.mp hshown
      obtain ⟨last, rfl, hlast⟩ := List.map_eq_singleton_iff.mp hback
      refine ⟨front, last, happend, Dlt.texts_eq_nil_of_shown hfront hpieces, ?_⟩
      rw [Dlt.Message.texts_of_shown hlast, if_pos hcontent, hpayload]
  silent := by
    intro hnone
    rcases h.standing.pieces_or_notice with ⟨hpieces, -⟩ | ⟨r, failure, -, -, hphase, hfailure, -⟩
    · exact Dlt.texts_eq_nil_of_shown hshown hpieces
    · rw [hnone r (report?_eq_some_iff.mpr hphase)] at hfailure
      exact absurd hfailure (by simp)

namespace Hall

variable {ρ ω : Type}

/-! ### One transfer among others -/

/-- The application and the context of a transfer. -/
def ids (j : Pool.Job) : Id × Id :=
  (j.transfer.entry.appid, j.transfer.entry.ctxid)

/-- What is read without exception is what is left when the exceptions are left out. -/
theorem filterMap_eq_of_map_eq {α β : Type} {f : α → Option β} {as : List α} {bs : List β}
    (h : as.map f = bs.map some) : as.filterMap f = bs := by
  calc as.filterMap f = (as.map f).filterMap id := by rw [List.filterMap_map, Function.id_comp]
    _ = bs := by rw [h, List.filterMap_map, Function.id_comp, List.filterMap_some]

namespace Ledger

variable {out : Channel.Outlet ω} {sources : Nat → Source ρ} {config : Pool.Config}
  {channel : Channel.Config} {left : ρ → Bytes} {r₀ : Nat → ρ} {p : Pool}
  {h : Hall ρ (Channel × ω × List Bytes)} {deeds : Nat → List Deed}
  {handed : List (Nat × Packet)} {i : Nat} {j : Pool.Job}

/-- A packet that was taken from a place names the transfer there. -/
theorem exists_job (hledger : Ledger out sources config channel left r₀ p h deeds handed)
    {x : Nat × Packet} (hx : x ∈ handed) :
    ∃ k, p.jobs[x.1]? = some k ∧ (x.2.appid, x.2.ctxid) = ids k := by
  have htaken : x.2 ∈ taken (deeds x.1) := by
    rw [← hledger.taken_eq]
    exact List.mem_map_of_mem (List.mem_filter.mpr ⟨hx, decide_eq_true rfl⟩)
  cases hk : p.jobs[x.1]? with
  | none =>
    rw [(hledger.vacant x.1 (List.getElem?_eq_none_iff.mp hk)).1] at htaken
    exact absurd htaken (by simp)
  | some k =>
    obtain ⟨rest, hfaithful, -⟩ := (hledger.lanes x.1 k hk).faithful
    obtain ⟨n, hn⟩ := List.mem_iff_getElem?.mp htaken
    obtain ⟨-, happ, hctx⟩ := hfaithful.account.numbered n x.2 hn
    exact ⟨k, rfl, Prod.ext happ hctx⟩

/-- A packet names the transfer at a place exactly if it was taken from there. -/
theorem names_iff (hledger : Ledger out sources config channel left r₀ p h deeds handed)
    (hdistinct : (p.jobs.map ids).Nodup) (hj : p.jobs[i]? = some j) {x : Nat × Packet}
    (hx : x ∈ handed) :
    (x.2.appid = j.transfer.entry.appid ∧ x.2.ctxid = j.transfer.entry.ctxid) ↔ x.1 = i := by
  obtain ⟨k, hk, hids⟩ := hledger.exists_job hx
  constructor
  · rintro ⟨happ, hctx⟩
    have hsame : ids k = ids j := by
      rw [← hids, happ, hctx]
      rfl
    have hlt : x.1 < (p.jobs.map ids).length := by
      rw [List.length_map]
      exact (List.getElem?_eq_some_iff.mp hk).1
    refine (List.getElem?_inj hlt hdistinct).mp ?_
    rw [List.getElem?_map, List.getElem?_map, hk, hj, Option.map_some, Option.map_some, hsame]
  · rintro rfl
    rw [hj, Option.some.injEq] at hk
    subst hk
    exact Prod.mk.inj hids

/-- **The messages that name a transfer show its packets, in order**, if no other transfer has
its name. -/
theorem shown_messagesFrom (hledger : Ledger out sources config channel left r₀ p h deeds handed)
    (hdistinct : (p.jobs.map ids).Nodup) (hj : p.jobs[i]? = some j) :
    (Dlt.messagesFrom j.transfer.entry.appid j.transfer.entry.ctxid h.output.2.2).map
      Dlt.Message.shown = (taken (deeds i)).map Packet.shown := by
  obtain ⟨messages, hparsed, -, hshown⟩ := hledger.wire.messages
  rw [Dlt.messagesFrom, filterMap_eq_of_map_eq hparsed]
  calc (messages.filter (Dlt.Message.isFrom _ _)).map Dlt.Message.shown
      = (messages.map Dlt.Message.shown).filter (Dlt.shownFrom _ _) := by
        rw [List.filter_map]
        rfl
    _ = (handed.filter fun x => Dlt.shownFrom _ _ x.2.shown).map fun x => x.2.shown := by
        rw [hshown, List.filter_map]
        rfl
    _ = (handed.filter fun x => x.1 = i).map fun x => x.2.shown := by
        congr 1
        refine List.filter_congr fun x hx => ?_
        exact decide_eq_decide.mpr (hledger.names_iff hdistinct hj hx)
    _ = (lane i handed).map Packet.shown := by
        rw [lane, List.map_map]
        rfl
    _ = (taken (deeds i)).map Packet.shown := by rw [hledger.taken_eq]

end Ledger

/-! ### All of them -/

/-- **Files are put together again.**

Let a courier have settings that make sense, let its outlet send whatever it gets, and let its
sources have fixed contents: they cannot be opened, or give what they have and then no more, or an
error. Let records be brought and transfers move in whatever order. As long as no two transfers
have the same application and the same context,

* every datagram is a message, and they are numbered as they come, modulo 256;
* of each transfer the receiver gets what it should (`LogCourier.Transfer.Arrived`);
* if nothing can move any more, each transfer has a report, unless the clock came to its end or
  there was no room for a chunk. -/
theorem reassembly (settings : Settings) (hcheck : settings.check = .ok ()) (out : Channel.Outlet ω)
    (hsends : out.Sends) (origin : Instant) (sources : Nat → Source ρ) (left : ρ → Bytes)
    (ending : Nat → Option IoError) (hsupplies : ∀ i, (sources i).Supplies left (ending i))
    (r₀ : Nat → ρ) (w : ω) (log : List Event) (p : Pool) (h : Hall ρ (Channel × ω × List Bytes))
    (hreachable : Pool.Reachable (Hall.work (Channel.emitter out.recorded origin) sources)
      Hall.tell settings.pool ⟨r₀, (Channel.fresh settings.channel, w, []), log⟩ p h)
    (hdistinct : (p.jobs.map ids).Nodup) :
    (∀ (i : Nat) (datagram : Bytes), h.output.2.2[i]? = some datagram →
      ∃ m, Dlt.Message.read? datagram = some m ∧ m.header.counter.toNat = i % 256) ∧
    (∀ (i : Nat) (j : Pool.Job), p.jobs[i]? = some j →
      Arrived (left (r₀ i)) j.transfer
        (Dlt.messagesFrom j.transfer.entry.appid j.transfer.entry.ctxid h.output.2.2)) ∧
    ((∀ m, p.moveBy? (Hall.work (Channel.emitter out.recorded origin) sources) h m = none) →
      out.HadTime settings.channel.burstInterval h.output.2.1 → Roomy sources →
      ∀ j ∈ p.jobs, ∃ r, j.transfer.report? = some r) := by
  obtain ⟨deeds, handed, hledger⟩ := exists_ledger hsends origin hsupplies
    (Settings.sizeFor_le_of_check hcheck) settings.channel hreachable
  refine ⟨hledger.wire.counter_of_getElem?, ?_, ?_⟩
  · intro i j hj
    obtain ⟨rest, hfaithful, -⟩ := (hledger.lanes i j hj).faithful
    exact hfaithful.arrived (hledger.shown_messagesFrom hdistinct hj)
  -- where nothing can move, all transfers are done with, so they are over, and none has crashed
  · intro hstuck htime hroomy j hj
    obtain ⟨i, hi⟩ := List.mem_iff_getElem?.mp hj
    have hretired := hreachable.balanced.retired_of_stuck hstuck j hj
    have hover := hreachable.isSettledWhenOver j hj (Or.inr hretired)
    have huncrashed := hledger.uncrashed htime hroomy i j hi
    cases hphase : j.transfer.phase with
    | «over» r => exact ⟨r, report?_eq_some_iff.mpr hphase⟩
    | crashed => exact absurd hphase huncrashed
    | _ => exact absurd hover (by simp [isOver, hphase])

/-! ### Two transfers -/

/-- Two sources with fixed contents: the first can be opened, and the others cannot. -/
def shelf (place : Nat) : Source Bytes where
  openSource _ _ r := (if place = 0 then .opened else .failed (.refused "locked"), r)
  read limit r := (.data (r.take limit), r.drop limit)
  remove _ r := (.ok (), r)

theorem shelf_supplies (place : Nat) : (shelf place).Supplies id none where
  opens := fun _ _ _ => rfl
  reads := by
    intro limit r hlimit
    cases r with
    | nil =>
      simp only [shelf, List.take_nil, List.drop_nil]
      exact .done rfl
    | cons b r =>
      have hsome : (b :: r).take limit ≠ [] := by simp; omega
      have hgives := @Gives.bytes none limit _ ((b :: r).drop limit) hsome (List.length_take_le _ _)
      rw [List.take_append_drop] at hgives
      exact hgives
  brief := by
    intro name size r e he
    simp only [shelf] at he
    split at he
    · exact absurd he (by simp)
    · obtain rfl := Opening.failed.inj he
      exact Nat.le_of_ble_eq_true rfl
  briefEnding := fun _ he => absurd he (by simp)

/-- An outlet where time stands still. -/
def still : Channel.Outlet Unit where
  now _ := ⟨0⟩
  sleep _ s := s
  send slices s := (.sent slices.flatten.length, s)

/-- Two transfers that take turns. -/
def turns : List Pool.Action :=
  [.submit [1, 0x46, 0x54, 0, 0, 0x46, 0x54, 0, 0, 0, 0, 2, 0x2F, 0x66],
    .handle [1, 0x46, 0x54, 0, 0, 0x45, 0x43, 0x55, 0x31, 0, 0, 2, 0x2F, 0x67],
    .move (.start 0), .move (.start 1), .move (.work 0), .move (.work 1), .move (.work 0),
    .move (.work 1), .move (.work 0), .move (.work 0), .move (.work 0), .move (.work 0)]

/-- The pool and the hall after that. The file of the first transfer has two bytes. -/
def afterTurns : Pool × Hall Bytes (Channel × Unit × List Bytes) :=
  Pool.play (Hall.work (Channel.emitter still.recorded ⟨0⟩) shelf) Hall.tell turns
    (Pool.fresh Settings.default.pool)
    ⟨fun _ => [7, 8], (Channel.fresh Settings.default.channel, (), []), []⟩

/-- Of the first the receiver gets the file, and of the second why there is none. -/
theorem reassembly_turns :
    Settings.default.check = .ok () ∧ still.Sends ∧
    (∀ i, (shelf i).Supplies id none) ∧
    Pool.Reachable (Hall.work (Channel.emitter still.recorded ⟨0⟩) shelf) Hall.tell
      Settings.default.pool
      ⟨fun _ => [7, 8], (Channel.fresh Settings.default.channel, (), []), []⟩
      afterTurns.1 afterTurns.2 ∧
    (afterTurns.1.jobs.map ids).Nodup ∧
    (Dlt.messagesFrom Id.ft Id.ft afterTurns.2.output.2.2).flatMap Dlt.Message.rawBytes = [7, 8] ∧
    ∃ front last, Dlt.messagesFrom Id.ft Id.ecu1 afterTurns.2.output.2.2 = front ++ [last] ∧
      last.texts =
        [Bytes.ofText "file transfer failed: cannot open /g: I/O error: locked"] := by
  have hcheck : Settings.default.check = .ok () := rfl
  have hsends : still.Sends := fun slices _ => ⟨slices.flatten.length, rfl⟩
  have hreachable := (@Pool.Reachable.fresh _ (Hall.work (Channel.emitter still.recorded ⟨0⟩) shelf)
    Hall.tell Settings.default.pool
    ⟨fun _ => [7, 8], (Channel.fresh Settings.default.channel, (), []), []⟩).play turns
  have hdistinct : (afterTurns.1.jobs.map ids).Nodup := by decide +kernel
  have hfirst : (afterTurns.1.jobs[0]?.map fun j => (ids j, j.transfer.report?.map
      Report.isCompleted)) = some ((Id.ft, Id.ft), some true) := by decide +kernel
  have hsecond : (afterTurns.1.jobs[1]?.map fun j => (ids j, j.transfer.entry.fileName,
      j.transfer.report?.map Report.failure)) =
        some ((Id.ft, Id.ecu1), "/g", some (some (.opening (.refused "locked")))) := by
    decide +kernel
  obtain ⟨-, harrived, -⟩ := reassembly Settings.default hcheck still hsends ⟨0⟩ shelf id
    (fun _ => none) shelf_supplies (fun _ => [7, 8]) () [] _ _ hreachable hdistinct
  refine ⟨hcheck, hsends, shelf_supplies, hreachable, hdistinct, ?_, ?_⟩
  · obtain ⟨j, hj, hids⟩ := Option.map_eq_some_iff.mp hfirst
    obtain ⟨happ, hctx⟩ := Prod.mk.inj (Prod.mk.inj hids).1
    obtain ⟨r, hr, hcompleted⟩ := Option.map_eq_some_iff.mp (Prod.mk.inj hids).2
    have hfile := (harrived 0 j hj).reported r hr
    rwa [if_pos hcompleted, happ, hctx] at hfile
  · obtain ⟨j, hj, hids⟩ := Option.map_eq_some_iff.mp hsecond
    obtain ⟨happ, hctx⟩ := Prod.mk.inj (Prod.mk.inj hids).1
    obtain ⟨hname, hreport⟩ := Prod.mk.inj (Prod.mk.inj hids).2
    obtain ⟨r, hr, hfailure⟩ := Option.map_eq_some_iff.mp hreport
    obtain ⟨front, last, happend, -, hlast⟩ := (harrived 1 j hj).noticed r _ hr hfailure
    rw [happ, hctx] at happend
    rw [hname] at hlast
    exact ⟨front, last, happend, hlast⟩

end Hall

end LogCourier
