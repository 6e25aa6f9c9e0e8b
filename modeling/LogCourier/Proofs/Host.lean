import LogCourier.Daemon
import LogCourier.Outbox
import LogCourier.Proofs.Channel.Counting
import LogCourier.Proofs.Pool.Likeness
import LogCourier.Proofs.Trigger
import Mathlib

/-!
# It is all one who carries a file

A file can be carried from here, or a daemon can be asked to do it. The two ways have little in
common but their two ends: from here a record goes straight into a pool of its own; a daemon gets it
as a frame, which its router takes apart, and its intake takes the body. **In the end the files are
the same, and so are the datagrams, but for the time in them**
(`LogCourier.Network.served_as_carried`).

What a network was asked to do, and in which order, is on record (`LogCourier.Network.recorded`),
and every call names the address that it is about. So it can be said where all this goes: the frame
to where a daemon takes records in, and every datagram to where messages go. Of each datagram there
is a note (`LogCourier.Channel.Note`) of what came of it, and when.

Three things have to be seen.

* **The daemon's pool takes what was written here.** The frame of a record is routed as the record
  is dispatched, and a record that was written is read as its entry.
* **The channels keep step.** What a packet becomes depends on the control unit and on the number of
  the message, and, as to its time, only in the bytes 8 to 11
  (`LogCourier.Channel.timeless_datagram`). Both channels have the same number next, so it does not
  matter that their clocks differ (`LogCourier.Network.handsAlike`).
* **The pools do the same.** That is `LogCourier.Pool.drain_alike`.

A channel throws when there is no time to wait until, and it does so at one network and not at
another. So it is asked of both runs that there is one after each datagram, as the notes have it
(`LogCourier.Channel.TimeAfter`). If the name of the file has no written form, both ways are
refused, and for the same reason.
-/

namespace LogCourier

variable {σ τ υ : Type}

/-! ### Datagrams without their time -/

namespace Channel

/-- A datagram with its time, which are the bytes 8 to 11, blanked out. -/
def timeless (bs : Bytes) : Bytes :=
  bs.mapIdx fun i b => if 8 ≤ i ∧ i < 12 then 0 else b

/-- Nothing is blanked out before the time, and nothing behind it. -/
theorem mapIdx_eq_self {bs : Bytes} {n : Nat} (h : n + bs.length ≤ 8 ∨ 12 ≤ n) :
    (bs.mapIdx fun i b => if 8 ≤ i + n ∧ i + n < 12 then 0 else b) = bs := by
  refine List.ext_getElem List.length_mapIdx fun i _ hi => ?_
  rw [List.getElem_mapIdx, if_neg (by omega)]

/-- What is before the time stays, and so does what is behind it. -/
theorem timeless_append {front time back : Bytes} (hfront : front.length = 8)
    (htime : time.length = 4) :
    timeless (front ++ time ++ back) = front ++ [0, 0, 0, 0] ++ back := by
  have hbehind : (front ++ time).length = 12 := by rw [List.length_append, hfront, htime]
  match time, htime with
  | [a, b, c, d], htime =>
    rw [timeless, List.mapIdx_append, List.mapIdx_append, hbehind, hfront,
      mapIdx_eq_self (n := 12) (Or.inr (Nat.le_refl _))]
    have hkept : front.mapIdx _ = front := mapIdx_eq_self (n := 0) (Or.inl (by omega))
    simp only [Nat.add_zero] at hkept
    rw [hkept]
    rfl

/-- **The time of a packet shows in the bytes 8 to 11 of its datagram**, and nowhere else. -/
theorem timeless_datagram (ecu : Id) (counter : UInt8) (p : Packet) :
    timeless (datagram ecu counter p) = datagram ecu counter p.untimed := by
  have hsplit (q : Packet) : datagram ecu counter q =
      [Dlt.Header.headerType, counter] ++
          Bytes.be16 (UInt16.ofNat (Dlt.Header.size + q.written.length)) ++ ecu.bytes ++
        Bytes.be32 q.timestamp ++
      ([q.content.level.code * 16 + 1, Packet.argumentCount] ++ q.appid.bytes ++ q.ctxid.bytes ++
        q.written) := by
    simp only [datagram, Dlt.Header.bytes, Dlt.Header.messageInfo, List.append_assoc]
  have hblank : Bytes.be32 p.untimed.timestamp = [0, 0, 0, 0] := (by decide : Bytes.be32 0 = _)
  rw [hsplit p, hsplit p.untimed, hblank, timeless_append (by simp [Bytes.be16]) rfl]
  rfl

end Channel

/-! ### Networks on record -/

/-- Something that a network is asked to do, other than to sleep. -/
inductive Network.Call
  /-- To receive at an address. -/
  | bind (address : SocketAddress)
  /-- To make a socket that sends to an address. -/
  | connect (address : SocketAddress)
  /-- To send a datagram to an address, of which there is a note. -/
  | send (address : SocketAddress) (note : Channel.Note)
  deriving DecidableEq

namespace Network

/-- The note of a datagram, if one was to be sent. -/
def Call.note? : Call → Option Channel.Note
  | send _ note => some note
  | bind _ | connect _ => none

/-- The notes of the datagrams that were to be sent. -/
def notes (calls : List Call) : List Channel.Note :=
  calls.filterMap Call.note?

theorem notes_append_sends (calls : List Call) (target : SocketAddress)
    (sent : List Channel.Note) :
    notes (calls ++ sent.map (.send target)) = notes calls ++ sent := by
  rw [notes, List.filterMap_append, List.filterMap_map]
  exact congrArg (notes calls ++ ·) List.filterMap_some

/-- **The same network, with a record of what it is asked to do.** -/
def recorded (net : Network σ) : Network (σ × List Call) where
  now := fun (s, _) => net.now s
  sleep nanos := fun (s, calls) => (net.sleep nanos s, calls)
  connect address := fun (s, calls) =>
    match net.connect address s with
    | (answer, s) => (answer, s, calls ++ [.connect address])
  send socket slices := fun (s, calls) =>
    match net.send socket slices s with
    | (delivery, s) =>
      (delivery, s, calls ++ [.send socket.far ⟨slices.flatten, delivery, net.now s⟩])
  bind address := fun (s, calls) =>
    match net.bind address s with
    | (answer, s) => (answer, s, calls ++ [.bind address])
  origin := net.origin

/-- **A network that can be relied on**: sockets can be made, and all datagrams are delivered. -/
structure Reliable (net : Network σ) : Prop where
  /-- Sockets that send can be made. -/
  connects : ∀ address s, ∃ near, (net.connect address s).1 = .ok near
  /-- Sockets that receive can be made. -/
  binds : ∀ address s, ∃ near, (net.bind address s).1 = .ok near
  /-- Datagrams are delivered. -/
  sends : ∀ socket, (net.outlet socket).Sends

section Packets

variable (net : Network σ) (socket : Socket) (c : Channel) (p : Packet) (s : σ) (calls : List Call)

/-- A datagram that is sent after a wait goes on record, and else a record changes nothing. -/
theorem send_await_recorded (slices : List Bytes) (nanos : Nat) :
    (net.recorded.outlet socket).send slices
        (Channel.await (net.recorded.outlet socket) nanos (s, calls)) =
      match (net.outlet socket).send slices (Channel.await (net.outlet socket) nanos s) with
      | (delivery, s) =>
        (delivery, s, calls ++ [.send socket.far ⟨slices.flatten, delivery, net.now s⟩]) := by
  unfold Channel.await
  split <;> rfl

/-- **All that a packet makes a channel ask of a network** is to send to the far end of its
socket. -/
theorem exists_take_eq :
    ∃ back told c' s', ∃ sent : List Channel.Note,
      (net.recorded.emitter socket).take p (c, s, calls) =
        (back, told, c', s', calls ++ sent.map (.send socket.far)) := by
  change ∃ back told c' s', ∃ sent : List Channel.Note,
    c.emit (net.recorded.outlet socket) p (s, calls) = _
  unfold Channel.emit
  rcases c.send_cases (net.recorded.outlet socket) p (s, calls) with ⟨-, hsend⟩ | ⟨-, -, hsend⟩ |
    ⟨-, nanos, delivery, ⟨s', calls'⟩, -, hout, hsend⟩ <;> rw [hsend]
  · exact ⟨_, _, _, s, [], by rw [List.map_nil, List.append_nil]⟩
  · exact ⟨_, _, _, s, [], by rw [List.map_nil, List.append_nil]⟩
  · rw [net.send_await_recorded, Prod.mk.injEq, Prod.mk.injEq] at hout
    obtain ⟨rfl, rfl, rfl⟩ := hout
    exact ⟨_, _, _, _, [_], rfl⟩

variable {net socket c s calls}

/-- **What becomes of a packet** if whatever is sent is delivered and there is a time to wait until:
it is taken, and if it fits a message that message goes to the far end of the socket. -/
theorem exists_take_of_timeAfter (hsends : (net.outlet socket).Sends)
    (hlast : c.LastNoted (notes calls))
    (htime : Channel.TimeAfter c.config.burstInterval (notes calls)) :
    ∃ told c' s', ∃ sent : List Channel.Note,
      (net.recorded.emitter socket).take p (c, s, calls) =
        (true, told, c', s', calls ++ sent.map (.send socket.far)) ∧
      sent.map (·.bytes) = (if Channel.fits p then [c.message p] else []) ∧
      c'.config = c.config ∧
      c'.counter = (if Channel.fits p then c.counter + 1 else c.counter) ∧
      c'.LastNoted (notes calls ++ sent) := by
  change ∃ told c' s', ∃ sent : List Channel.Note,
    c.emit (net.recorded.outlet socket) p (s, calls) = _ ∧ _
  unfold Channel.emit
  rcases c.send_cases (net.recorded.outlet socket) p (s, calls) with ⟨hp, hsend⟩ |
    ⟨-, hdelay, -⟩ | ⟨hp, nanos, delivery, ⟨s', calls'⟩, -, hout, hsend⟩
  · rw [hsend, hp]
    refine ⟨Channel.Outcome.events p (.error (.tooLarge ⟨p.payload.length⟩)), c.drop, s, [], ?_,
      rfl, rfl, rfl, ?_⟩
    · rw [List.map_nil, List.append_nil]
      rfl
    · rw [List.append_nil]
      exact hlast
  · exact absurd hdelay (hlast.delay?_ne_none htime _)
  · rw [hsend, hp]
    obtain ⟨n, hn⟩ := hsends [(c.header p).bytes, p.written]
      (Channel.await (net.outlet socket) nanos s)
    rw [net.send_await_recorded, Prod.mk.injEq, Prod.mk.injEq, hn] at hout
    obtain ⟨rfl, rfl, rfl⟩ := hout
    refine ⟨_, _, _, [_], rfl, ?_, rfl, rfl, ?_⟩
    · rw [List.map_singleton, List.flatten_cons, List.flatten_cons, List.flatten_nil,
        List.append_nil]
      rfl
    · exact (show (c.filled p).LastNoted (notes calls) from hlast).settle _ (.sent n) _

end Packets

/-- **All that running transfers asks of a network** is to send to the far end of the socket. -/
theorem exists_calls_drain (net : Network σ) (socket : Socket) (p : Pool)
    (s : Site (Channel × σ × List Call)) :
    ∃ sent : List Channel.Note, (p.drain (net.recorded.emitter socket) s).2.output.2.2 =
      s.output.2.2 ++ sent.map (.send socket.far) := by
  refine Pool.output_kept_runOldest (G := fun x : Channel × σ × List Call =>
    ∃ sent : List Channel.Note, x.2.2 = s.output.2.2 ++ sent.map (.send socket.far)) ?_ _
    ⟨[], (List.append_nil _).symm⟩
  rintro p ⟨c, s', calls⟩ ⟨sent, hcalls⟩
  obtain ⟨back, told, c', s'', sent', htake⟩ := net.exists_take_eq socket c p s' calls
  refine ⟨sent ++ sent', ?_⟩
  rw [htake, List.map_append, ← List.append_assoc, ← hcalls]

/-! ### Channels that keep step -/

/-- What is sent, but for the times in it. -/
def shown (notes : List Channel.Note) : List Bytes :=
  notes.map fun note => Channel.timeless note.bytes

theorem shown_append (notes more : List Channel.Note) :
    shown (notes ++ more) = shown notes ++ shown more :=
  List.map_append

/-- It depends on nothing but the bytes. -/
theorem shown_eq (notes : List Channel.Note) :
    shown notes = (notes.map (·.bytes)).map Channel.timeless :=
  List.map_map.symm

/-- **Two channels that keep step**: they are set up alike, have the same number next, and have sent
the same, but for the times. -/
structure InStep (config : Channel.Config) (x : Channel × σ × List Call)
    (y : Channel × τ × List Call) : Prop where
  /-- The one is set up so. -/
  config_eq : x.1.config = config
  /-- The other is set up in the same way. -/
  config_eq' : y.1.config = config
  /-- The next number is the same. -/
  counter : x.1.counter = y.1.counter
  /-- The last time of the one is on note. -/
  lastNoted : x.1.LastNoted (notes x.2.2)
  /-- So is that of the other. -/
  lastNoted' : y.1.LastNoted (notes y.2.2)
  /-- The same has been sent. -/
  sent : shown (notes x.2.2) = shown (notes y.2.2)

section InStep

variable {near : Network σ} {far : Network τ} {socket socket' : Socket} {config : Channel.Config}

/-- Channels that have sent nothing keep step. -/
theorem inStep_fresh (config : Channel.Config) (s : σ) (u : τ) {calls calls' : List Call}
    (hcalls : notes calls = []) (hcalls' : notes calls' = []) :
    InStep config (.fresh config, s, calls) (.fresh config, u, calls') where
  config_eq := rfl
  config_eq' := rfl
  counter := rfl
  lastNoted := .fresh config _
  lastNoted' := .fresh config _
  sent := by
    change shown (notes calls) = shown (notes calls')
    rw [hcalls, hcalls']

/-- **Channels that keep step take the packets of transfers alike**, whatever their clocks say, as
long as there is a time to wait until. -/
theorem handsAlike (hnear : near.Reliable) (hfar : far.Reliable) :
    (near.recorded.emitter socket).HandsAlike (InStep config)
      (fun x y => Channel.TimeAfter config.burstInterval (notes x.2.2) ∧
        Channel.TimeAfter config.burstInterval (notes y.2.2))
      (far.recorded.emitter socket') where
  before := by
    rintro p ⟨c, s, calls⟩ y ⟨htime, htime'⟩
    obtain ⟨back, told, c', s', sent, htake⟩ := near.exists_take_eq socket c p s calls
    rw [htake, notes_append_sends] at htime
    exact ⟨htime.left, htime'⟩
  before' := by
    rintro p x ⟨d, u, calls⟩ ⟨htime, htime'⟩
    obtain ⟨back, told, d', u', sent, htake⟩ := far.exists_take_eq socket' d p u calls
    rw [htake, notes_append_sends] at htime'
    exact ⟨htime, htime'.left⟩
  hands := by
    rintro t content payload ⟨c, s, calls⟩ ⟨d, u, calls'⟩
      ⟨rfl, hconfig, hcounter, hlast, hlast', hsent⟩ ⟨htime, htime'⟩
    -- the packets differ in their times, and so do the messages
    have hpackets := t.untimed_packet content payload
      ((near.recorded.emitter socket).ticks (c, s, calls))
      ((far.recorded.emitter socket').ticks (d, u, calls'))
    generalize t.packet content payload ((near.recorded.emitter socket).ticks (c, s, calls)) = p
      at hpackets htime ⊢
    generalize t.packet content payload ((far.recorded.emitter socket').ticks (d, u, calls')) = q
      at hpackets htime' ⊢
    change d.config = c.config at hconfig
    change c.counter = d.counter at hcounter
    have hfits : Channel.fits p = Channel.fits q := by
      change Channel.fits p.untimed = Channel.fits q.untimed
      rw [hpackets]
    have hmessage : Channel.timeless (c.message p) = Channel.timeless (d.message q) := by
      rw [Channel.message_eq_datagram, Channel.message_eq_datagram, Channel.timeless_datagram,
        Channel.timeless_datagram, hpackets, hconfig, hcounter]
    obtain ⟨_, _, _, _, _, hbefore⟩ := near.exists_take_eq socket c p s calls
    obtain ⟨_, _, _, _, _, hbefore'⟩ := far.exists_take_eq socket' d q u calls'
    rw [hbefore, notes_append_sends] at htime
    rw [hbefore', notes_append_sends] at htime'
    obtain ⟨told, c', s', sent, htake, hbytes, hc', hn', hlastNoted⟩ :=
      exists_take_of_timeAfter p (hnear.sends socket) hlast htime.left
    obtain ⟨told', d', u', sent', htake', hbytes', hd', hm', hlastNoted'⟩ :=
      exists_take_of_timeAfter q (hfar.sends socket') hlast' (hconfig ▸ htime'.left)
    have hshown : shown sent = shown sent' := by
      rw [shown_eq, shown_eq, hbytes, hbytes', hfits]
      split
      · rw [List.map_singleton, List.map_singleton, hmessage]
      · rfl
    rw [htake, htake']
    refine ⟨rfl, hc', hd'.trans hconfig, ?_, ?_, ?_, ?_⟩
    · change c'.counter = d'.counter
      rw [hn', hm', hfits, hcounter]
    · rw [notes_append_sends]
      exact hlastNoted
    · rw [notes_append_sends]
      exact hlastNoted'
    · rw [notes_append_sends, notes_append_sends, shown_append, shown_append, hshown]
      exact congrArg (· ++ shown sent') hsent

end InStep

/-! ### Sockets -/

namespace Reliable

variable {net : Network σ}

/-- A socket that sends is made, and that is all. -/
theorem openOutput_eq (h : net.Reliable) (target : SocketAddress) (files : FileTree) (disk : Disk)
    (s : σ) (calls : List Call) (log : List Event) :
    ∃ near s' log', net.recorded.openOutput target ⟨files, (s, calls), log, disk⟩ =
      (.ok ⟨near, target⟩, ⟨files, (s', calls ++ [.connect target]), log', disk⟩) := by
  obtain ⟨near, hnear⟩ := h.connects target s
  rcases hconnect : net.connect target s with ⟨answer, s'⟩
  rw [hconnect] at hnear
  obtain rfl : answer = .ok near := hnear
  refine ⟨near, s', log ++ [.outputConnected near.text target.text], ?_⟩
  simp only [openOutput, recorded, hconnect]

/-- A frame is sent, and that is all. -/
theorem sendFrame_eq (h : net.Reliable) (socket : Socket) (frame : Bytes) (files : FileTree)
    (disk : Disk) (s : σ) (calls : List Call) (log : List Event) :
    ∃ s' note, note.bytes = frame ∧
      net.recorded.sendFrame socket frame ⟨files, (s, calls), log, disk⟩ =
        (.ok (), ⟨files, (s', calls ++ [.send socket.far note]), log, disk⟩) := by
  obtain ⟨n, hn⟩ := h.sends socket [frame] s
  rcases hsend : net.send socket [frame] s with ⟨delivery, s'⟩
  rw [show (net.outlet socket).send [frame] s = net.send socket [frame] s from rfl, hsend] at hn
  obtain rfl : delivery = .sent n := hn
  refine ⟨s', ⟨[frame].flatten, .sent n, net.now s'⟩, List.append_nil frame, ?_⟩
  simp only [sendFrame, recorded, hsend]

end Reliable

end Network

/-! ### A pool for one record -/

/-- What whoever waits for a transfer is told when it is over. -/
def Transfer.answer (t : Transfer) : Except LocalError Transfer.Report :=
  match t.report? with
  | some report => .ok report
  | none => .error .crashed

namespace Pool

/-- There is always a slot to begin with. -/
theorem Config.slots_pos (config : Config) : 0 < config.slots := by
  have hpermit : 1 ≤ config.permits := Nat.le_max_left _ _
  have hlimit : 0 < maxSlots := Nat.succ_pos _
  rw [Config.slots]
  omega

/-- So the first record that can be read is taken. -/
theorem submit_fresh {record : Bytes} {entry : Entry} (h : Entry.decode record = .ok entry)
    (config : Config) :
    (fresh config).submit record = (.ok [acceptedEvent entry], (fresh config).add entry) :=
  submit_of_room h config.slots_pos

/-- **It is the one transfer of the pool, and comes to its end.** -/
theorem exists_job_drain {ε : Type} {record : Bytes} {entry : Entry}
    (hdecode : Entry.decode record = .ok entry) (config : Config) (e : Emitter ε) (s : Site ε) :
    ∃ j, (((fresh config).add entry).drain e s).1.jobs = [j] ∧ j.stage = .retired ∧
      j.transfer.isOver = true := by
  have hact : (fresh config).act? (fun _ => Job.work e) (fun _ s => s) s (.submit record) =
      some ((fresh config).add entry, s) := by
    simp only [act?, submit_fresh hdecode]
  have hreachable := Reachable.fresh.act hact
  have hone : (((fresh config).add entry).drain e s).1.jobs.length = 1 :=
    runOldest_induction (motive := fun p _ => p.jobs.length = 1)
      (fun _ _ _ _ _ hbefore hmoves => hmoves.length_jobs.trans hbefore) _ rfl
  obtain ⟨j, hj⟩ := List.length_eq_one_iff.mp hone
  have hmem : j ∈ (((fresh config).add entry).drain e s).1.jobs :=
    hj ▸ List.mem_singleton.mpr rfl
  have hretired := hreachable.balanced.retired_drain hreachable.isSound e s j hmem
  exact ⟨j, hj, hretired, hreachable.drain.isSettledWhenOver j hmem (Or.inr hretired)⟩

end Pool

/-! ### The two ways -/

/-- A site with those files, where nothing has been told and nothing has been asked of the
network. -/
def Site.silent (files : FileTree) (disk : Disk) (s : σ) : Site (σ × List Network.Call) :=
  { files, output := (s, []), log := [], disk }

/-- **A daemon that has a pool takes the frame of a record** as the pool takes the record. -/
theorem Daemon.receive_frame {d : Daemon σ} {config : Pool.Config} {record : Bytes} {entry : Entry}
    (hintake : d.intake = .pool (.fresh config)) (hdecode : Entry.decode record = .ok entry)
    (peer : String) :
    (d.receive peer (Record.Kind.fileTransfer.tag :: record)).intake =
        .pool ((Pool.fresh config).add entry) ∧
      (d.receive peer (Record.Kind.fileTransfer.tag :: record)).site =
        d.site.tell [Pool.acceptedEvent entry] ∧
      (d.receive peer (Record.Kind.fileTransfer.tag :: record)).socket = d.socket := by
  simp only [receive, Router.routeFrame_cons_tag, Router.dispatch, handlers, hintake, Intake.handle,
    Pool.handle, Pool.submit_fresh hdecode]
  exact ⟨trivial, trivial, trivial⟩

/-- Running all transfers to their end is a matter of the pool. -/
theorem Daemon.finishTransfers_of_pool {d : Daemon σ} {p : Pool} (h : d.intake = .pool p)
    (net : Network σ) :
    (d.finishTransfers net).intake = .pool (p.drain (net.emitter d.socket) d.site).1 ∧
      (d.finishTransfers net).site = (p.drain (net.emitter d.socket) d.site).2 := by
  simp only [finishTransfers, h, Intake.drain]
  exact ⟨trivial, trivial⟩

namespace Network

section Ways

variable {net : Network σ} {settings : Settings} {entry : Entry} {record : Bytes}

/-- **A transfer that has a pool to itself comes to its end**, and all that it asks of a network is
to send to the far end of the socket. -/
theorem exists_calls_job (net : Network σ) (hdecode : Entry.decode record = .ok entry)
    (socket : Socket) (config : Pool.Config) (s : Site (Channel × σ × List Call)) :
    let run := ((Pool.fresh config).add entry).drain (net.recorded.emitter socket) s
    ∃ (sent : List Channel.Note) (j : Pool.Job),
      run.2.output.2.2 = s.output.2.2 ++ sent.map (.send socket.far) ∧
      run.1.jobs = [j] ∧ j.stage = .retired ∧ j.transfer.isOver = true := by
  obtain ⟨sent, hsent⟩ := net.exists_calls_drain socket ((Pool.fresh config).add entry) s
  obtain ⟨j, hj⟩ := Pool.exists_job_drain hdecode config (net.recorded.emitter socket) s
  exact ⟨sent, j, hsent, hj⟩

/-- A record that is carried runs in a pool of its own, and whoever waits for it is told what became
of it. -/
theorem carry_eq (net : Network σ) (socket : Socket) (settings : Settings)
    (hdecode : Entry.decode record = .ok entry) (s : Site (Channel × σ)) :
    let run := ((Pool.fresh settings.pool).add entry).drain (net.emitter socket)
      (s.tell [Pool.acceptedEvent entry])
    let carried := net.carry socket settings record s
    (∀ t, run.1.transfer? 0 = some t → carried.1 = t.answer) ∧
      carried.2.files = run.2.files ∧ carried.2.output = run.2.output := by
  simp only [carry, Pool.submit_fresh hdecode]
  generalize ((Pool.fresh settings.pool).add entry).drain (net.emitter socket)
    (s.tell [Pool.acceptedEvent entry]) = run
  refine ⟨?_, ?_⟩
  · intro t ht
    rw [ht, Option.bind_some, Transfer.answer]
    cases t.report? <;> rfl
  · cases (run.1.transfer? 0).bind Transfer.report? <;> exact ⟨rfl, rfl⟩

/-- **From here**: the transfer runs in a pool of its own. -/
theorem Reliable.transferLocal_eq (h : net.Reliable) (henabled : settings.transfers.enabled = true)
    (hencode : entry.encode = .ok record) (files : FileTree) (disk : Disk) (s : σ) :
    ∃ near s' log,
      let run := ((Pool.fresh settings.pool).add entry).drain
        (net.recorded.emitter ⟨near, settings.target⟩)
        ⟨files, (.fresh settings.channel, s', [.connect settings.target]), log, disk⟩
      let here := net.recorded.transferLocal settings entry (.silent files disk s)
      (∀ t, run.1.transfer? 0 = some t → here.1 = t.answer) ∧
        here.2.files = run.2.files ∧ here.2.output = run.2.output.2 := by
  obtain ⟨near, s', log, hopen⟩ := h.openOutput_eq settings.target files disk s [] []
  refine ⟨near, s', log ++ [Pool.acceptedEvent entry], ?_⟩
  obtain ⟨hanswer, hfiles, houtput⟩ := net.recorded.carry_eq ⟨near, settings.target⟩ settings
    (Entry.decode_of_encode hencode)
    ⟨files, (.fresh settings.channel, s', [.connect settings.target]), log, disk⟩
  have hhere : net.recorded.transferLocal settings entry (.silent files disk s) =
      ((net.recorded.carry ⟨near, settings.target⟩ settings record
          ⟨files, (.fresh settings.channel, s', [.connect settings.target]), log, disk⟩).1,
        (net.recorded.carry ⟨near, settings.target⟩ settings record
          ⟨files, (.fresh settings.channel, s', [.connect settings.target]), log,
            disk⟩).2.withoutChannel) := by
    simp only [transferLocal, henabled, Bool.true_eq_false, if_false, Site.silent, hopen, hencode]
    rfl
  rw [hhere]
  exact ⟨hanswer, hfiles, congrArg Prod.snd houtput⟩

/-- **From afar**: the frame of the record is sent to where a daemon takes records in, and that is
all. -/
theorem Reliable.trigger_eq (h : net.Reliable) (hencode : entry.encode = .ok record)
    (settings : Settings) (files : FileTree) (disk : Disk) (s : σ) :
    let asked := net.recorded.trigger settings entry (.silent files disk s)
    asked.1 = .ok () ∧ asked.2.files = files ∧
      ∃ note : Channel.Note, note.bytes = Record.Kind.fileTransfer.tag :: record ∧
        asked.2.output.2 = [.connect settings.ingress, .send settings.ingress note] := by
  obtain ⟨near, s', log, hopen⟩ := h.openOutput_eq settings.ingress files disk s [] []
  obtain ⟨s'', note, hnote, hsend⟩ := h.sendFrame_eq ⟨near, settings.ingress⟩
    (Record.Kind.fileTransfer.tag :: record) files disk s' [.connect settings.ingress] log
  simp only [trigger, Site.silent, hopen, List.nil_append, Entry.request, hencode, Sink.framed,
    Entry.frame_of_encode hencode, hsend]
  exact ⟨trivial, rfl, note, hnote, rfl⟩

/-- A name that has no written form: both ways are refused for that, and nothing is sent. -/
theorem Reliable.refused (h : net.Reliable) {far : Network τ} (hfar : far.Reliable)
    (henabled : settings.transfers.enabled = true) {e : Entry.EncodeError}
    (hencode : entry.encode = .error e) (files : FileTree) (disk : Disk) (s : σ) (u : τ) :
    let here := net.recorded.transferLocal settings entry (.silent files disk s)
    let asked := far.recorded.trigger settings entry (.silent files disk u)
    (here.1 = .error (.encode e) ∧ here.2.files = files ∧
        here.2.output.2 = [.connect settings.target]) ∧
      asked.1 = .error (.encode e) ∧ asked.2.files = files ∧
        asked.2.output.2 = [.connect settings.ingress] := by
  obtain ⟨near, s', log, hopen⟩ := h.openOutput_eq settings.target files disk s [] []
  obtain ⟨near', u', log', hopen'⟩ := hfar.openOutput_eq settings.ingress files disk u [] []
  simp only [transferLocal, henabled, Bool.true_eq_false, if_false, Site.silent, hopen, hencode,
    trigger, hopen', Entry.request, List.nil_append]
  trivial

/-- **A daemon starts**: it has a socket for records and one for messages, and nothing has been
taken and nothing sent. -/
theorem Reliable.start_eq (h : net.Reliable) (henabled : settings.transfers.enabled = true)
    (files : FileTree) (disk : Disk) (s : σ) :
    ∃ daemon near s' log,
      (Daemon.start net.recorded settings (.silent files disk s)).1 = .ok daemon ∧
      daemon.intake = .pool (.fresh settings.pool) ∧ daemon.socket = ⟨near, settings.target⟩ ∧
      daemon.site = ⟨files,
        (.fresh settings.channel, s', [.bind settings.ingress, .connect settings.target]), log,
        disk⟩ := by
  obtain ⟨near, hnear⟩ := h.binds settings.ingress s
  rcases hbind : net.bind settings.ingress s with ⟨answer, s'⟩
  rw [hbind] at hnear
  obtain rfl : answer = .ok near := hnear
  have hbind' : net.recorded.bind settings.ingress (s, []) =
      (.ok near, s', [.bind settings.ingress]) := by
    simp only [recorded, hbind, List.nil_append]
  obtain ⟨near', s'', log, hopen⟩ :=
    h.openOutput_eq settings.target files disk s' [.bind settings.ingress] []
  have hintake : Intake.ofConfig settings.pool = .pool (.fresh settings.pool) := if_pos henabled
  simp only [Daemon.start, Site.silent, hbind', hopen, hintake]
  exact ⟨_, _, _, _, rfl, rfl, rfl, rfl⟩

end Ways

/-- **It is all one who carries a file**, if transfers are not switched off and networks can be
relied on. For every entry and whatever files there are, on whatever disk, either

* its name has no written form: who wants to carry it from here is refused for that, and who wants
  to ask a daemon is refused for that. Each has made a socket, to where messages go or to where
  a daemon takes records in; nothing is sent, and the files stay as they are; or
* neither is refused for that. Asking sends one frame to where a daemon takes records in, and leaves
  the files alone. Carrying the file from here sends datagrams to where messages go, and nothing
  else; so does a daemon, set up in the same way and just started, that gets the frame and brings to
  its end the transfer that it is asked for. **The datagrams are the same but for their times, the
  files become the same, and the answer from here is what becomes of the transfer there**, if in
  both runs there is a time to wait until after each datagram. -/
theorem served_as_carried {near : Network σ} {far : Network τ} {asking : Network υ}
    (hnear : near.Reliable) (hfar : far.Reliable) (hasking : asking.Reliable) (settings : Settings)
    (henabled : settings.transfers.enabled = true) (entry : Entry) (files : FileTree) (disk : Disk)
    (s : σ) (u : τ) (w : υ) (peer : String) :
    let here := near.recorded.transferLocal settings entry (.silent files disk s)
    let asked := asking.recorded.trigger settings entry (.silent files disk w)
    (∃ e, entry.encode = .error e ∧
      (here.1 = .error (.encode e) ∧ here.2.files = files ∧
        here.2.output.2 = [.connect settings.target]) ∧
      asked.1 = .error (.encode e) ∧ asked.2.files = files ∧
        asked.2.output.2 = [.connect settings.ingress]) ∨
    ((∃ record, entry.encode = .ok record) ∧ (∀ e, here.1 ≠ .error (.encode e)) ∧
      asked.1 = .ok () ∧ asked.2.files = files ∧
      ∃ (frame : Channel.Note) (daemon : Daemon (τ × List Call)),
        asked.2.output.2 = [.connect settings.ingress, .send settings.ingress frame] ∧
        (Daemon.start far.recorded settings (.silent files disk u)).1 = .ok daemon ∧
        let served := (daemon.receive peer frame.bytes).finishTransfers far.recorded
        ∃ (sent sent' : List Channel.Note) (p : Pool) (j : Pool.Job),
          here.2.output.2 = .connect settings.target :: sent.map (.send settings.target) ∧
          served.site.output.2.2 =
            .bind settings.ingress :: .connect settings.target ::
              sent'.map (.send settings.target) ∧
          served.intake = .pool p ∧ p.jobs = [j] ∧ j.stage = .retired ∧
          j.transfer.isOver = true ∧
          (Channel.TimeAfter settings.channel.burstInterval sent →
            Channel.TimeAfter settings.channel.burstInterval sent' →
            sent.map (Channel.timeless ·.bytes) = sent'.map (Channel.timeless ·.bytes) ∧
              here.2.files = served.site.files ∧ here.1 = j.transfer.answer)) := by
  intro here asked
  cases hencode : entry.encode with
  | error e => exact Or.inl ⟨e, rfl, hnear.refused hasking henabled hencode files disk s w⟩
  | ok record =>
    obtain ⟨hasked, hsame, frame, hbytes, hframe⟩ :=
      hasking.trigger_eq hencode settings files disk w
    obtain ⟨a, s', log, hanswer, hfiles, houtput⟩ :=
      hnear.transferLocal_eq henabled hencode files disk s
    obtain ⟨daemon, b, u', log', hstart, hintake, hsocket, hsite⟩ :=
      hfar.start_eq henabled files disk u
    have hdecode := Entry.decode_of_encode hencode
    -- the daemon's pool is the one that the transfer from here has
    obtain ⟨htaken, htold, hkept⟩ := Daemon.receive_frame hintake hdecode peer
    rw [← hbytes] at htaken htold hkept
    rw [hsite] at htold
    obtain ⟨hintake', hsite'⟩ := Daemon.finishTransfers_of_pool htaken far.recorded
    rw [htold, hkept, hsocket] at hintake' hsite'
    -- both transfers come to their end, and nothing is sent elsewhere
    obtain ⟨sent, k, hsent, hk, -, -⟩ := near.exists_calls_job hdecode ⟨a, settings.target⟩
      settings.pool ⟨files, (.fresh settings.channel, s', [.connect settings.target]), log, disk⟩
    obtain ⟨sent', j, hsent', hj, hretired, hover⟩ :=
      far.exists_calls_job hdecode ⟨b, settings.target⟩ settings.pool
        (Site.tell ⟨files, (.fresh settings.channel, u',
          [.bind settings.ingress, .connect settings.target]), log', disk⟩
          [Pool.acceptedEvent entry])
    have hthis : here.1 = k.transfer.answer := by
      refine hanswer _ ?_
      rw [Pool.transfer?, hk]
      rfl
    refine Or.inr ⟨⟨record, rfl⟩, ?_, hasked, hsame, frame, daemon, hframe, hstart, sent, sent', _,
      j, ?_, ?_, hintake', hj, hretired, hover, ?_⟩
    · intro e he
      rw [hthis, Transfer.answer] at he
      split at he <;> exact absurd he (by simp)
    · rw [houtput, hsent]
      rfl
    · rw [hsite', hsent']
      rfl
    -- if no channel has thrown, what runs there runs here
    · intro htime htime'
      obtain ⟨hpool, hsites⟩ := Pool.drain_alike (handsAlike hnear hfar)
        ⟨rfl, rfl, inStep_fresh settings.channel s' u' rfl rfl⟩
        ((Pool.fresh settings.pool).add entry)
        (by rw [hsent, hsent', notes_append_sends, notes_append_sends]; exact ⟨htime, htime'⟩)
      have hdatagrams := hsites.output.sent
      rw [hsent, hsent', notes_append_sends, notes_append_sends] at hdatagrams
      refine ⟨hdatagrams, ?_, ?_⟩
      · rw [hsite', hfiles]
        exact hsites.files
      · rw [hpool] at hk
        rw [hthis, (List.cons.inj (hk.symm.trans hj)).1]

/-- **The network that writes down what it is asked to do can be relied on**, if its sockets can be
made. -/
theorem reliable_outbox (origin : Instant) (bound connected : SocketAddress) :
    (Outbox.network origin (.ok bound) (.ok connected)).Reliable where
  connects _ _ := ⟨connected, rfl⟩
  binds _ _ := ⟨bound, rfl⟩
  sends _ slices _ := ⟨slices.flatten.length, rfl⟩

/-- A file of two bytes is carried and removed, byte by byte and with a pause before the second
packet, here in the beginning and there after a second: each sends two datagrams to where messages
go, and they differ in their times only. -/
theorem served_as_carried_later :
    let settings := { Settings.default with
      transfers := { Settings.default.transfers with chunkSize := 1, burstCount := 1 } }
    let entry : Entry := ⟨Id.ft, Id.ft, "/f", true⟩
    let files := FileTree.empty.insertFile ["f"] [7, 8]
    let net := Outbox.network ⟨0⟩ (.ok settings.ingress) (.ok settings.target)
    let here := net.recorded.transferLocal settings entry (.silent files .sound (.empty ⟨0⟩))
    net.Reliable ∧ settings.transfers.enabled = true ∧
    (here.2.files.node? ["f"]).isNone = true ∧
    ∃ (frame : Channel.Note) (daemon : Daemon (Outbox × List Call)),
      (Daemon.start net.recorded settings (.silent files .sound (.empty ⟨1000000000⟩))).1 =
        .ok daemon ∧
      let served := (daemon.receive "me" frame.bytes).finishTransfers net.recorded
      ∃ sent sent' : List Channel.Note,
        here.2.output.2 = .connect settings.target :: sent.map (.send settings.target) ∧
        served.site.output.2.2 = .bind settings.ingress :: .connect settings.target ::
          sent'.map (.send settings.target) ∧
        sent.map (·.ended.nanos) = [0, 5000000] ∧
        sent'.map (·.ended.nanos) = [1000000000, 1005000000] ∧
        sent.map (Channel.timeless ·.bytes) = sent'.map (Channel.timeless ·.bytes) ∧
        here.2.files = served.site.files := by
  intro settings entry files net here
  have hnet : net.Reliable := reliable_outbox _ _ _
  have hgone : (here.2.files.node? ["f"]).isNone = true := by cbv
  have htimes : (notes here.2.output.2).map (·.ended.nanos) = [0, 5000000] := by cbv
  have hasked : (notes (net.recorded.trigger settings entry
      (.silent files .sound (.empty ⟨0⟩))).2.output.2).map (·.bytes) =
        [[2, 1, 0x46, 0x54, 0, 0, 0x46, 0x54, 0, 0, 1, 0, 2, 0x2F, 0x66]] := by cbv
  have hlater : (Daemon.start net.recorded settings
      (.silent files .sound (.empty ⟨1000000000⟩))).1.toOption.map (fun daemon =>
        (notes ((daemon.receive "me"
          [2, 1, 0x46, 0x54, 0, 0, 0x46, 0x54, 0, 0, 1, 0, 2, 0x2F, 0x66]).finishTransfers
            net.recorded).site.output.2.2).map (·.ended.nanos)) =
      some [1000000000, 1005000000] := by cbv
  -- each time is early enough, if the later one is
  have hearly {sent : List Channel.Note} {t t' : Nat} (hle : t ≤ t')
      (hlimit : t' + settings.channel.burstInterval < Instant.limit)
      (hsent : sent.map (·.ended.nanos) = [t, t']) :
      Channel.TimeAfter settings.channel.burstInterval sent := by
    intro note hmem _
    have htime : note.ended.nanos ∈ [t, t'] := hsent ▸ List.mem_map_of_mem hmem
    rcases List.mem_pair.mp htime with h | h <;> omega
  rcases served_as_carried hnet hnet hnet settings rfl entry files .sound (.empty ⟨0⟩)
      (.empty ⟨1000000000⟩) (.empty ⟨0⟩) "me" with ⟨e, -, ⟨-, -, hnone⟩, -⟩ |
    ⟨-, -, -, -, frame, daemon, hframe, hstart, sent, sent', p, j, hhere, hthere, -, -, -, -, hsame⟩
  · rw [show here.2.output.2 = _ from hnone] at htimes
    exact (List.cons_ne_nil _ _ htimes.symm).elim
  · rw [hframe] at hasked
    have hbytes : frame.bytes = _ := (List.cons.inj hasked).1
    rw [hstart, ← hbytes] at hlater
    have hsent : sent.map (·.ended.nanos) = [0, 5000000] := by
      rw [← htimes, show here.2.output.2 = _ from hhere]
      exact congrArg _ (notes_append_sends [.connect settings.target] settings.target sent).symm
    have hlater' : (notes ((daemon.receive "me" frame.bytes).finishTransfers
        net.recorded).site.output.2.2).map (·.ended.nanos) = [1000000000, 1005000000] :=
      Option.some.inj hlater
    have hsent' : sent'.map (·.ended.nanos) = [1000000000, 1005000000] := by
      rw [← hlater', hthere]
      exact congrArg _ (notes_append_sends [.bind settings.ingress, .connect settings.target]
        settings.target sent').symm
    obtain ⟨hdatagrams, hfiles, -⟩ :=
      hsame (hearly (by decide) (by decide) hsent) (hearly (by decide) (by decide) hsent')
    exact ⟨hnet, rfl, hgone, frame, daemon, hstart, sent, sent', hhere, hthere, hsent, hsent',
      hdatagrams, hfiles⟩

end Network

end LogCourier
