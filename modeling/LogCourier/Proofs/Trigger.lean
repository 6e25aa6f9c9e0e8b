import LogCourier.Proofs.Entry.Form
import LogCourier.Proofs.Router

/-!
# What becomes of a request

Who asks for a transfer has it written down, and hands what is written to a sink. The sink may be a
router close by, or the way to one that is far. This file says what comes of a request, whatever the
sink does, and that **far is as good as near**.

* **The sink is asked once, or not at all** (`LogCourier.Entry.request_recorded`): if the name of
  the file has a written form, the sink gets one record, and that is read as the entry again; if
  not, the sink never hears of it.
* **No request is too long for a frame** (`LogCourier.Entry.frame_of_encode`). The limit of a name
  is far below that of a datagram, so on its way out a request is refused only by what sends it.
* **A frame is routed as its record is dispatched** (`LogCourier.Router.routeFrame_cons_tag`). But
  it may arrive late, when other things have been asked for, and it is not the one who asks that
  waits for it. What carries a run is that **what waits makes up for the difference**: the frames on
  their way, once routed, bring the far router to where a near one is already
  (`LogCourier.Far.settled`).

The main statement is `LogCourier.Entry.handoff_exact`.
-/

namespace LogCourier

variable {σ : Type}

/-! ### One request -/

namespace Sink

/-- **The same sink, with a record of what it was asked to take.** -/
def recorded (sink : Sink σ) : Sink (σ × List (Record.Kind × Bytes)) where
  submit kind body := fun (s, asked) =>
    match sink.submit kind body s with
    | (answer, s) => (answer, s, asked ++ [(kind, body)])

end Sink

namespace Entry

section Request

variable {entry : Entry} {record : Bytes}

/-- **A record that was written is read as its entry.** -/
theorem decode_of_encode (h : entry.encode = .ok record) : decode record = .ok entry :=
  (decode_eq_ok_iff entry record).mpr ((encode_eq_ok_iff entry record).mp h)

/-- **A datagram holds it**, and the kind before it. -/
theorem frame_of_encode (h : entry.encode = .ok record) :
    Record.frame .fileTransfer record = .ok (Record.Kind.fileTransfer.tag :: record) := by
  have hname := entry.exists_encode_iff.mp ⟨record, h⟩
  have hfits := hname.2.1
  rw [encode_of_nameable hname] at h
  refine Router.frame_eq_ok_iff.mpr ⟨?_, rfl⟩
  rw [← Except.ok.inj h]
  simp only [Form.bytes, form, List.length_append, Id.length_bytes, List.length_cons,
    List.length_nil, Record.maxFrameLength]
  omega

/-- An entry that is written: the sink is asked, and its answer is the answer. -/
theorem request_of_encode (h : entry.encode = .ok record) (sink : Sink σ) (s : σ) :
    entry.request sink s =
      ((sink.submit .fileTransfer record s).1.map fun _ => [entry.requestedEvent],
        (sink.submit .fileTransfer record s).2) := by
  rcases hsubmit : sink.submit .fileTransfer record s with ⟨answer, s'⟩
  cases answer <;> simp only [request, h, hsubmit] <;> rfl

/-- One that is not: the sink is not asked. -/
theorem request_of_refused {refusal : EncodeError} (h : entry.encode = .error refusal)
    (sink : Sink σ) (s : σ) : entry.request sink s = (.error (.encode refusal), s) := by
  simp only [request, h]

/-- **A sink is asked once, or not at all**, and to write that down changes nothing. -/
theorem request_recorded (entry : Entry) (sink : Sink σ) (s : σ)
    (asked : List (Record.Kind × Bytes)) :
    entry.request sink.recorded (s, asked) =
      ((entry.request sink s).1, (entry.request sink s).2,
        asked ++ (entry.encode.toOption.map fun record => (.fileTransfer, record)).toList) := by
  cases hencode : entry.encode with
  | error refusal =>
    rw [request_of_refused hencode, request_of_refused hencode]
    exact congrArg (fun asked => (_, s, asked)) (List.append_nil asked).symm
  | ok record =>
    rw [request_of_encode hencode, request_of_encode hencode]
    rfl

/-- **On the way to a far router** a request becomes one frame, and is refused only by what sends
it. -/
theorem request_framed (h : entry.encode = .ok record)
    (send : Bytes → σ → Except IoError Unit × σ) (s : σ) :
    entry.request (.framed send) s =
      (((send (Record.Kind.fileTransfer.tag :: record) s).1.mapError Record.Error.io).map
          fun _ => [entry.requestedEvent],
        (send (Record.Kind.fileTransfer.tag :: record) s).2) := by
  rw [request_of_encode h]
  rcases hsend : send (Record.Kind.fileTransfer.tag :: record) s with ⟨answer, s'⟩
  cases answer <;> simp only [Sink.framed, frame_of_encode h, hsend] <;> rfl

end Request

/-- Ask for some transfers, one after the other. -/
def requestAll (sink : Sink σ) : List Entry → σ → List (Except Record.Error (List Event)) × σ
  | [], s => ([], s)
  | entry :: entries, s =>
    match entry.request sink s with
    | (answer, s) =>
      match requestAll sink entries s with
      | (answers, s) => (answer :: answers, s)

end Entry

/-! ### A router that is far -/

/-- The way to a router on which frames wait until they arrive. -/
def Sink.queued : Sink (List Bytes) :=
  .framed fun frame waiting => (.ok (), waiting ++ [frame])

/-- A router that is far. -/
structure Far (σ : Type) where
  /-- The frames on their way, the next to arrive first. -/
  waiting : List Bytes
  /-- The router. -/
  router : Router
  /-- The state of its takers. -/
  takers : σ

namespace Far

/-- What may happen next. -/
inductive Act
  /-- Somebody asks for a transfer. -/
  | asks (entry : Entry)
  /-- A frame arrives, if there is one. -/
  | arrives

/-- What is asked for. -/
def Act.entry? : Act → Option Entry
  | asks entry => some entry
  | arrives => none

variable (h : Router.Handlers σ)

/-- What comes of it, and what whoever asks is answered. -/
def act (f : Far σ) : Act → Option (Except Record.Error (List Event)) × Far σ
  | .asks entry =>
    match entry.request .queued f.waiting with
    | (answer, waiting) => (some answer, { f with waiting })
  | .arrives =>
    match f.waiting with
    | [] => (none, f)
    | frame :: waiting =>
      match f.router.routeFrame h frame f.takers with
      | (_, router, takers) => (none, { waiting, router, takers })

/-- One thing after another. -/
def run : List Act → Far σ → List (Except Record.Error (List Event)) × Far σ
  | [], f => ([], f)
  | a :: acts, f =>
    match f.act h a with
    | (answer, f) =>
      match run acts f with
      | (answers, f) => (answer.toList ++ answers, f)

/-- **What a far router will have come to** when all that is on its way has arrived. -/
def settled (f : Far σ) : Router × σ :=
  f.waiting.foldl (fun x frame => (x.1.routeFrame h frame x.2).2) (f.router, f.takers)

/-- **A request is answered by a far router as by a near one**, and leaves as much to arrive as a
near one does at once. -/
theorem settled_asks (f : Far σ) (entry : Entry) :
    (f.act h (.asks entry)).1 = some (entry.request (.ofRouter h) (f.settled h)).1 ∧
      (f.act h (.asks entry)).2.settled h = (entry.request (.ofRouter h) (f.settled h)).2 := by
  cases hencode : entry.encode with
  | error refusal => simp [act, settled, Entry.request_of_refused hencode]
  | ok record =>
    simp only [act, Sink.queued, Entry.request_framed hencode, Entry.request_of_encode hencode,
      settled, List.foldl_append, List.foldl_cons, List.foldl_nil, Router.routeFrame_cons_tag,
      Sink.ofRouter]
    exact ⟨rfl, trivial⟩

/-- An arrival leaves that much less. -/
theorem settled_arrives (f : Far σ) :
    (f.act h .arrives).1 = none ∧ (f.act h .arrives).2.settled h = f.settled h := by
  obtain ⟨waiting, router, takers⟩ := f
  cases waiting <;> exact ⟨rfl, rfl⟩

/-- **So a run comes to what it comes to nearby**, by induction on what happens. -/
theorem settled_run (acts : List Act) (f : Far σ) :
    (f.run h acts).1 =
        (Entry.requestAll (.ofRouter h) (acts.filterMap Act.entry?) (f.settled h)).1 ∧
      (f.run h acts).2.settled h =
        (Entry.requestAll (.ofRouter h) (acts.filterMap Act.entry?) (f.settled h)).2 := by
  induction acts generalizing f with
  | nil => exact ⟨rfl, rfl⟩
  | cons a acts ih =>
    have hrun : f.run h (a :: acts) =
        ((f.act h a).1.toList ++ ((f.act h a).2.run h acts).1, ((f.act h a).2.run h acts).2) := rfl
    obtain ⟨hanswers, hlast⟩ := ih (f.act h a).2
    rw [hrun, hanswers, hlast]
    cases a with
    | asks entry =>
      obtain ⟨hanswer, hsettled⟩ := f.settled_asks h entry
      rw [hanswer, hsettled]
      exact ⟨rfl, rfl⟩
    | arrives =>
      obtain ⟨hanswer, hsettled⟩ := f.settled_arrives h
      rw [hanswer, hsettled]
      exact ⟨rfl, rfl⟩

end Far

/-! ### All of it -/

namespace Entry

/-- Which refusal it is, if a name has no written form. -/
theorem encode_of_unfit {entry : Entry} (h : (Bytes.ofText entry.fileName).length = 0 ∨
    4096 < (Bytes.ofText entry.fileName).length) :
    entry.encode = .error (.nameLength (Bytes.ofText entry.fileName).length) :=
  if_pos h

theorem encode_of_nul {entry : Entry} (hsome : 1 ≤ (Bytes.ofText entry.fileName).length)
    (hfits : (Bytes.ofText entry.fileName).length ≤ 4096)
    (hnul : 0 ∈ Bytes.ofText entry.fileName) : entry.encode = .error .nameNul := by
  have hrange : ¬ ((Bytes.ofText entry.fileName).length = 0 ∨
      maxNameLength < (Bytes.ofText entry.fileName).length) := by
    rw [maxNameLength]
    omega
  simp only [encode, if_neg hrange, if_pos hnul]

/-- **A request is handed off once or not at all, and it does not matter how far.**

Whoever asks for a transfer, and whatever sink is asked: to write down what the sink is asked
changes nothing. If the name of the file is empty or too long, or contains NUL, the request is
refused for that, and the sink is not asked. Otherwise the sink is asked once, to take a transfer
record which is read as the entry again, and the request is answered as the sink answers: it is
granted if the sink takes the record, and refused with the sink's own refusal if not.

On the way to a far router no request is refused because its frame is too long. What is sent is one
frame, and only what sends it can refuse.

For whatever takers: a frame that arrives does to the router and its takers what the request does to
a router that is near. And whatever is asked for and whenever what arrives, whoever asks is answered
as by a router that is near, and when all that is on its way has arrived, the far router and its
takers are as the near ones are. -/
theorem handoff_exact :
    (∀ (entry : Entry) (sink : Sink σ) (s : σ),
      let name := Bytes.ofText entry.fileName
      let asked := entry.request sink.recorded (s, [])
      entry.request sink s = (asked.1, asked.2.1) ∧
      (name.length = 0 ∨ 4096 < name.length →
        asked = (.error (.encode (.nameLength name.length)), s, [])) ∧
      (1 ≤ name.length → name.length ≤ 4096 → 0 ∈ name →
        asked = (.error (.encode .nameNul), s, [])) ∧
      (1 ≤ name.length → name.length ≤ 4096 → 0 ∉ name →
        ∃ record, decode record = .ok entry ∧ asked.2.2 = [(.fileTransfer, record)] ∧
          asked.2.1 = (sink.submit .fileTransfer record s).2 ∧
          asked.1 = (sink.submit .fileTransfer record s).1.map fun _ => [entry.requestedEvent])) ∧
    (∀ (entry : Entry) (send : Bytes → σ → Except IoError Unit × σ) (s : σ),
      (∀ n, (entry.request (.framed send) s).1 ≠ .error (.frameTooLarge n)) ∧
      ∀ record, entry.encode = .ok record →
        let frame := Record.Kind.fileTransfer.tag :: record
        frame.length ≤ Record.maxFrameLength ∧
        entry.request (.framed send) s =
          (((send frame s).1.mapError Record.Error.io).map fun _ => [entry.requestedEvent],
            (send frame s).2)) ∧
    ∀ (h : Router.Handlers σ) (router : Router) (s : σ),
      (∀ (entry : Entry) (record : Bytes), entry.encode = .ok record →
        router.routeFrame h (Record.Kind.fileTransfer.tag :: record) s =
          (.ok .fileTransfer, (entry.request (.ofRouter h) (router, s)).2)) ∧
      ∀ acts : List Far.Act,
        let near := requestAll (.ofRouter h) (acts.filterMap Far.Act.entry?) (router, s)
        let far := Far.run h acts ⟨[], router, s⟩
        far.1 = near.1 ∧ far.2.settled h = near.2 ∧
          (far.2.waiting = [] → (far.2.router, far.2.takers) = near.2) := by
  refine ⟨fun entry sink s => ⟨?_, ?_, ?_, ?_⟩, fun entry send s => ⟨?_, ?_⟩,
    fun h router s => ⟨?_, ?_⟩⟩
  · rw [request_recorded]
  · intro hunfit
    exact request_of_refused (encode_of_unfit hunfit) _ _
  · intro hsome hfits hnul
    exact request_of_refused (encode_of_nul hsome hfits hnul) _ _
  · intro hsome hfits hnul
    obtain ⟨record, hencode⟩ := entry.exists_encode_iff.mpr ⟨hsome, hfits, hnul⟩
    refine ⟨record, decode_of_encode hencode, ?_, ?_, ?_⟩ <;> rw [request_of_encode hencode] <;> rfl
  · intro n
    cases hencode : entry.encode with
    | error refusal =>
      rw [request_of_refused hencode]
      exact fun hlong => absurd (Except.error.inj hlong) (by simp)
    | ok record =>
      rw [request_framed hencode]
      rcases (send (Record.Kind.fileTransfer.tag :: record) s).1 with e | _
      · exact fun hlong => absurd (Except.error.inj hlong) (by simp)
      · exact fun hlong => absurd hlong (by simp [Except.mapError, Except.map])
  · intro record hencode
    exact ⟨(Router.frame_eq_ok_iff.mp (frame_of_encode hencode)).1, request_framed hencode send s⟩
  · intro entry record hencode
    rw [Router.routeFrame_cons_tag, request_of_encode hencode]
    rfl
  · intro acts near far
    obtain ⟨hanswers, hsettled⟩ := Far.settled_run h acts ⟨[], router, s⟩
    refine ⟨hanswers, hsettled, fun hnothing => ?_⟩
    rw [← show far.2.settled h = near.2 from hsettled, Far.settled, hnothing]
    rfl

/-- Two requests are granted and one is refused before anything arrives. Both records come to
whoever takes them, each as the entry that was asked for. -/
theorem handoff_exact_late :
    let entry : Entry := ⟨Id.ft, Id.ecu1, "/f", true⟩
    let nameless : Entry := ⟨Id.ft, Id.ecu1, "", false⟩
    let acts : List Far.Act := [.asks entry, .asks nameless, .asks entry, .arrives, .arrives]
    let far := Far.run Router.filesOnly.recorded acts ⟨[], .fresh, (), []⟩
    far.2.waiting = [] ∧
      far.1 = [.ok [entry.requestedEvent], .error (.encode (.nameLength 0)),
        .ok [entry.requestedEvent]] ∧
      far.2.router.fileTransferRecords = 2 ∧
      ∃ record, decode record = .ok entry ∧
        far.2.takers.2 = [(.fileTransfer, record), (.fileTransfer, record)] := by
  intro entry nameless acts far
  obtain ⟨-, -, hfar⟩ := @handoff_exact (Unit × List (Record.Kind × Bytes))
  obtain ⟨hanswers, -, hnear⟩ := (hfar Router.filesOnly.recorded .fresh ((), [])).2 acts
  have hnothing : far.2.waiting = [] := rfl
  have hsame := hnear hnothing
  refine ⟨hnothing, hanswers.trans rfl, ?_,
    [0x01, 0x46, 0x54, 0, 0, 0x45, 0x43, 0x55, 0x31, 0x01, 0x00, 0x02, 0x2F, 0x66], rfl, ?_⟩
  · exact (congrArg (fun x => x.1.fileTransferRecords) hsame).trans rfl
  · refine (congrArg (fun x => x.2.2) hsame).trans ?_
    decide

end Entry

end LogCourier
