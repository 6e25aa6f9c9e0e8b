import LogCourier.Trigger
import Mathlib.Data.List.Basic

/-!
# What a router hands on

There are four ways to bring something to a router, and they call one another: a frame is routed by
its tag, a body that is routed is dispatched, and so is one that is submitted. Whichever way it
comes, what is brought is one of three things (`LogCourier.Router.Input`): a record, a body of an
unknown kind, or nothing at all. **Everything that a router does depends on that only**: what is
counted, who gets the body, and what is answered (`LogCourier.Router.Call.perform_recorded`).

What the takers get is written down beside their state (`LogCourier.Router.Handlers.recorded`). So
a run of calls comes to a list of deliveries, and it has to be seen that **they are the records
brought, each once and in their order** – but for log lines, if nobody takes those – and that each
counter has counted its kind of input.

The main statement is `LogCourier.Router.routing_accounted`.
-/

namespace LogCourier

namespace Router

variable {σ : Type}

/-! ### What is brought -/

/-- What somebody asks of a router. -/
inductive Call
  /-- To route a body by its tag. -/
  | route (tag : UInt8) (body : Bytes)
  /-- To route a frame. -/
  | routeFrame (frame : Bytes)
  /-- To dispatch a body of that kind. -/
  | dispatch (kind : Record.Kind) (body : Bytes)
  /-- To take a body of that kind as a sink. -/
  | submit (kind : Record.Kind) (body : Bytes)

/-- What is brought to a router. -/
inductive Input
  /-- A record. -/
  | record (kind : Record.Kind) (body : Bytes)
  /-- A body with a tag that no kind has. -/
  | unknown (tag : UInt8)
  /-- A frame without even a tag. -/
  | empty
  deriving DecidableEq

namespace Input

/-- A body with a tag: `01` is for log lines and `02` for transfer entries. -/
def tagged (tag : UInt8) (body : Bytes) : Input :=
  if tag = 0x01 then record .log body
  else if tag = 0x02 then record .fileTransfer body
  else unknown tag

/-- The record that is brought, if one is. -/
def record? : Input → Option (Record.Kind × Bytes)
  | record kind body => some (kind, body)
  | unknown _ | empty => none

/-- Whether a record of that kind is brought. -/
def isRecord (kind : Record.Kind) : Input → Bool
  | record k _ => k = kind
  | unknown _ | empty => false

/-- Whether a tag is brought that no kind has. -/
def isUnknown : Input → Bool
  | unknown _ => true
  | record .. | empty => false

/-- What there is to say of an input: its kind, or why there is none. -/
def verdict : Input → Except Record.Error Record.Kind
  | record kind _ => .ok kind
  | unknown tag => .error (.unknownKind tag)
  | empty => .error .emptyFrame

/-- Each input is of exactly one sort. -/
theorem sort_eq_one (i : Input) :
    (if i.isRecord .fileTransfer then 1 else 0) + (if i.isRecord .log then 1 else 0) +
      (if i.isUnknown then 1 else 0) + (if i = empty then 1 else 0) = 1 := by
  rcases i with ⟨kind, body⟩ | tag | _
  · cases kind <;> rfl
  · rfl
  · rfl

end Input

namespace Call

/-- What a call brings. -/
def input : Call → Input
  | route tag body => .tagged tag body
  | routeFrame [] => .empty
  | routeFrame (tag :: body) => .tagged tag body
  | dispatch kind body | submit kind body => .record kind body

/-- What a call is answered: whoever routes is told the kind, and the others know it. -/
def answer (c : Call) : Except Record.Error (Option Record.Kind) :=
  match c with
  | route .. | routeFrame _ => c.input.verdict.map some
  | dispatch .. | submit .. => .ok none

/-- One call. -/
def perform (h : Handlers σ) (r : Router) (s : σ) :
    Call → Except Record.Error (Option Record.Kind) × Router × σ
  | route tag body =>
    match r.route h tag body s with
    | (answer, r, s) => (answer.map some, r, s)
  | routeFrame frame =>
    match r.routeFrame h frame s with
    | (answer, r, s) => (answer.map some, r, s)
  | dispatch kind body => (.ok none, r.dispatch h kind body s)
  | submit kind body =>
    match (Sink.ofRouter h).submit kind body (r, s) with
    | (answer, r, s) => (answer.map fun _ => none, r, s)

/-- Some calls, one after the other, and what they are answered. -/
def performAll (h : Handlers σ) :
    List Call → Router → σ → List (Except Record.Error (Option Record.Kind)) × Router × σ
  | [], r, s => ([], r, s)
  | c :: cs, r, s =>
    match c.perform h r s with
    | (answer, r, s) =>
      match performAll h cs r s with
      | (answers, r, s) => (answer :: answers, r, s)

end Call

/-! ### What is counted and handed on -/

/-- The router when it has counted an input. -/
def count (r : Router) : Input → Router
  | .record .fileTransfer _ => { r with fileTransferRecords := r.fileTransferRecords + 1 }
  | .record .log _ => { r with logRecords := r.logRecords + 1 }
  | .unknown _ => { r with unknownRecords := r.unknownRecords + 1 }
  | .empty => { r with emptyFrames := r.emptyFrames + 1 }

namespace Handlers

/-- **The same takers, with a record of what they get.** -/
def recorded (h : Handlers σ) : Handlers (σ × List (Record.Kind × Bytes)) where
  fileTransfer body := fun (s, got) => (h.fileTransfer body s, got ++ [(.fileTransfer, body)])
  log := h.log.map fun take body (s, got) => (take body s, got ++ [(.log, body)])
  tell event := fun (s, got) => (h.tell event s, got)

/-- Whether anybody takes records of that kind. -/
def takes (h : Handlers σ) : Record.Kind → Bool
  | .fileTransfer => true
  | .log => h.log.isSome

/-- What the takers get of an input. -/
def delivered (h : Handlers σ) (i : Input) : List (Record.Kind × Bytes) :=
  i.record?.toList.filter fun x => h.takes x.1

end Handlers

/-- The bodies of that kind among some deliveries. -/
def bodiesOf (kind : Record.Kind) (got : List (Record.Kind × Bytes)) : List Bytes :=
  (got.filter (·.1 = kind)).map Prod.snd

/-! ### One call -/

/-- A body that is dispatched is counted. -/
theorem dispatch_fst (h : Handlers σ) (kind : Record.Kind) (body : Bytes) (r : Router) (s : σ) :
    (r.dispatch h kind body s).1 = r.count (.record kind body) := by
  cases kind <;> rfl

/-- It is delivered if anybody takes its kind. -/
theorem dispatch_recorded (h : Handlers σ) (kind : Record.Kind) (body : Bytes) (r : Router) (s : σ)
    (got : List (Record.Kind × Bytes)) :
    (r.dispatch h.recorded kind body (s, got)).2 =
      ((r.dispatch h kind body s).2, got ++ h.delivered (.record kind body)) := by
  cases kind with
  | fileTransfer => rfl
  | log =>
    cases hlog : h.log <;>
      simp [dispatch, Handlers.recorded, Handlers.delivered, Input.record?, Handlers.takes, hlog]

/-- A body with a tag is a record of the kind that the tag has, or of none. -/
theorem ofTag_cases (tag : UInt8) (body : Bytes) :
    (∃ kind, Record.Kind.ofTag tag = .ok kind ∧ Input.tagged tag body = .record kind body) ∨
      (Record.Kind.ofTag tag = .error (.unknownKind tag) ∧
        Input.tagged tag body = .unknown tag) := by
  unfold Record.Kind.ofTag Input.tagged
  split
  · exact Or.inl ⟨_, rfl, rfl⟩
  · split
    · exact Or.inl ⟨_, rfl, rfl⟩
    · exact Or.inr ⟨rfl, rfl⟩

/-- **A body with a tag is answered and counted by what it is.** -/
theorem route_eq (h : Handlers σ) (tag : UInt8) (body : Bytes) (r : Router) (s : σ) :
    r.route h tag body s =
      ((Input.tagged tag body).verdict, r.count (.tagged tag body),
        (r.route h tag body s).2.2) := by
  rcases ofTag_cases tag body with ⟨kind, htag, hinput⟩ | ⟨htag, hinput⟩
  · simp only [route, htag, hinput, ← dispatch_fst h kind body r s]
    rfl
  · simp only [route, htag, hinput]
    rfl

theorem route_recorded (h : Handlers σ) (tag : UInt8) (body : Bytes) (r : Router) (s : σ)
    (got : List (Record.Kind × Bytes)) :
    (r.route h.recorded tag body (s, got)).2.2 =
      ((r.route h tag body s).2.2, got ++ h.delivered (.tagged tag body)) := by
  rcases ofTag_cases tag body with ⟨kind, htag, hinput⟩ | ⟨htag, hinput⟩
  · simp only [route, htag, hinput, dispatch_recorded]
  · simp [route, htag, hinput, Handlers.recorded, Handlers.delivered, Input.record?]

/-- **So is a frame.** -/
theorem routeFrame_eq (h : Handlers σ) (frame : Bytes) (r : Router) (s : σ) :
    r.routeFrame h frame s =
      ((Call.routeFrame frame).input.verdict, r.count (Call.routeFrame frame).input,
        (r.routeFrame h frame s).2.2) := by
  cases frame with
  | nil => rfl
  | cons tag body => exact route_eq h tag body r s

theorem routeFrame_recorded (h : Handlers σ) (frame : Bytes) (r : Router) (s : σ)
    (got : List (Record.Kind × Bytes)) :
    (r.routeFrame h.recorded frame (s, got)).2.2 =
      ((r.routeFrame h frame s).2.2, got ++ h.delivered (Call.routeFrame frame).input) := by
  cases frame with
  | nil => simp [routeFrame, Call.input, Handlers.delivered, Input.record?]
  | cons tag body => exact route_recorded h tag body r s got

namespace Call

/-- **Every call is answered and counted by what it brings**, whoever takes records. -/
theorem perform_eq (h : Handlers σ) (c : Call) (r : Router) (s : σ) :
    c.perform h r s = (c.answer, r.count c.input, (c.perform h r s).2.2) := by
  cases c with
  | route tag body =>
    simp only [perform]
    rw [route_eq]
    rfl
  | routeFrame frame =>
    simp only [perform]
    rw [routeFrame_eq]
    rfl
  | dispatch kind body =>
    simp only [perform, ← dispatch_fst h kind body r s, input]
    rfl
  | submit kind body =>
    simp only [perform, Sink.ofRouter, ← dispatch_fst h kind body r s, input]
    rfl

/-- **What it brings is delivered**, and to record that changes nothing. -/
theorem perform_recorded (h : Handlers σ) (c : Call) (r : Router) (s : σ)
    (got : List (Record.Kind × Bytes)) :
    (c.perform h.recorded r (s, got)).2.2 =
      ((c.perform h r s).2.2, got ++ h.delivered c.input) := by
  cases c with
  | route tag body => exact route_recorded h tag body r s got
  | routeFrame frame => exact routeFrame_recorded h frame r s got
  | dispatch kind body => exact dispatch_recorded h kind body r s got
  | submit kind body => exact dispatch_recorded h kind body r s got

/-! ### Some calls -/

/-- **Some calls are answered and counted one by one.** -/
theorem performAll_eq (h : Handlers σ) (cs : List Call) (r : Router) (s : σ) :
    performAll h cs r s =
      (cs.map answer, (cs.map input).foldl count r, (performAll h cs r s).2.2) := by
  induction cs generalizing r s with
  | nil => rfl
  | cons c cs ih =>
    simp only [performAll]
    rw [c.perform_eq h r s]
    simp only []
    rw [ih]
    rfl

/-- **What is delivered is what they bring**, in their order. -/
theorem performAll_recorded (h : Handlers σ) (cs : List Call) (r : Router) (s : σ)
    (got : List (Record.Kind × Bytes)) :
    (performAll h.recorded cs r (s, got)).2.2 =
      ((performAll h cs r s).2.2, got ++ cs.flatMap fun c => h.delivered c.input) := by
  induction cs generalizing r s got with
  | nil => simp [performAll]
  | cons c cs ih =>
    simp only [performAll]
    rw [c.perform_eq h r s, c.perform_eq h.recorded r (s, got), perform_recorded]
    simp only []
    rw [ih, List.flatMap_cons, List.append_assoc]

/-- The record that a call brings, if it brings one. -/
def record? (c : Call) : Option (Record.Kind × Bytes) :=
  c.input.record?

/-- What is delivered are the records, but for those that nobody takes. -/
theorem flatMap_delivered (h : Handlers σ) (cs : List Call) :
    (cs.flatMap fun c => h.delivered c.input) =
      (cs.filterMap record?).filter fun x => h.takes x.1 := by
  rw [List.filterMap_eq_flatMap_toList, List.filter_flatMap]
  rfl

end Call

/-! ### What has been counted -/

/-- **Each counter counts its sort of input.** -/
theorem foldl_count (is : List Input) (r : Router) :
    is.foldl count r =
      { logRecords := r.logRecords + is.countP (Input.isRecord .log)
        fileTransferRecords := r.fileTransferRecords + is.countP (Input.isRecord .fileTransfer)
        unknownRecords := r.unknownRecords + is.countP Input.isUnknown
        emptyFrames := r.emptyFrames + is.countP (· = .empty) } := by
  induction is generalizing r with
  | nil => rfl
  | cons i is ih =>
    rw [List.foldl_cons, ih]
    simp only [List.countP_cons]
    rcases i with ⟨_ | _, body⟩ | tag | _ <;>
      simp [count, Input.isRecord, Input.isUnknown, Nat.add_assoc, Nat.add_comm 1]

/-- No input is counted twice, and none is left out. -/
theorem countP_add_eq_length (is : List Input) :
    is.countP (Input.isRecord .fileTransfer) + is.countP (Input.isRecord .log) +
      is.countP Input.isUnknown + is.countP (· = .empty) = is.length := by
  induction is with
  | nil => rfl
  | cons i is ih =>
    have hone := i.sort_eq_one
    simp only [List.countP_cons, List.length_cons, decide_eq_true_eq]
    omega

/-! ### Frames -/

/-- A record has a frame if a datagram holds it. -/
theorem frame_eq_ok_iff {kind : Record.Kind} {body frame : Bytes} :
    Record.frame kind body = .ok frame ↔
      body.length + 1 ≤ Record.maxFrameLength ∧ frame = kind.tag :: body := by
  unfold Record.frame
  split
  · exact ⟨fun h => absurd h (by simp), fun h => by omega⟩
  · rw [Except.ok.injEq]
    exact ⟨fun h => ⟨by omega, h.symm⟩, fun h => h.2.symm⟩

/-- What the frame of a record brings is that record. -/
theorem input_routeFrame_cons_tag (kind : Record.Kind) (body : Bytes) :
    (Call.routeFrame (kind.tag :: body)).input = .record kind body := by
  cases kind <;> rfl

/-- **A frame that brings a record is its frame.** -/
theorem eq_cons_tag_of_input {frame body : Bytes} {kind : Record.Kind}
    (h : (Call.routeFrame frame).input = .record kind body) : frame = kind.tag :: body := by
  cases frame with
  | nil => exact absurd h (by simp [Call.input])
  | cons tag rest =>
    simp only [Call.input, Input.tagged] at h
    split at h
    · rename_i htag
      obtain ⟨rfl, rfl⟩ := Input.record.inj h
      rw [htag]
      rfl
    · split at h
      · rename_i htag
        obtain ⟨rfl, rfl⟩ := Input.record.inj h
        rw [htag]
        rfl
      · exact absurd h (by simp)

/-- A frame is accepted if it brings a record. -/
theorem verdict_eq_ok_iff {i : Input} {kind : Record.Kind} :
    i.verdict = .ok kind ↔ ∃ body, i = .record kind body := by
  cases i <;> simp [Input.verdict]

/-- The frame of a record is routed as the record is dispatched. -/
theorem routeFrame_cons_tag (h : Handlers σ) (kind : Record.Kind) (body : Bytes) (r : Router)
    (s : σ) :
    r.routeFrame h (kind.tag :: body) s = (.ok kind, r.dispatch h kind body s) := by
  simp only [routeFrame, route, Record.Kind.ofTag_tag]

/-! ### All of it -/

/-- The bodies that those who take a kind get are all there are, or none if nobody takes it. -/
theorem bodiesOf_filter_takes (h : Handlers σ) (kind : Record.Kind)
    (records : List (Record.Kind × Bytes)) :
    bodiesOf kind (records.filter fun x => h.takes x.1) =
      if h.takes kind then bodiesOf kind records else [] := by
  unfold bodiesOf
  rw [List.filter_filter]
  split
  · rename_i htakes
    congr 1
    refine List.filter_congr fun x _ => ?_
    by_cases hkind : x.1 = kind <;> simp [hkind, htakes]
  · rename_i htakes
    rw [List.filter_eq_nil_iff.mpr, List.map_nil]
    intro x _
    by_cases hkind : x.1 = kind <;> simp [hkind, htakes]

/-- **Every record is counted once and delivered once.**

Whatever is asked of a router that has counted nothing, in whatever order, and whoever takes
records:

* what is delivered are the records brought, each once, unchanged and in their order, but for log
  lines if nobody takes those; nothing of any other input is;
* the counters have counted the inputs of their sorts, and together all of them;
* whoever routes is told the kind of a record that was delivered, and otherwise what was wrong.

A record has a frame exactly if that has at most 65507 bytes; to route the frame is to deliver the
record; and whatever frame of at most that size is accepted is the frame of the record delivered. -/
theorem routing_accounted (h : Handlers σ) (cs : List Call) (s : σ) :
    let run := Call.performAll h.recorded cs fresh (s, [])
    let records := cs.filterMap Call.record?
    let inputs := cs.map Call.input
    Call.performAll h cs fresh s = (run.1, run.2.1, run.2.2.1) ∧
    (run.2.2.2 = records.filter (fun x => h.takes x.1) ∧
      bodiesOf .fileTransfer run.2.2.2 = bodiesOf .fileTransfer records ∧
      bodiesOf .log run.2.2.2 = if h.log.isSome then bodiesOf .log records else []) ∧
    (run.2.1.fileTransferRecords = inputs.countP (Input.isRecord .fileTransfer) ∧
      run.2.1.logRecords = inputs.countP (Input.isRecord .log) ∧
      run.2.1.unknownRecords = inputs.countP Input.isUnknown ∧
      run.2.1.emptyFrames = inputs.countP (· = .empty) ∧
      run.2.1.fileTransferRecords + run.2.1.logRecords + run.2.1.unknownRecords +
        run.2.1.emptyFrames = cs.length) ∧
    run.1 = cs.map Call.answer ∧
    (∀ (kind : Record.Kind) (body : Bytes),
      (∃ frame, Record.frame kind body = .ok frame) ↔ body.length + 1 ≤ 65507) ∧
    (∀ (kind : Record.Kind) (body frame : Bytes), Record.frame kind body = .ok frame →
      ∀ (r : Router) (s : σ) (got : List (Record.Kind × Bytes)),
        r.routeFrame h.recorded frame (s, got) =
          (.ok kind, r.dispatch h.recorded kind body (s, got)) ∧
        (r.routeFrame h.recorded frame (s, got)).2.2.2 =
          got ++ if h.takes kind then [(kind, body)] else []) ∧
    ∀ frame : Bytes, frame.length ≤ 65507 → ∀ (r : Router) (s : σ) (kind : Record.Kind),
      (r.routeFrame h frame s).1 = .ok kind →
      ∃ body, Record.frame kind body = .ok frame ∧
        r.routeFrame h frame s = (.ok kind, r.dispatch h kind body s) := by
  intro run records inputs
  have hplain := Call.performAll_eq h cs fresh s
  have hrecorded := Call.performAll_eq h.recorded cs fresh (s, [])
  have hgot := Call.performAll_recorded h cs fresh s []
  rw [Call.flatMap_delivered, List.nil_append] at hgot
  have hcounted : run.2.1 = _ := (congrArg (fun x => x.2.1) hrecorded).trans (foldl_count _ _)
  have hanswers : run.1 = cs.map Call.answer := congrArg Prod.fst hrecorded
  have hdelivered : run.2.2.2 = records.filter fun x => h.takes x.1 := congrArg Prod.snd hgot
  refine ⟨?_, ⟨hdelivered, ?_, ?_⟩, ?_, hanswers, ?_, ?_, ?_⟩
  · rw [hplain, hanswers, hcounted, foldl_count]
    exact congrArg _ (congrArg _ (congrArg Prod.fst hgot).symm)
  · rw [hdelivered, bodiesOf_filter_takes]
    rfl
  · rw [hdelivered, bodiesOf_filter_takes]
    rfl
  · have hall := countP_add_eq_length inputs
    rw [List.length_map] at hall
    rw [hcounted]
    simp only [fresh, Nat.zero_add]
    exact ⟨rfl, rfl, rfl, rfl, hall⟩
  · intro kind body
    exact ⟨fun ⟨frame, hframe⟩ => (frame_eq_ok_iff.mp hframe).1,
      fun hle => ⟨_, frame_eq_ok_iff.mpr ⟨hle, rfl⟩⟩⟩
  · intro kind body frame hframe r s got
    obtain ⟨-, rfl⟩ := frame_eq_ok_iff.mp hframe
    refine ⟨routeFrame_cons_tag h.recorded kind body r (s, got), ?_⟩
    rw [routeFrame_recorded, input_routeFrame_cons_tag]
    cases htakes : h.takes kind <;> simp [Handlers.delivered, Input.record?, htakes]
  · intro frame hle r s kind hok
    rw [routeFrame_eq, verdict_eq_ok_iff] at hok
    obtain ⟨body, hinput⟩ := hok
    obtain rfl := eq_cons_tag_of_input hinput
    exact ⟨body, frame_eq_ok_iff.mpr ⟨hle, rfl⟩, routeFrame_cons_tag h kind body r s⟩

/-- Takers of transfer entries only. -/
def filesOnly : Handlers Unit where
  fileTransfer _ s := s
  log := none
  tell _ s := s

/-- Five calls, each of a sort of its own: nobody takes the log line, and it is counted. -/
theorem routing_accounted_five :
    let cs : List Call := [.routeFrame [0x02, 0x07], .submit .fileTransfer [0x08],
      .route 0x09 [0x01], .routeFrame [], .dispatch .log [0x05]]
    let run := Call.performAll filesOnly.recorded cs fresh ((), [])
    run.2.2.2 = [(.fileTransfer, [0x07]), (.fileTransfer, [0x08])] ∧
      run.2.1 = { logRecords := 1, fileTransferRecords := 2, unknownRecords := 1,
                  emptyFrames := 1 } ∧
      run.1 = [.ok (some .fileTransfer), .ok none, .error (.unknownKind 0x09), .error .emptyFrame,
        .ok none] ∧
      ∃ body, Record.frame .fileTransfer body = .ok [0x02, 0x07] := by
  intro cs run
  obtain ⟨-, ⟨hdelivered, -⟩, ⟨hfiles, hlogs, hunknown, hempty, -⟩, hanswers, -, -, hframes⟩ :=
    routing_accounted filesOnly cs ()
  refine ⟨hdelivered, ?_, hanswers, ?_⟩
  · calc run.2.1 = ⟨run.2.1.logRecords, run.2.1.fileTransferRecords, run.2.1.unknownRecords,
          run.2.1.emptyFrames⟩ := rfl
      _ = _ := by rw [hfiles, hlogs, hunknown, hempty]; rfl
  · obtain ⟨body, hframe, -⟩ := hframes [0x02, 0x07] (by decide) fresh () .fileTransfer rfl
    exact ⟨body, hframe⟩

end Router

end LogCourier
