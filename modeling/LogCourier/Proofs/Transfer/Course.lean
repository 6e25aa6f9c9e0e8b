import LogCourier.Transfer

/-!
# The course of a transfer

What a transfer does shows in what it asks of its surroundings and in the answers
it gets: its **deeds**. This file writes them down and says once and for all what a
step can do, so that whatever has to hold of every run is a matter of the deeds.

* `LogCourier.Transfer.Surroundings.recorded` are the same surroundings with a
  record of the deeds kept beside them. Recording changes nothing
  (`LogCourier.Transfer.run_recorded`).
* `LogCourier.Transfer.Does` lists the steps: the phase a step starts from, the
  deeds it adds (at most one), the events it tells, and the transfer afterwards.
  It does not mention the surroundings. **Every step is one of these**
  (`LogCourier.Transfer.exists_does`), and its deed is what the surroundings
  answered (`LogCourier.Transfer.Performs`).
* `LogCourier.Transfer.Course` is any number of such steps. The record of a run is
  one (`LogCourier.Transfer.course_run`), so an induction over a course is an
  induction over every run in every surroundings.
-/

namespace LogCourier.Transfer

variable {σ : Type}

/-! ### Deeds -/

/-- Something that a transfer asked for, and what came of it. -/
inductive Deed
  /-- Open the file of that name, with room for chunks of so many bytes. -/
  | opened (name : String) (size : Nat) (answer : Opening)
  /-- Read at most so many bytes. -/
  | read (limit : Nat) (answer : Reading)
  /-- Hand over a packet. The answer is `false` if that threw. -/
  | handed (p : Packet) (back : Bool)
  /-- Remove the file of that name. -/
  | removed (name : String) (answer : Except IoError Unit)

namespace Deed

/-- The bytes that a deed brought in. -/
def received : Deed → Bytes
  | .read _ (.data bs) => bs
  | _ => []

/-- The packet that a deed handed over, if it was taken. -/
def packet? : Deed → Option Packet
  | .handed p true => some p
  | _ => none

/-- The error that a deed met with. -/
def error? : Deed → Option IoError
  | .opened _ _ (.failed e) | .read _ (.failed e) => some e
  | _ => none

/-- Whether a deed was to remove a file. -/
def isRemoval : Deed → Bool
  | .removed .. => true
  | _ => false

end Deed

/-- All bytes read, in order. -/
def received (deeds : List Deed) : Bytes :=
  deeds.flatMap Deed.received

/-- All packets taken, in order. -/
def taken (deeds : List Deed) : List Packet :=
  deeds.filterMap Deed.packet?

/-- The bytes of the file in some packets. -/
def content (ps : List Packet) : Bytes :=
  (ps.filter (·.content = .info)).flatMap Packet.payload

@[simp] theorem received_nil : received [] = [] := rfl

@[simp] theorem received_append (ds es : List Deed) :
    received (ds ++ es) = received ds ++ received es := by
  simp [received]

@[simp] theorem received_singleton (d : Deed) : received [d] = d.received := by
  simp [received]

@[simp] theorem taken_nil : taken [] = [] := rfl

@[simp] theorem taken_append (ds es : List Deed) : taken (ds ++ es) = taken ds ++ taken es := by
  simp [taken]

theorem taken_singleton (d : Deed) : taken [d] = d.packet?.toList := by
  cases h : d.packet? <;> simp [taken, h]

/-- A deed that hands nothing over, or in vain. -/
theorem taken_idle {d : Deed} (h : d.packet? = none) (deeds : List Deed) :
    taken (deeds ++ [d]) = taken deeds := by
  rw [taken_append, taken_singleton, h, Option.toList_none, List.append_nil]

@[simp] theorem content_nil : content [] = [] := rfl

@[simp] theorem content_append (ps qs : List Packet) :
    content (ps ++ qs) = content ps ++ content qs := by
  simp [content]

/-! ### A record -/

/-- **The same surroundings, with a record of the deeds.** -/
def Surroundings.recorded (around : Surroundings σ) : Surroundings (σ × List Deed) where
  openSource name size := fun (s, deeds) =>
    match around.openSource name size s with
    | (answer, s) => (answer, s, deeds ++ [.opened name size answer])
  read limit := fun (s, deeds) =>
    match around.read limit s with
    | (answer, s) => (answer, s, deeds ++ [.read limit answer])
  ticks := fun (s, _) => around.ticks s
  take p := fun (s, deeds) =>
    match around.take p s with
    | (back, s) => (back, s, deeds ++ [.handed p back])
  remove name := fun (s, deeds) =>
    match around.remove name s with
    | (answer, s) => (answer, s, deeds ++ [.removed name answer])
  tell event := fun (s, deeds) => (around.tell event s, deeds)

/-- Some events told, one after the other. -/
def Surroundings.tellAll (around : Surroundings σ) (told : List Event) (s : σ) : σ :=
  told.foldl (fun s event => around.tell event s) s

/-! ### What a step can do -/

/-- **The steps of a transfer**: its deeds, what it tells, and the transfer
afterwards. -/
inductive Does (t : Transfer) : List Deed → List Event → Transfer → Prop
  /-- The file is open. -/
  | opens (h : t.phase = .opening) :
      Does t [.opened t.entry.fileName t.reader.size .opened] [t.streamingEvent]
        ((t.enter .streaming).go .reading)
  /-- The file cannot be opened. -/
  | opensNot (h : t.phase = .opening) (e : IoError) :
      Does t [.opened t.entry.fileName t.reader.size (.failed e)] []
        ((t.enter .opening).go (.notifying (.opening e)))
  /-- There is no room for a chunk. -/
  | lacksRoom (h : t.phase = .opening) :
      Does t [.opened t.entry.fileName t.reader.size .noRoom] []
        ((t.enter .opening).go .crashed)
  /-- A reading. -/
  | reads (h : t.phase = .reading) (reading : Reading) :
      Does t [.read t.reader.wanted reading] [] (t.accept reading)
  /-- A chunk is taken. -/
  | hands {chunk : Bytes} (h : t.phase = .handing chunk) (ticks : UInt32) :
      Does t [.handed (t.packet .info chunk ticks) true] [] (t.handed chunk)
  /-- Handing over a chunk throws. -/
  | handsNot {chunk : Bytes} (h : t.phase = .handing chunk) (ticks : UInt32) :
      Does t [.handed (t.packet .info chunk ticks) false] [] (t.go .crashed)
  /-- A notice is taken. -/
  | notifies {failure : Failure} (h : t.phase = .notifying failure) (ticks : UInt32) :
      Does t [.handed (t.packet .error (Bytes.ofText (failure.notice t.entry.fileName)) ticks) true]
        [(t.failed failure).failedEvent failure] (t.failed failure)
  /-- Handing over a notice throws. -/
  | notifiesNot {failure : Failure} (h : t.phase = .notifying failure) (ticks : UInt32) :
      Does t
        [.handed (t.packet .error (Bytes.ofText (failure.notice t.entry.fileName)) ticks) false] []
        (t.go .crashed)
  /-- The file is to be removed. -/
  | removes (h : t.phase = .closing) (wanted : t.entry.deleteFile = true)
      (answer : Except IoError Unit) :
      Does t [.removed t.entry.fileName answer] [t.removalEvent answer, t.completedEvent]
        (t.completed (.ofRemoval answer))
  /-- The file is to be kept. -/
  | keeps (h : t.phase = .closing) (unwanted : t.entry.deleteFile = false) :
      Does t [] [t.completedEvent] (t.completed .notRequested)
  /-- There is nothing left to do. -/
  | rests (h : t.isOver = true) : Does t [] [] t

/-- **What is handed over** is the chunk that is under way, or the notice of a failure. -/
theorem Does.handed_cases {t t' : Transfer} {new : List Deed} {told : List Event}
    (h : Does t new told t') {p : Packet} {back : Bool} (hp : .handed p back ∈ new) :
    (∃ chunk ticks, t.phase = .handing chunk ∧ p = t.packet .info chunk ticks) ∨
    ∃ failure ticks, t.phase = .notifying failure ∧
      p = t.packet .error (Bytes.ofText (failure.notice t.entry.fileName)) ticks := by
  cases h with
  | hands hphase ticks | handsNot hphase ticks =>
    rw [List.mem_singleton, Deed.handed.injEq] at hp
    exact Or.inl ⟨_, ticks, hphase, hp.1⟩
  | notifies hphase ticks | notifiesNot hphase ticks =>
    rw [List.mem_singleton, Deed.handed.injEq] at hp
    exact Or.inr ⟨_, ticks, hphase, hp.1⟩
  | _ => exact absurd hp (by simp)

/-- What the surroundings do for some deeds. -/
inductive Performs (around : Surroundings σ) (s : σ) : List Deed → σ → Prop
  /-- Nothing was asked for. -/
  | nothing : Performs around s [] s
  /-- A file was opened, or not. -/
  | opened (name : String) (size : Nat) :
      Performs around s [.opened name size (around.openSource name size s).1]
        (around.openSource name size s).2
  /-- Something was read. -/
  | read (limit : Nat) :
      Performs around s [.read limit (around.read limit s).1] (around.read limit s).2
  /-- A packet was handed over. -/
  | handed (p : Packet) :
      Performs around s [.handed p (around.take p s).1] (around.take p s).2
  /-- A file was removed, or not. -/
  | removed (name : String) :
      Performs around s [.removed name (around.remove name s).1] (around.remove name s).2

/-- **Every step is one of the steps listed**, its deeds are the surroundings' answers,
and a record of it has those deeds and is otherwise no different. -/
theorem exists_does (around : Surroundings σ) (t : Transfer) (s : σ) :
    ∃ deeds told s', Does t deeds told (t.step around s).1 ∧ Performs around s deeds s' ∧
      (t.step around s).2 = around.tellAll told s' ∧
      ∀ written, t.step around.recorded (s, written) =
        ((t.step around s).1, (t.step around s).2, written ++ deeds) := by
  cases hphase : t.phase with
  | opening =>
    have hperf := @Performs.opened σ around s t.entry.fileName t.reader.size
    rcases hopen : around.openSource t.entry.fileName t.reader.size s with ⟨answer, s'⟩
    rw [hopen] at hperf
    cases answer with
    | opened =>
      simp only [step, hphase, Surroundings.recorded, hopen]
      exact ⟨_, _, s', .opens hphase, hperf, rfl, fun _ => rfl⟩
    | failed e =>
      simp only [step, hphase, Surroundings.recorded, hopen]
      exact ⟨_, _, s', .opensNot hphase e, hperf, rfl, fun _ => rfl⟩
    | noRoom =>
      simp only [step, hphase, Surroundings.recorded, hopen]
      exact ⟨_, _, s', .lacksRoom hphase, hperf, rfl, fun _ => rfl⟩
  | reading =>
    simp only [step, hphase, Surroundings.recorded]
    exact ⟨_, _, _, .reads hphase _, .read _, rfl, fun _ => rfl⟩
  | handing chunk =>
    have hperf := @Performs.handed σ around s
      (t.packet .info chunk (around.ticks s))
    rcases htake : around.take (t.packet .info chunk (around.ticks s)) s with ⟨back, s'⟩
    rw [htake] at hperf
    cases back with
    | true =>
      simp only [step, hphase, Surroundings.recorded, htake]
      exact ⟨_, _, s', .hands hphase _, hperf, rfl, fun _ => rfl⟩
    | false =>
      simp only [step, hphase, Surroundings.recorded, htake]
      exact ⟨_, _, s', .handsNot hphase _, hperf, rfl, fun _ => rfl⟩
  | notifying failure =>
    have hperf := @Performs.handed σ around s
      (t.packet .error (Bytes.ofText (failure.notice t.entry.fileName)) (around.ticks s))
    rcases htake : around.take
      (t.packet .error (Bytes.ofText (failure.notice t.entry.fileName)) (around.ticks s)) s
      with ⟨back, s'⟩
    rw [htake] at hperf
    cases back with
    | true =>
      simp only [step, hphase, Surroundings.recorded, htake]
      exact ⟨_, _, s', .notifies hphase _, hperf, rfl, fun _ => rfl⟩
    | false =>
      simp only [step, hphase, Surroundings.recorded, htake]
      exact ⟨_, _, s', .notifiesNot hphase _, hperf, rfl, fun _ => rfl⟩
  | closing =>
    cases hwanted : t.entry.deleteFile with
    | true =>
      simp only [step, hphase, removeSource, Surroundings.recorded, hwanted, if_true]
      exact ⟨_, _, _, .removes hphase hwanted _, .removed _, rfl, fun _ => rfl⟩
    | false =>
      simp only [step, hphase, removeSource, Surroundings.recorded, hwanted, Bool.false_eq_true,
        if_false]
      exact ⟨_, _, s, .keeps hphase hwanted, .nothing, rfl, fun _ => by simp⟩
  | «over» r =>
    simp only [step, hphase]
    exact ⟨_, _, s, .rests (by simp [isOver, hphase]), .nothing, rfl, fun _ => by simp⟩
  | crashed =>
    simp only [step, hphase]
    exact ⟨_, _, s, .rests (by simp [isOver, hphase]), .nothing, rfl, fun _ => by simp⟩

/-! ### Runs -/

/-- **Some steps, one after the other**, and all their deeds. -/
inductive Course (start : Transfer) : List Deed → Transfer → Prop
  /-- No step yet. -/
  | start : Course start [] start
  /-- One more step. -/
  | step {deeds new : List Deed} {told : List Event} {t t' : Transfer} :
      Course start deeds t → Does t new told t' → Course start (deeds ++ new) t'

/-- A run that goes on from a course continues it, and a record of it has the deeds
of the continuation and is otherwise no different. -/
theorem Course.exists_run {start t : Transfer} {former : List Deed}
    (hcourse : Course start former t) (around : Surroundings σ) (n : Nat) (s : σ)
    (written : List Deed) :
    ∃ deeds, Course start (former ++ deeds) (t.run around n s).1 ∧
      t.run around.recorded n (s, written) =
        ((t.run around n s).1, (t.run around n s).2, written ++ deeds) := by
  induction n generalizing t former s written with
  | zero => exact ⟨[], by simpa [run] using hcourse, by simp [run]⟩
  | succ n ih =>
    by_cases hover : t.isOver = true
    · exact ⟨[], by simpa [run, hover] using hcourse, by simp [run, hover]⟩
    · obtain ⟨new, told, s', hdoes, -, -, hrecord⟩ := exists_does around t s
      obtain ⟨deeds, hdeeds, hrun⟩ := ih (hcourse.step hdoes) (t.step around s).2 (written ++ new)
      refine ⟨new ++ deeds, ?_, ?_⟩
      · simpa [run, hover] using hdeeds
      · simpa [run, hover, hrecord written] using hrun

/-- **The record of a run is a course.** -/
theorem course_run (around : Surroundings σ) (n : Nat) (t : Transfer) (s : σ) :
    Course t (t.run around.recorded n (s, [])).2.2 (t.run around.recorded n (s, [])).1 := by
  obtain ⟨deeds, hdeeds, hrun⟩ := (Course.start : Course t [] t).exists_run around n s []
  rw [hrun]
  simpa using hdeeds

/-- **Recording changes nothing.** -/
theorem run_recorded (around : Surroundings σ) (n : Nat) (t : Transfer) (s : σ)
    (written : List Deed) :
    (t.run around.recorded n (s, written)).1 = (t.run around n s).1 ∧
      (t.run around.recorded n (s, written)).2.1 = (t.run around n s).2 := by
  obtain ⟨deeds, -, hrun⟩ := (Course.start : Course t [] t).exists_run around n s written
  exact ⟨by rw [hrun], by rw [hrun]⟩

/-- A transfer that is over makes no step. -/
theorem step_of_isOver {t : Transfer} (h : t.isOver = true) (around : Surroundings σ) (s : σ) :
    t.step around s = (t, s) := by
  cases hphase : t.phase with
  | «over» r | crashed => simp only [step, hphase]
  | _ => exact absurd h (by simp [isOver, hphase])

/-- The last step of a run. -/
theorem run_succ (around : Surroundings σ) (n : Nat) (t : Transfer) (s : σ) :
    t.run around (n + 1) s = (t.run around n s).1.step around (t.run around n s).2 := by
  have hfirst (k : Nat) (t : Transfer) (s : σ) : t.run around (k + 1) s =
      if t.isOver then (t, s) else (t.step around s).1.run around k (t.step around s).2 := rfl
  induction n generalizing t s with
  | zero =>
    rw [hfirst]
    split
    · rename_i hover
      exact (step_of_isOver hover around s).symm
    · rfl
  | succ n ih =>
    rw [hfirst (n + 1) t s, hfirst n t s]
    split
    · rename_i hover
      exact (step_of_isOver hover around s).symm
    · exact ih _ _

/-- **What holds of every answer holds of every deed in a record.** -/
theorem forall_deeds_run {around : Surroundings σ} {P : Deed → Prop}
    (h : ∀ s new s', Performs around s new s' → ∀ d ∈ new, P d) (n : Nat) (t : Transfer) (s : σ)
    {written : List Deed} (hwritten : ∀ d ∈ written, P d) :
    ∀ d ∈ (t.run around.recorded n (s, written)).2.2, P d := by
  induction n with
  | zero => exact hwritten
  | succ n ih =>
    rcases hrun : t.run around.recorded n (s, written) with ⟨t', s', deeds⟩
    rw [hrun] at ih
    obtain ⟨new, told, s'', -, hperforms, -, hrecord⟩ := exists_does around t' s'
    rw [run_succ, hrun, hrecord deeds]
    intro d hd
    exact (List.mem_append.mp hd).elim (ih d) (h s' new s'' hperforms d)

/-! ### What is left alone -/

/-- **Surroundings that leave something alone**: what can be seen of them there stays as it is,
unless a file is to be removed. -/
structure Surroundings.Spares {α : Type} (around : Surroundings σ) (view : σ → α) : Prop where
  /-- Opening a file leaves it alone. -/
  opens : ∀ name size s, view (around.openSource name size s).2 = view s
  /-- So does reading. -/
  reads : ∀ limit s, view (around.read limit s).2 = view s
  /-- So does taking a packet. -/
  takes : ∀ p s, view (around.take p s).2 = view s
  /-- So does telling of something. -/
  tells : ∀ event s, view (around.tell event s) = view s

namespace Surroundings.Spares

variable {α : Type} {around : Surroundings σ} {view : σ → α}

theorem tellAll (h : around.Spares view) (told : List Event) (s : σ) :
    view (around.tellAll told s) = view s := by
  induction told generalizing s with
  | nil => rfl
  | cons event told ih => exact (ih (around.tell event s)).trans (h.tells event s)

/-- **Deeds without a removal leave it alone.** -/
theorem performs (h : around.Spares view) {s s' : σ} {deeds : List Deed}
    (hperforms : Performs around s deeds s') (hkept : ∀ d ∈ deeds, d.isRemoval = false) :
    view s' = view s := by
  cases hperforms with
  | nothing => rfl
  | opened name size => exact h.opens name size s
  | read limit => exact h.reads limit s
  | handed p => exact h.takes p s
  | removed name => exact absurd (hkept _ (List.mem_singleton.mpr rfl)) (by simp [Deed.isRemoval])

/-- So does a run in which no file is removed. -/
theorem run (h : around.Spares view) (n : Nat) (t : Transfer) (s : σ) (written : List Deed)
    (hkept : ∀ d ∈ (t.run around.recorded n (s, written)).2.2, d.isRemoval = false) :
    view (t.run around.recorded n (s, written)).2.1 = view s := by
  induction n with
  | zero => rfl
  | succ n ih =>
    rcases hrun : t.run around.recorded n (s, written) with ⟨t', s', deeds⟩
    obtain ⟨new, told, s'', -, hperforms, hstep, hrecord⟩ := exists_does around t' s'
    rw [run_succ, hrun, hrecord deeds] at hkept
    rw [hrun] at ih
    rw [run_succ, hrun, hrecord deeds]
    change view (t'.step around s').2 = view s
    rw [hstep, h.tellAll, h.performs hperforms fun d hd => hkept d (List.mem_append_right _ hd)]
    exact ih fun d hd => hkept d (List.mem_append_left _ hd)

end Surroundings.Spares

/-! ### A source that is written down -/

/-- Surroundings with a scripted source, in which everything else goes well. -/
def Surroundings.scripted : Surroundings Script where
  openSource _ _ s := (.opened, s)
  read := Script.read
  ticks _ := 0
  take _ s := (true, s)
  remove _ s := (.ok (), s)
  tell _ s := s

end LogCourier.Transfer
