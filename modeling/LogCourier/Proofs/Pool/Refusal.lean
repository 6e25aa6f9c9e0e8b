import LogCourier.Host
import LogCourier.Intake
import LogCourier.Proofs.Pool.Likeness

/-!
# Records that are refused

A record that cannot be read is refused, and so is one for which no slot is left. Somebody may bring
as many of these as they like, at any time. **It makes no difference to anybody else**: take them
out of a history (`LogCourier.Pool.weeded`), and all that can be seen after each of the other
actions is as it was (`LogCourier.Pool.watch`), what becomes of the other records included.

For a refused record changes neither the pool nor the site, except for what is told of it; and
nobody asks what has been told. So the two histories go on at sites that are alike
(`LogCourier.Site.Alike`), with the same files and the same state of whoever takes the packets. That
the latter has been given the same packets, too, is seen by having each of them noted
(`LogCourier.Emitter.noted`).

Where transfers are switched off all records are refused, so to speak, and nothing happens at all.
The main statement is `LogCourier.Pool.refusal_unnoticed`.
-/

namespace LogCourier

open Transfer

variable {ε δ : Type}

/-! ### Notes of packets -/

/-- What is noted of packets: which they were, and whether the emitter came back from taking
them. -/
abbrev Notes := List (Packet × Bool)

/-- **The same emitter, with a note of each packet** that it is given. -/
def Emitter.noted (e : Emitter ε) : Emitter (ε × Notes) where
  ticks := fun (x, _) => e.ticks x
  take p := fun (x, notes) =>
    match e.take p x with
    | (back, told, x) => (back, told, x, notes ++ [(p, back)])

/-- A site where nothing has been noted yet. -/
def Site.noting (s : Site ε) : Site (ε × Notes) :=
  { files := s.files, output := (s.output, []), log := s.log, disk := s.disk }

/-- An emitter in the same state takes the same packets in the same way. -/
theorem Emitter.handsAlike_self (e : Emitter ε) : e.HandsAlike Eq (fun _ _ => True) e where
  before := fun _ _ _ _ => trivial
  before' := fun _ _ _ _ => trivial
  hands := by
    rintro t content payload x _ rfl -
    exact ⟨rfl, rfl⟩

/-- Notes do not matter to an emitter. -/
theorem Emitter.handsAlike_noted (e : Emitter ε) :
    e.HandsAlike (fun x y => x = y.1) (fun _ _ => True) e.noted where
  before := fun _ _ _ _ => trivial
  before' := fun _ _ _ _ => trivial
  hands := by
    rintro t content payload _ ⟨x, notes⟩ rfl -
    exact ⟨rfl, rfl⟩

/-- It does not matter what has been told. -/
theorem Site.Alike.tell {R : ε → δ → Prop} {s : Site ε} {u : Site δ} (h : s.Alike R u)
    (told told' : List Event) : (s.tell told).Alike R (u.tell told') :=
  ⟨h.files, h.disk, h.output⟩

/-- A site is like itself. -/
theorem Site.alike_self (s : Site ε) : s.Alike Eq s :=
  ⟨rfl, rfl, rfl⟩

theorem Site.alike_noting (s : Site ε) : s.Alike (fun x y => x = y.1) s.noting :=
  ⟨rfl, rfl, rfl⟩

namespace Pool

/-! ### Histories -/

/-- The pool and the site after an action. If that is not possible they are as they were. -/
def next (e : Emitter ε) (p : Pool) (s : Site ε) (a : Action) : Pool × Site ε :=
  (p.act? (fun _ => Job.work e) (fun told s => s.tell told) s a).getD (p, s)

/-- The pool and the site after some actions. -/
def playAt (e : Emitter ε) (actions : List Action) (p : Pool) (s : Site ε) : Pool × Site ε :=
  play (fun _ => Job.work e) (fun told s => s.tell told) actions p s

/-- What a pool says to a record that somebody brings, if somebody brings one: why it is refused, or
else what is told of it. -/
def decision (p : Pool) : Action → Option (Except Refusal (List Event))
  | .submit record | .handle record => some (p.submit record).1
  | .move _ => none

/-- Whether a record is brought and refused. -/
def refuses (p : Pool) (a : Action) : Bool :=
  match p.decision a with
  | some (.error _) => true
  | some (.ok _) | none => false

/-- **A history without the records that are refused in it.** -/
def weeded (e : Emitter ε) : List Action → Pool → Site ε → List Action
  | [], _, _ => []
  | a :: rest, p, s =>
    match p.next e s a with
    | (p', s') => if p.refuses a then weeded e rest p' s' else a :: weeded e rest p' s'

/-- **What can be seen after an action.** -/
structure View where
  /-- What came of the record, if one was brought. -/
  decision : Option (Except Refusal (List Event))
  /-- How many transfers are in flight. -/
  inFlight : Nat
  /-- The report of each transfer, if there is one. -/
  reports : List (Option Report)
  /-- The packets that have been given to the emitter. -/
  packets : Notes
  /-- The files. -/
  files : FileTree

/-- Whether what was seen is that a record was refused. -/
def View.isRefusal (v : View) : Bool :=
  match v.decision with
  | some (.error _) => true
  | some (.ok _) | none => false

/-- What can be seen of a pool and a site after that decision. -/
def view (decision : Option (Except Refusal (List Event))) (p : Pool) (s : Site (ε × Notes)) :
    View where
  decision := decision
  inFlight := p.inFlight
  reports := p.jobs.map fun j => j.transfer.report?
  packets := s.output.2
  files := s.files

/-- **What can be seen of a history**, action by action. -/
def watch (e : Emitter ε) : List Action → Pool → Site (ε × Notes) → List View
  | [], _, _ => []
  | a :: rest, p, s =>
    match p.next e.noted s a with
    | (p', s') => view (p.decision a) p' s' :: watch e rest p' s'

theorem playAt_cons (e : Emitter ε) (a : Action) (rest : List Action) (p : Pool) (s : Site ε) :
    playAt e (a :: rest) p s = playAt e rest (p.next e s a).1 (p.next e s a).2 := by
  rw [playAt, play, next]
  cases p.act? (fun _ => Job.work e) (fun told s => s.tell told) s a <;> rfl

/-! ### Histories that are alike -/

section Likeness

variable {R : ε → δ → Prop} {e : Emitter ε} {f : Emitter δ} {s : Site ε} {u : Site δ}

/-- **An action leads to the same pool**, at sites that are alike, and to sites that are alike. -/
theorem next_alike (hhands : e.HandsAlike R (fun _ _ => True) f) (h : s.Alike R u) (p : Pool)
    (a : Action) :
    Transfer.Alike (Site.Alike R) (p.next e s a) (p.next f u a) := by
  cases a with
  | submit record =>
    simp only [next, act?]
    rcases p.submit record with ⟨refusal | told, p'⟩
    · exact ⟨rfl, h⟩
    · exact ⟨rfl, h.tell _ _⟩
  | handle record => exact ⟨rfl, h.tell _ _⟩
  | move m =>
    change Transfer.Alike (Site.Alike R) ((p.move? e s m).getD (p, s)) ((p.move? f u m).getD (p, u))
    have hsame := isSome_move? e f p s u m
    rcases hs : p.move? e s m with _ | ⟨p', s'⟩ <;> rcases hu : p.move? f u m with _ | ⟨p'', u'⟩
    · exact ⟨rfl, h⟩
    · rw [hs, hu] at hsame
      exact absurd hsame (by simp)
    · rw [hs, hu] at hsame
      exact absurd hsame (by simp)
    · exact (moveBy?_eq_some_iff.mp hs).alike hhands h (moveBy?_eq_some_iff.mp hu) trivial

/-- Some actions do. -/
theorem playAt_alike (hhands : e.HandsAlike R (fun _ _ => True) f) (actions : List Action)
    (h : s.Alike R u) (p : Pool) :
    Transfer.Alike (Site.Alike R) (playAt e actions p s) (playAt f actions p u) := by
  induction actions generalizing p s u with
  | nil => exact ⟨rfl, h⟩
  | cons a rest ih =>
    obtain ⟨hpool, hsites⟩ := next_alike hhands h p a
    rw [playAt_cons, playAt_cons, hpool]
    exact ih hsites _

/-- And the same records are refused in them. -/
theorem weeded_alike (hhands : e.HandsAlike R (fun _ _ => True) f) (actions : List Action)
    (h : s.Alike R u) (p : Pool) : weeded e actions p s = weeded f actions p u := by
  induction actions generalizing p s u with
  | nil => rfl
  | cons a rest ih =>
    obtain ⟨hpool, hsites⟩ := next_alike hhands h p a
    rw [weeded, weeded]
    simp only []
    rw [hpool, ih hsites]

end Likeness

/-! ### Without the records that are refused -/

section Weeding

variable {e : Emitter ε} {p : Pool} {a : Action}

/-- **A record that is refused changes nothing**, but what has been told. -/
theorem next_of_refuses (h : p.refuses a = true) {s u : Site ε} (hsites : s.Alike Eq u) :
    (p.next e s a).1 = p ∧ (p.next e s a).2.Alike Eq u := by
  -- it is refused in the same way whether or not anybody looks at the answer
  have hsubmit {record : Bytes} (hrefuses : p.refuses (.submit record) = true) :
      ∃ refusal, (p.submit record).1 = .error refusal := by
    simp only [refuses, decision] at hrefuses
    cases hanswer : (p.submit record).1 with
    | error refusal => exact ⟨refusal, rfl⟩
    | ok told => exact absurd hrefuses (by simp [hanswer])
  cases a with
  | submit record =>
    obtain ⟨refusal, hrefused⟩ := hsubmit h
    rw [next, (act?_of_refused hrefused).2.1]
    exact ⟨rfl, hsites⟩
  | handle record =>
    obtain ⟨refusal, hrefused⟩ := hsubmit h
    rw [next, (act?_of_refused hrefused).2.2]
    exact ⟨rfl, hsites.files, hsites.disk, hsites.output⟩
  | move m => exact absurd h (by simp [refuses, decision])

/-- **A history leads to the same without the records refused in it.** -/
theorem playAt_weeded (actions : List Action) {s u : Site ε} (hsites : s.Alike Eq u) (p : Pool) :
    Transfer.Alike (Site.Alike Eq) (playAt e actions p s)
      (playAt e (weeded e actions p s) p u) := by
  induction actions generalizing p s u with
  | nil => exact ⟨rfl, hsites⟩
  | cons a rest ih =>
    rw [playAt_cons, weeded]
    by_cases hrefuses : p.refuses a = true
    · obtain ⟨hpool, hafter⟩ := next_of_refuses (e := e) hrefuses hsites
      simp only [hrefuses, if_true]
      rw [hpool]
      exact ih hafter p
    · obtain ⟨hpool, hafter⟩ := next_alike e.handsAlike_self hsites p a
      simp only [hrefuses, if_false, Bool.false_eq_true]
      rw [playAt_cons, ← hpool]
      exact ih hafter _

/-- A record is refused if that is what can be seen. -/
theorem isRefusal_view (p p' : Pool) (a : Action) (s : Site (ε × Notes)) :
    (view (p.decision a) p' s).isRefusal = p.refuses a :=
  rfl

/-- What can be seen is the same at sites that are alike. -/
theorem view_eq {s u : Site (ε × Notes)} (h : s.Alike Eq u)
    (decision : Option (Except Refusal (List Event))) (p : Pool) :
    view decision p s = view decision p u := by
  rw [view, view, h.files, h.output]

/-- **What can be seen of a history without the records refused in it** is what can be seen of the
whole, except when they were refused. -/
theorem watch_weeded (actions : List Action) {s u : Site (ε × Notes)} (hsites : s.Alike Eq u)
    (p : Pool) :
    watch e (weeded e.noted actions p s) p u =
      (watch e actions p s).filter fun v => !v.isRefusal := by
  induction actions generalizing p s u with
  | nil => rfl
  | cons a rest ih =>
    rw [weeded, watch]
    simp only []
    rw [List.filter_cons, isRefusal_view]
    by_cases hrefuses : p.refuses a = true
    · obtain ⟨hpool, hafter⟩ := next_of_refuses (e := e.noted) hrefuses hsites
      simp only [hrefuses, if_true, Bool.not_true, Bool.false_eq_true, if_false]
      rw [hpool]
      exact ih hafter p
    · obtain ⟨hpool, hafter⟩ := next_alike e.noted.handsAlike_self hsites p a
      simp only [hrefuses, if_true, Bool.not_false, Bool.false_eq_true, if_false]
      rw [watch]
      simp only []
      rw [← hpool, ← view_eq hafter]
      exact congrArg _ (ih hafter _)

end Weeding

end Pool

/-! ### Where transfers are switched off -/

namespace Intake

/-- Something that happens to an intake. -/
inductive Turn
  /-- A record comes. -/
  | record (bs : Bytes)
  /-- All transfers are run to their end. -/
  | drain

/-- The intake and the site after that. -/
def turn (e : Emitter ε) (x : Intake × Site ε) : Turn → Intake × Site ε
  | .record bs =>
    match x.1.handle bs with
    | (i, told) => (i, x.2.tell told)
  | .drain => x.1.drain e x.2

/-- The intake and the site after some things have happened. -/
def turnAll (e : Emitter ε) (turns : List Turn) (x : Intake × Site ε) : Intake × Site ε :=
  turns.foldl (turn e) x

/-- **A disabled intake does nothing**, whatever happens to it, but tell of it. -/
theorem turnAll_disabled (e : Emitter ε) (turns : List Turn) (s : Site ε) :
    (turnAll e turns (.disabled, s)).1 = .disabled ∧
      (turnAll e turns (.disabled, s)).2.Alike Eq s := by
  induction turns generalizing s with
  | nil => exact ⟨rfl, s.alike_self⟩
  | cons turn rest ih =>
    cases turn with
    | record bs =>
      obtain ⟨hintake, hsites⟩ := ih (s.tell [.transfersDisabled bs.length])
      exact ⟨hintake, hsites.files, hsites.disk, hsites.output⟩
    | drain => exact ih s

end Intake

namespace Pool

/-- **Refused records make no difference to anybody else.**

Take any pool, any site, and any history: records are brought, and transfers move. Leave out the
records that are refused in it. After each of the other actions all is seen as it was: whether a
record was taken, how many transfers are in flight, the reports, the packets that the emitter was
given, and the files. So in the end the pool is the same, and the site too, except for what has been
told; and that packets are noted changes nothing.

Where transfers are switched off the emitter is given no packets, and the files stay as they are,
whatever records come. -/
theorem refusal_unnoticed (e : Emitter ε) (p : Pool) (s : Site ε) (actions : List Action)
    (config : Config) (turns : List Intake.Turn) :
    let kept := weeded e actions p s
    let whole := playAt e actions p s
    let rest := playAt e kept p s
    let noted := playAt e.noted actions p s.noting
    let disabled :=
      Intake.turnAll e.noted turns (.ofConfig { config with enabled := false }, s.noting)
    watch e kept p s.noting = (watch e actions p s.noting).filter (fun v => !v.isRefusal) ∧
    (rest.1 = whole.1 ∧ rest.2.files = whole.2.files ∧ rest.2.output = whole.2.output) ∧
    (noted.1 = whole.1 ∧ noted.2.files = whole.2.files ∧ noted.2.output.1 = whole.2.output) ∧
    disabled.1 = .disabled ∧ disabled.2.output = (s.output, []) ∧ disabled.2.files = s.files := by
  intro kept whole rest noted disabled
  have hkept : kept = weeded e.noted actions p s.noting :=
    weeded_alike e.handsAlike_noted actions s.alike_noting p
  obtain ⟨hpool, hsites⟩ := playAt_weeded (e := e) actions s.alike_self p
  obtain ⟨hnoted, hnotedSites⟩ := playAt_alike e.handsAlike_noted actions s.alike_noting p
  obtain ⟨hdisabled, hsame⟩ := Intake.turnAll_disabled e.noted turns s.noting
  refine ⟨?_, ⟨hpool.symm, hsites.files.symm, hsites.output.symm⟩,
    ⟨hnoted.symm, hnotedSites.files.symm, hnotedSites.output.symm⟩, hdisabled, hsame.output,
    hsame.files⟩
  rw [hkept]
  exact watch_weeded actions s.noting.alike_self p

/-- A record that is none, and one too many for a pool with one slot, are left out. -/
example :
    let record : Bytes := [1, 0x46, 0x54, 0, 0, 0x46, 0x54, 0, 0, 0, 0, 2, 0x2F, 0x66]
    let e : Emitter Unit := ⟨fun _ => 0, fun _ _ => (true, [], ())⟩
    let config : Config := { enabled := true, chunkSize := 4, maxConcurrent := 1, maxPending := 0 }
    weeded e [.handle [7], .submit record, .move (.start 0), .handle record] (.fresh config)
      ⟨.empty, (), [], .sound⟩ = [.submit record, .move (.start 0)] := by
  rfl

end Pool

end LogCourier
