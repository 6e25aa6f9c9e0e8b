import LogCourier.Pool
import LogCourier.Proofs.Lists

/-!
# What happens to a pool

Anybody may bring a record at any time, and any transfer may move next. This file puts
the two together: an **action** is a record that somebody brings or a move of a
transfer (`LogCourier.Pool.Action`), and a state is **reachable** if some actions lead to it
from a pool that has taken nothing (`LogCourier.Pool.Reachable`). So what holds of all
reachable states holds in whatever order things happen.

What a transfer does when it works is left open, and so is what it works on: `work` says
what a job makes of one step. It may do anything, and nothing at all.

A move has a condition and an effect, and `LogCourier.Pool.Moves` has both for each of the
four; **a move is possible exactly if it is listed there**
(`LogCourier.Pool.moveBy?_eq_some_iff`).
-/

namespace LogCourier.Pool

variable {σ : Type}

/-! ### Moves -/

/-- **The moves of a pool**: when each is possible, and what it does. -/
inductive Moves (work : Nat → Job → σ → Job × σ) (p : Pool) (s : σ) : Move → Pool → σ → Prop
  /-- A waiting transfer gets a permit. -/
  | start {i : Nat} {j : Job} (hj : p.jobs[i]? = some j) (hstage : j.stage = .waiting)
      (hpermit : 0 < p.permits) :
      Moves work p s (.start i)
        ({ p with permits := p.permits - 1 }.setJob i { j with stage := .running }) s
  /-- A running transfer that is not over makes a step. -/
  | work {i : Nat} {j : Job} (hj : p.jobs[i]? = some j) (hstage : j.stage = .running)
      (hlive : j.transfer.isOver = false) :
      Moves work p s (.work i) (p.setJob i { (work i j s).1 with stage := .running })
        (work i j s).2
  /-- A running transfer that is over gives its permit back. -/
  | settle {i : Nat} {j : Job} (hj : p.jobs[i]? = some j) (hstage : j.stage = .running)
      (hover : j.transfer.isOver = true) :
      Moves work p s (.settle i)
        ({ p with permits := p.permits + 1 }.setJob i { j with stage := .settled }) s
  /-- A settled transfer gives its slot back. -/
  | retire {i : Nat} {j : Job} (hj : p.jobs[i]? = some j) (hstage : j.stage = .settled) :
      Moves work p s (.retire i)
        ({ p with inFlight := p.inFlight - 1 }.setJob i { j with stage := .retired }) s

/-- **A move is possible exactly if it is listed**, and does what is listed. -/
theorem moveBy?_eq_some_iff {work : Nat → Job → σ → Job × σ} {p p' : Pool} {s s' : σ} {m : Move} :
    p.moveBy? work s m = some (p', s') ↔ Moves work p s m p' s' := by
  constructor
  · intro h
    cases m with
    | start i =>
      obtain ⟨j, hj, h⟩ := Option.bind_eq_some_iff.mp h
      split at h
      · rename_i hcond
        obtain ⟨rfl, rfl⟩ := Prod.mk.inj (Option.some.inj h)
        exact .start hj hcond.1 hcond.2
      · exact absurd h (by simp)
    | work i =>
      obtain ⟨j, hj, h⟩ := Option.bind_eq_some_iff.mp h
      split at h
      · rename_i hcond
        obtain ⟨rfl, rfl⟩ := Prod.mk.inj (Option.some.inj h)
        exact .work hj hcond.1 hcond.2
      · exact absurd h (by simp)
    | settle i =>
      obtain ⟨j, hj, h⟩ := Option.bind_eq_some_iff.mp h
      split at h
      · rename_i hcond
        obtain ⟨rfl, rfl⟩ := Prod.mk.inj (Option.some.inj h)
        exact .settle hj hcond.1 hcond.2
      · exact absurd h (by simp)
    | retire i =>
      obtain ⟨j, hj, h⟩ := Option.bind_eq_some_iff.mp h
      split at h
      · rename_i hcond
        obtain ⟨rfl, rfl⟩ := Prod.mk.inj (Option.some.inj h)
        exact .retire hj hcond
      · exact absurd h (by simp)
  · rintro (⟨hj, hstage, hpermit⟩ | ⟨hj, hstage, hlive⟩ | ⟨hj, hstage, hover⟩ | ⟨hj, hstage⟩)
    · simp [moveBy?, hj, hstage, hpermit]
    · simp [moveBy?, hj, hstage, hlive]
    · simp [moveBy?, hj, hstage, hover]
    · simp [moveBy?, hj, hstage]

/-! ### Actions -/

/-- Something that happens to a pool. -/
inductive Action
  /-- Somebody submits a record, and looks at the answer. -/
  | submit (record : Bytes)
  /-- A record is handled, and nobody looks at the answer. -/
  | handle (record : Bytes)
  /-- A transfer moves. -/
  | move (m : Move)

/-- The pool, and what it works on, after an action, if it is possible. A record can be
brought at any time. -/
def act? (work : Nat → Job → σ → Job × σ) (tell : List Event → σ → σ) (p : Pool) (s : σ) :
    Action → Option (Pool × σ)
  | .submit record =>
    match p.submit record with
    | (.ok told, p) => some (p, tell told s)
    | (.error _, p) => some (p, s)
  | .handle record =>
    match p.handle record with
    | (p, told) => some (p, tell told s)
  | .move m => p.moveBy? work s m

/-- **The states that a pool comes to**, whoever brings records and whoever moves, in whatever
order. -/
inductive Reachable (work : Nat → Job → σ → Job × σ) (tell : List Event → σ → σ)
    (config : Config) (s₀ : σ) : Pool → σ → Prop
  /-- Nothing has happened. -/
  | fresh : Reachable work tell config s₀ (Pool.fresh config) s₀
  /-- One more thing happens. -/
  | act {p p' : Pool} {s s' : σ} {a : Action} :
      Reachable work tell config s₀ p s → p.act? work tell s a = some (p', s') →
      Reachable work tell config s₀ p' s'

/-- The pool, and what it works on, after some actions, of which those that are not possible are
left out. -/
def play (work : Nat → Job → σ → Job × σ) (tell : List Event → σ → σ) :
    List Action → Pool → σ → Pool × σ
  | [], p, s => (p, s)
  | a :: as, p, s =>
    match p.act? work tell s a with
    | some (p, s) => play work tell as p s
    | none => play work tell as p s

/-- Whatever is played leads to a reachable state. -/
theorem Reachable.play {work : Nat → Job → σ → Job × σ} {tell : List Event → σ → σ}
    {config : Config} {s₀ s : σ} {p : Pool} (h : Reachable work tell config s₀ p s)
    (as : List Action) :
    Reachable work tell config s₀ (play work tell as p s).1 (play work tell as p s).2 := by
  induction as generalizing p s with
  | nil => exact h
  | cons a as ih =>
    unfold Pool.play
    split
    · rename_i p' s' hact
      exact ih (h.act hact)
    · exact ih h

/-! ### Records -/

/-- A record that cannot be read is refused for that, however many transfers there are. -/
theorem submit_of_malformed {p : Pool} {record : Bytes} {e : Entry.DecodeError}
    (h : Entry.decode record = .error e) : p.submit record = (.error (.malformed e), p) := by
  simp [submit, entryFor, h]

theorem submit_of_room {p : Pool} {record : Bytes} {entry : Entry}
    (h : Entry.decode record = .ok entry) (hroom : p.inFlight < p.config.slots) :
    p.submit record = (.ok [acceptedEvent entry], p.add entry) := by
  simp [submit, entryFor, h, hroom]

/-- Otherwise it is refused, with the number of slots taken and the number there are. -/
theorem submit_of_full {p : Pool} {record : Bytes} {entry : Entry}
    (h : Entry.decode record = .ok entry) (hfull : ¬ p.inFlight < p.config.slots) :
    p.submit record = (.error (.saturated p.inFlight p.config.slots), p) := by
  simp [submit, entryFor, h, hfull]

/-- **A record is taken or refused**, and what is refused leaves the pool as it is. -/
theorem submit_cases (p : Pool) (record : Bytes) :
    (∃ entry, Entry.decode record = .ok entry ∧ p.inFlight < p.config.slots ∧
      p.submit record = (.ok [acceptedEvent entry], p.add entry)) ∨
    ∃ refusal, p.submit record = (.error refusal, p) := by
  cases hdecode : Entry.decode record with
  | error e => exact Or.inr ⟨_, submit_of_malformed hdecode⟩
  | ok entry =>
    by_cases hroom : p.inFlight < p.config.slots
    · exact Or.inl ⟨entry, rfl, hroom, submit_of_room hdecode hroom⟩
    · exact Or.inr ⟨_, submit_of_full hdecode hroom⟩

section Answers

variable {work : Nat → Job → σ → Job × σ} {tell : List Event → σ → σ} {p : Pool} {s : σ}
  {record : Bytes}

/-- A refused record changes nothing, and all that a handler does is to tell of it. -/
theorem act?_of_refused {refusal : Refusal} (h : (p.submit record).1 = .error refusal) :
    (p.submit record).2 = p ∧
      p.act? work tell s (.submit record) = some (p, s) ∧
      p.act? work tell s (.handle record) = some (p, tell [refusedEvent record refusal] s) := by
  rcases p.submit_cases record with ⟨entry, -, -, hsubmit⟩ | ⟨refusal', hsubmit⟩
  · rw [hsubmit] at h
    exact absurd h (by simp)
  · rw [hsubmit, Except.error.injEq] at h
    simp [act?, handle, hsubmit, h]

/-- A record that is taken is one that can be read, and a transfer is added for it, whoever
brings it. -/
theorem act?_of_taken {told : List Event} (h : (p.submit record).1 = .ok told) :
    ∃ entry, Entry.decode record = .ok entry ∧ told = [acceptedEvent entry] ∧
      p.act? work tell s (.submit record) = some (p.add entry, tell told s) ∧
      p.act? work tell s (.handle record) = some (p.add entry, tell told s) := by
  rcases p.submit_cases record with ⟨entry, hdecode, -, hsubmit⟩ | ⟨refusal, hsubmit⟩
  · rw [hsubmit, Except.ok.injEq] at h
    refine ⟨entry, hdecode, h.symm, ?_⟩
    simp [act?, handle, hsubmit, h]
  · rw [hsubmit] at h
    exact absurd h (by simp)

end Answers

/-- **What an action can do**: it adds a transfer that was asked for, or it leaves the pool as it
is, or it is a move. -/
theorem act?_cases {work : Nat → Job → σ → Job × σ} {tell : List Event → σ → σ} {p p' : Pool}
    {s s' : σ} {a : Action} (h : p.act? work tell s a = some (p', s')) :
    (∃ record entry, Entry.decode record = .ok entry ∧ p.inFlight < p.config.slots ∧
      p' = p.add entry ∧ s' = tell [acceptedEvent entry] s) ∨
    (p' = p ∧ (s' = s ∨ ∃ told, s' = tell told s)) ∨
    ∃ m, Moves work p s m p' s' := by
  cases a with
  | submit record =>
    rcases p.submit_cases record with ⟨entry, hdecode, hroom, hsubmit⟩ | ⟨refusal, hsubmit⟩ <;>
      simp only [act?, hsubmit, Option.some.injEq, Prod.mk.injEq] at h
    · exact Or.inl ⟨record, entry, hdecode, hroom, h.1.symm, h.2.symm⟩
    · exact Or.inr (Or.inl ⟨h.1.symm, Or.inl h.2.symm⟩)
  | handle record =>
    rcases p.submit_cases record with ⟨entry, hdecode, hroom, hsubmit⟩ | ⟨refusal, hsubmit⟩ <;>
      simp only [act?, handle, hsubmit, Option.some.injEq, Prod.mk.injEq] at h
    · exact Or.inl ⟨record, entry, hdecode, hroom, h.1.symm, h.2.symm⟩
    · exact Or.inr (Or.inl ⟨h.1.symm, Or.inr ⟨_, h.2.symm⟩⟩)
  | move m => exact Or.inr (Or.inr ⟨m, moveBy?_eq_some_iff.mp h⟩)

/-! ### Transfers that are done with -/

/-- A transfer that has given its permit back is over. -/
def Job.IsSettledWhenOver (j : Job) : Prop :=
  j.stage = .settled ∨ j.stage = .retired → j.transfer.isOver = true

/-- What holds of a job that a move puts in place, and of all others, holds of all. -/
theorem forall_mem_setJob {Q : Job → Prop} {p : Pool} {i : Nat} {j : Job}
    (h : ∀ k ∈ p.jobs, Q k) (hj : Q j) : ∀ k ∈ (p.setJob i j).jobs, Q k := by
  intro k hk
  rcases List.mem_or_eq_of_mem_set hk with hold | rfl
  · exact h k hold
  · exact hj

/-- **In every reachable state the transfers that have given their permits back are over.** -/
theorem Reachable.isSettledWhenOver {work : Nat → Job → σ → Job × σ}
    {tell : List Event → σ → σ} {config : Config} {s₀ s : σ} {p : Pool}
    (h : Reachable work tell config s₀ p s) : ∀ j ∈ p.jobs, j.IsSettledWhenOver := by
  induction h with
  | fresh => exact fun j hj => absurd hj (by simp [Pool.fresh])
  | act _ hact ih =>
    rcases act?_cases hact with ⟨record, entry, -, -, rfl, -⟩ | ⟨rfl, -⟩ | ⟨m, hmoves⟩
    · intro j hj
      rcases List.mem_append.mp hj with hold | hnew
      · exact ih j hold
      · rw [List.mem_singleton.mp hnew]
        exact fun hdone => absurd hdone (by simp [Job.fresh])
    · exact ih
    · cases hmoves with
      | start hj hstage hpermit =>
        exact forall_mem_setJob ih fun hdone => absurd hdone (by simp)
      | work hj hstage hlive =>
        exact forall_mem_setJob ih fun hdone => absurd hdone (by simp)
      | settle hj hstage hover => exact forall_mem_setJob ih fun _ => hover
      | @retire i j hj hstage =>
        have hover : j.transfer.isOver = true := ih j (List.mem_of_getElem? hj) (Or.inl hstage)
        exact forall_mem_setJob ih fun _ => hover

end LogCourier.Pool
