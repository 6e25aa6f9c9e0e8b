import LogCourier.Proofs.Pool.History

/-!
# Who gets into a pool

A pool keeps two numbers: the slots taken and the permits left. They change at different moments
of a transfer's life, so neither can be read off the other; both can be read off the transfers.
**The slots taken are as many as there are transfers that have not given theirs back, and the
permits left and the transfers running are together as many as there are permits**
(`LogCourier.Pool.Balanced`). That holds in the beginning, every action keeps it, and it is all
that is needed:

* there are never more transfers in flight than slots, nor more running than permits;
* when no permit is left, the transfers that have one take up all but the slots for waiting;
* if no transfer can move, then none is running, so permits are left, so none is waiting: all
  have given back what they had.

The main statement is `LogCourier.Pool.admission`.
-/

namespace LogCourier.Pool

variable {σ : Type}

/-! ### Counting transfers -/

/-- Whether a transfer at that stage holds a slot. -/
def Stage.holdsSlot : Stage → Bool
  | .waiting | .running | .settled => true
  | .retired => false

/-- Whether a transfer at that stage holds a permit. -/
def Stage.holdsPermit : Stage → Bool
  | .running => true
  | .waiting | .settled | .retired => false

/-- Whether a transfer at that stage waits for a permit. -/
def Stage.waits : Stage → Bool
  | .waiting => true
  | .running | .settled | .retired => false

/-- How many transfers are at a stage of that kind. -/
def count (p : Pool) (kind : Stage → Bool) : Nat :=
  p.jobs.countP fun j => kind j.stage

/-- A transfer that has come to another stage, counted. -/
theorem count_setJob {p : Pool} {i : Nat} {j : Job} (hj : p.jobs[i]? = some j) (j' : Job)
    (kind : Stage → Bool) :
    (p.setJob i j').count kind + (if kind j.stage then 1 else 0) =
      p.count kind + (if kind j'.stage then 1 else 0) :=
  countP_set_add (P := fun j : Job => kind j.stage) hj j'

theorem count_add (p : Pool) (entry : Entry) (kind : Stage → Bool) :
    (p.add entry).count kind = p.count kind + (if kind .waiting then 1 else 0) := by
  simp [count, add, Job.fresh, List.countP_append, List.countP_singleton]

/-- The transfers that wait and those that run hold slots. -/
theorem count_waits_add_count_holdsPermit_le (p : Pool) :
    p.count Stage.waits + p.count Stage.holdsPermit ≤ p.count Stage.holdsSlot := by
  unfold count
  induction p.jobs with
  | nil => exact Nat.le_refl 0
  | cons j js ih =>
    have hj : (if j.stage.waits then 1 else 0) + (if j.stage.holdsPermit then 1 else 0) ≤
        if j.stage.holdsSlot then 1 else 0 := by
      cases j.stage <;> decide
    simp only [List.countP_cons]
    omega

/-! ### The balance -/

/-- **The numbers that a pool keeps are right**, and there are not too many transfers. -/
structure Balanced (config : Config) (p : Pool) : Prop where
  /-- The pool is set up as it was. -/
  config_eq : p.config = config
  /-- The slots taken are those of the transfers that have not given theirs back. -/
  slots : p.inFlight = p.count Stage.holdsSlot
  /-- Each permit is left, or some running transfer has it. -/
  permits : p.permits + p.count Stage.holdsPermit = config.permits
  /-- There are no more slots taken than there are. -/
  bounded : p.inFlight ≤ config.slots

namespace Balanced

variable {config : Config} {p p' : Pool}

theorem fresh (config : Config) : Balanced config (Pool.fresh config) :=
  ⟨rfl, rfl, rfl, Nat.zero_le _⟩

/-- A transfer is added where a slot is left. -/
theorem add (h : Balanced config p) (entry : Entry) (hroom : p.inFlight < p.config.slots) :
    Balanced config (p.add entry) where
  config_eq := h.config_eq
  slots := by
    change p.inFlight + 1 = (p.add entry).count _
    rw [count_add, h.slots]
    rfl
  permits := by
    change p.permits + (p.add entry).count _ = config.permits
    rw [count_add, ← h.permits]
    rfl
  bounded := by
    rw [h.config_eq] at hroom
    exact hroom

/-- A transfer moves. -/
theorem move {work : Nat → Job → σ → Job × σ} {s s' : σ} {m : Move} (h : Balanced config p)
    (hmoves : Moves work p s m p' s') : Balanced config p' := by
  have hslots := h.slots
  have hpermits := h.permits
  have hbounded := h.bounded
  cases hmoves with
  | @start i j hj hstage hpermit =>
    have hslot := count_setJob hj { j with stage := .running } Stage.holdsSlot
    have hheld := count_setJob hj { j with stage := .running } Stage.holdsPermit
    rw [hstage] at hslot hheld
    -- it keeps its slot, and takes a permit out of the pool
    refine ⟨h.config_eq, hslots.trans (Nat.add_right_cancel hslot).symm, ?_, hbounded⟩
    change p.permits - 1 + (p.setJob i { j with stage := .running }).count _ = config.permits
    simp only [Stage.holdsPermit, Bool.false_eq_true, if_false, if_true] at hheld
    omega
  | @work i j hj hstage hlive =>
    have hslot := count_setJob hj { (work i j s).1 with stage := .running } Stage.holdsSlot
    have hheld := count_setJob hj { (work i j s).1 with stage := .running } Stage.holdsPermit
    rw [hstage] at hslot hheld
    -- it keeps both, whatever it has become
    exact ⟨h.config_eq, hslots.trans (Nat.add_right_cancel hslot).symm,
      Nat.add_right_cancel hheld ▸ hpermits, hbounded⟩
  | @settle i j hj hstage hover =>
    have hslot := count_setJob hj { j with stage := .settled } Stage.holdsSlot
    have hheld := count_setJob hj { j with stage := .settled } Stage.holdsPermit
    rw [hstage] at hslot hheld
    -- it keeps its slot, and puts its permit back
    refine ⟨h.config_eq, hslots.trans (Nat.add_right_cancel hslot).symm, ?_, hbounded⟩
    change p.permits + 1 + (p.setJob i { j with stage := .settled }).count _ = config.permits
    simp only [Stage.holdsPermit, Bool.false_eq_true, if_false, if_true] at hheld
    omega
  | @retire i j hj hstage =>
    have hslot := count_setJob hj { j with stage := .retired } Stage.holdsSlot
    have hheld := count_setJob hj { j with stage := .retired } Stage.holdsPermit
    rw [hstage] at hslot hheld
    -- its permit is back already, and now it gives up its slot
    refine ⟨h.config_eq, ?_, Nat.add_right_cancel hheld ▸ hpermits,
      Nat.le_trans (Nat.sub_le _ _) hbounded⟩
    change p.inFlight - 1 = (p.setJob i { j with stage := .retired }).count _
    simp only [Stage.holdsSlot, Bool.false_eq_true, if_false, if_true] at hslot
    omega

/-- **Every action keeps the balance.** -/
theorem act {work : Nat → Job → σ → Job × σ} {tell : List Event → σ → σ} {s s' : σ} {a : Action}
    (h : Balanced config p) (hact : p.act? work tell s a = some (p', s')) :
    Balanced config p' := by
  rcases act?_cases hact with ⟨record, entry, -, hroom, rfl, -⟩ | ⟨rfl, -⟩ | ⟨m, hmoves⟩
  · exact h.add entry hroom
  · exact h
  · exact h.move hmoves

/-- No more transfers run than there are permits. -/
theorem running_le (h : Balanced config p) : p.count Stage.holdsPermit ≤ config.permits := by
  have hpermits := h.permits
  omega

/-- When no permit is left, only so many transfers wait. -/
theorem waiting_le (h : Balanced config p) (hnone : p.permits = 0) :
    p.count Stage.waits ≤ config.maxPending := by
  have hpermits := h.permits
  have hbounded := h.bounded
  have hslots := h.slots
  have hboth := p.count_waits_add_count_holdsPermit_le
  have hlimit : config.slots ≤ config.permits + config.maxPending := Nat.min_le_left _ _
  omega

/-- **If no transfer can move, all are done with.** -/
theorem retired_of_stuck {work : Nat → Job → σ → Job × σ} {s : σ} (h : Balanced config p)
    (hstuck : ∀ m, p.moveBy? work s m = none) : ∀ j ∈ p.jobs, j.stage = .retired := by
  have hno {m : Move} {q : Pool} {s' : σ} (hmoves : Moves work p s m q s') : False := by
    have hsome := moveBy?_eq_some_iff.mpr hmoves
    rw [hstuck m] at hsome
    exact absurd hsome (by simp)
  -- a running transfer could work or settle
  have hidle (j : Job) (hj : j ∈ p.jobs) : j.stage ≠ .running := by
    intro hstage
    obtain ⟨i, hi⟩ := List.mem_iff_getElem?.mp hj
    cases hover : j.transfer.isOver with
    | false => exact hno (.work hi hstage hover)
    | true => exact hno (.settle hi hstage hover)
  have hnone : p.count Stage.holdsPermit = 0 := by
    rw [count, List.countP_eq_zero]
    intro j hj
    have hstage := hidle j hj
    cases hj' : j.stage <;> simp_all [Stage.holdsPermit]
  -- so all permits are left, and there is at least one
  have hfree : 0 < p.permits := by
    have hpermits := h.permits
    have hsome : 1 ≤ config.permits := Nat.le_max_left _ _
    omega
  intro j hj
  obtain ⟨i, hi⟩ := List.mem_iff_getElem?.mp hj
  cases hstage : j.stage with
  | waiting => exact (hno (.start hi hstage hfree)).elim
  | running => exact absurd hstage (hidle j hj)
  | settled => exact (hno (.retire hi hstage)).elim
  | retired => rfl

/-- When all are done with, everything has been given back. -/
theorem all_given_back (h : Balanced config p) (hall : ∀ j ∈ p.jobs, j.stage = .retired) :
    p.inFlight = 0 ∧ p.permits = config.permits := by
  have hnone : p.count Stage.holdsSlot = 0 := by
    rw [count, List.countP_eq_zero]
    intro j hj
    rw [hall j hj]
    decide
  have hboth := p.count_waits_add_count_holdsPermit_le
  have hpermits := h.permits
  constructor
  · rw [h.slots, hnone]
  · omega

end Balanced

/-- **Every reachable state is balanced.** -/
theorem Reachable.balanced {work : Nat → Job → σ → Job × σ} {tell : List Event → σ → σ}
    {config : Config} {s₀ s : σ} {p : Pool} (h : Reachable work tell config s₀ p s) :
    Balanced config p := by
  induction h with
  | fresh => exact .fresh config
  | act _ hact ih => exact ih.act hact

/-! ### Admission -/

/-- **A record taken makes one transfer more**, behind all others: it waits for a permit and holds a
slot. -/
structure Taken (config : Config) (p p' : Pool) (entry : Entry) : Prop where
  /-- It has its place behind the others, which are as they were. -/
  jobs : p'.jobs = p.jobs ++ [.fresh entry config.chunkSize]
  /-- One more slot is taken. -/
  inFlight : p'.inFlight = p.inFlight + 1
  /-- No permit is. -/
  permits : p'.permits = p.permits
  /-- One more transfer waits. -/
  waits : p'.count Stage.waits = p.count Stage.waits + 1
  /-- One more holds a slot. -/
  holdsSlot : p'.count Stage.holdsSlot = p.count Stage.holdsSlot + 1
  /-- No more of them run. -/
  holdsPermit : p'.count Stage.holdsPermit = p.count Stage.holdsPermit

theorem Balanced.taken {config : Config} {p : Pool} (h : Balanced config p) (entry : Entry) :
    Taken config p (p.add entry) entry where
  jobs := by
    rw [← h.config_eq]
    rfl
  inFlight := rfl
  permits := rfl
  waits := p.count_add entry Stage.waits
  holdsSlot := p.count_add entry Stage.holdsSlot
  holdsPermit := p.count_add entry Stage.holdsPermit

/-- **Admission control.** In every state that a pool comes to, whoever brings records, whatever
the transfers do, and in whatever order:

* the slots taken are those of the transfers taken that have not given theirs back, and no more
  than there are;
* no more transfers run than there are permits, and when no permit is left only so many wait;
* a record that can be read is refused exactly if all slots are taken, which the refusal then
  says; one that cannot be read is refused for that in any case; and a refusal changes nothing;
* a record that is taken, submitted or handled, is one that can be read, and makes one transfer
  more, which waits and holds a slot;
* when all transfers are done with – and as long as they are not, some can move – no slot is taken
  and all permits are there. -/
theorem admission (work : Nat → Job → σ → Job × σ) (tell : List Event → σ → σ) (config : Config)
    (s₀ s : σ) (p : Pool) (h : Reachable work tell config s₀ p s) :
    (p.inFlight = p.count Stage.holdsSlot ∧
      p.inFlight ≤ min (max 1 (min config.maxConcurrent maxPermits) + config.maxPending) maxSlots) ∧
    p.count Stage.holdsPermit ≤ max 1 (min config.maxConcurrent maxPermits) ∧
    (p.permits = 0 → p.count Stage.waits ≤ config.maxPending) ∧
    (∀ record entry, Entry.decode record = .ok entry →
      ((∃ refusal, (p.submit record).1 = .error refusal) ↔ p.inFlight = config.slots) ∧
      (p.inFlight = config.slots →
        p.submit record = (.error (.saturated config.slots config.slots), p))) ∧
    (∀ record e, Entry.decode record = .error e → p.submit record = (.error (.malformed e), p)) ∧
    (∀ record refusal, (p.submit record).1 = .error refusal →
      (p.submit record).2 = p ∧
      p.act? work tell s (.submit record) = some (p, s) ∧
      p.act? work tell s (.handle record) = some (p, tell [refusedEvent record refusal] s)) ∧
    (∀ record told, (p.submit record).1 = .ok told →
      ∃ entry p', Entry.decode record = .ok entry ∧ told = [acceptedEvent entry] ∧
        p.act? work tell s (.submit record) = some (p', tell told s) ∧
        p.act? work tell s (.handle record) = some (p', tell told s) ∧
        Taken config p p' entry) ∧
    ((∀ j ∈ p.jobs, j.stage = .retired) → p.inFlight = 0 ∧ p.permits = config.permits) ∧
    ((∀ m, p.moveBy? work s m = none) → ∀ j ∈ p.jobs, j.stage = .retired) := by
  have hbalanced := h.balanced
  refine ⟨⟨hbalanced.slots, hbalanced.bounded⟩, hbalanced.running_le, hbalanced.waiting_le, ?_,
    fun record e => submit_of_malformed, fun record refusal => act?_of_refused, ?_,
    hbalanced.all_given_back, hbalanced.retired_of_stuck⟩
  · intro record entry hdecode
    have hbounded := hbalanced.bounded
    have hconfig := hbalanced.config_eq
    by_cases hroom : p.inFlight < p.config.slots
    · have hne : p.inFlight ≠ config.slots := by
        rw [hconfig] at hroom
        omega
      rw [submit_of_room hdecode hroom]
      exact ⟨⟨fun ⟨refusal, hrefusal⟩ => absurd hrefusal (by simp), fun heq => absurd heq hne⟩,
        fun heq => absurd heq hne⟩
    · have heq : p.inFlight = config.slots := by
        rw [hconfig] at hroom
        omega
      rw [submit_of_full hdecode hroom, hconfig, heq]
      exact ⟨⟨fun _ => rfl, fun _ => ⟨_, rfl⟩⟩, fun _ => rfl⟩
  · intro record told htaken
    obtain ⟨entry, hdecode, htold, hsubmit, hhandle⟩ := act?_of_taken htaken
    exact ⟨entry, _, hdecode, htold, hsubmit, hhandle, hbalanced.taken entry⟩

/-- With one permit and nothing to wait for, a transfer that crashed and still has its permit
keeps the next one out. -/
theorem admission_crashed :
    let config : Config := { enabled := true, chunkSize := 0, maxConcurrent := 0, maxPending := 0 }
    let crash : Nat → Job → Unit → Job × Unit :=
      fun _ j s => ({ j with transfer := j.transfer.go .crashed }, s)
    let record : Bytes := [1, 0x46, 0x54, 0, 0, 0x46, 0x54, 0, 0, 1, 0, 2, 0x2F, 0x66]
    let entry : Entry := ⟨Id.ft, Id.ft, "/f", true⟩
    let job : Job := ⟨(Transfer.fresh entry 0).go .crashed, none, .running⟩
    let p : Pool := { config, inFlight := 1, permits := 0, jobs := [job] }
    Reachable crash (fun _ s => s) config () p () ∧ Entry.decode record = .ok entry ∧
      p.submit record = (.error (.saturated 1 1), p) := by
  intro config crash record entry job p
  have hdecode : Entry.decode record = .ok entry := rfl
  have hadd : (Pool.fresh config).act? crash (fun _ s => s) () (.submit record) =
      some ((Pool.fresh config).add entry, ()) := by
    rw [act?, submit_of_room hdecode (by decide)]
  have hreachable : Reachable crash (fun _ s => s) config () p () :=
    ((Reachable.fresh.act hadd).act (a := .move (.start 0)) rfl).act (a := .move (.work 0)) rfl
  have hrefused := (admission crash (fun _ s => s) config () () p hreachable).2.2.2.1 record entry
    hdecode
  exact ⟨hreachable, hdecode, hrefused.2 (by decide)⟩

end LogCourier.Pool
