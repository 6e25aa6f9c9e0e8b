import LogCourier.Proofs.Pool.Admission
import LogCourier.Proofs.Transfer.Ending
import Mathlib.Algebra.GroupWithZero.Nat

/-!
# A pool comes to an end

A pool whose transfers work at a site has only so many moves before it
(`LogCourier.Pool.toil`): those that are left to each transfer, and one each to start, to settle and
to retire. **Every move lessens that** (`LogCourier.Pool.Moves.toil_lt`), because a step of one
transfer leaves the others with as much to do as before. So however the transfers take turns, they
come to a point where none can move, and then all are done with.

`LogCourier.Pool.drain` makes enough moves to get there
(`LogCourier.Pool.Balanced.retired_drain`).
-/

namespace LogCourier

open Transfer

variable {ε : Type}

namespace Pool

/-! ### What is left to do in a pool -/

/-- The site as a transfer sees it. -/
def Job.desk (j : Job) (s : Site ε) : Desk ε :=
  { toSite := s, source := j.source }

/-- The moves that are left to a transfer. -/
def Job.toil (s : Site ε) (j : Job) : Nat :=
  match j.stage with
  | .waiting => j.transfer.toil (j.desk s) + 3
  | .running => j.transfer.toil (j.desk s) + 2
  | .settled => 1
  | .retired => 0

/-- **The moves that are left to a pool.** -/
def toil (p : Pool) (s : Site ε) : Nat :=
  (p.jobs.map (Job.toil s)).sum

/-- A job that makes sense: its transfer is one that began from the beginning, and if it waits it
has not begun. -/
structure Job.IsSound (j : Job) : Prop where
  /-- The transfer is somewhere in a course. -/
  standing : ∃ deeds, Standing j.transfer deeds
  /-- A transfer that waits has not begun. -/
  waits : j.stage = .waiting → j.transfer.phase = .opening

theorem Job.isSound_fresh (entry : Entry) (chunkSize : Nat) :
    (Job.fresh entry chunkSize).IsSound :=
  ⟨⟨[], ⟨rfl, rfl, rfl⟩⟩, fun _ => rfl⟩

/-- No job has more to do than is allowed for. -/
theorem Job.IsSound.toil_le {j : Job} (h : j.IsSound) (s : Site ε) : j.toil s ≤ movesFor s := by
  have hle := Transfer.toil_le j.transfer (j.desk s)
  change _ ≤ fuelFor s.volume + 1 at hle
  unfold Job.toil movesFor
  cases hstage : j.stage with
  | waiting =>
    have hopening : j.transfer.toil (j.desk s) = fuelFor s.volume := by
      simp only [Transfer.toil, h.waits hstage]
      rfl
    simp only [hopening]
    exact Nat.le_refl _
  | running =>
    simp only []
    omega
  | settled =>
    simp only []
    omega
  | retired => exact Nat.zero_le _

/-- Nor has a pool. -/
theorem toil_le {p : Pool} (h : ∀ j ∈ p.jobs, j.IsSound) (s : Site ε) :
    p.toil s ≤ p.jobs.length * movesFor s := by
  rw [toil]
  generalize p.jobs = jobs at h
  induction jobs with
  | nil => exact Nat.zero_le _
  | cons j jobs ih =>
    have hj := (h j List.mem_cons_self).toil_le s
    have hjobs := ih fun k hk => h k (List.mem_cons_of_mem _ hk)
    rw [List.map_cons, List.sum_cons, List.length_cons, Nat.succ_mul]
    omega

/-- A job with less to do is a pool with less to do. -/
theorem toil_setJob_lt {p : Pool} {s : Site ε} {i : Nat} {j j' : Job} (hj : p.jobs[i]? = some j)
    (hless : j'.toil s < j.toil s) : (p.setJob i j').toil s < p.toil s := by
  have hsum := sum_map_set_add (f := Job.toil s) hj j'
  change ((p.jobs.set i j').map (Job.toil s)).sum < (p.jobs.map (Job.toil s)).sum
  omega

section Moves

variable {e : Emitter ε} {p p' : Pool} {s s' : Site ε} {m : Move}

/-- A step of one transfer leaves to the others as much as they had. -/
theorem Job.toil_work (e : Emitter ε) (j : Job) (s : Site ε) :
    Job.toil (j.work e s).2 = Job.toil s := by
  funext k
  have hsame : k.transfer.toil (k.desk (j.work e s).2) = k.transfer.toil (k.desk s) :=
    k.transfer.toil_congr (e.contents_step j.transfer (j.desk s)) rfl
  simp only [Job.toil, hsame]

/-- **Every move leaves less to do.** -/
theorem Moves.toil_lt (hsound : ∀ j ∈ p.jobs, j.IsSound)
    (hmoves : Moves (fun _ => Job.work e) p s m p' s') : p'.toil s' < p.toil s := by
  cases hmoves with
  | start hj hstage hpermit =>
    refine toil_setJob_lt hj ?_
    simp only [Job.toil, hstage]
    exact Nat.lt_succ_self _
  | @work i j hj hstage hlive =>
    obtain ⟨deeds, hstanding⟩ := (hsound j (List.mem_of_getElem? hj)).standing
    have hsame : (p.setJob i { (j.work e s).1 with stage := .running }).toil (j.work e s).2 =
        (p.setJob i { (j.work e s).1 with stage := .running }).toil s := by
      rw [toil, toil, Job.toil_work]
    rw [hsame]
    refine toil_setJob_lt hj ?_
    have hless := hstanding.toil_lt hlive e (j.desk s)
    have hafter : (j.work e s).1.transfer.toil ((j.work e s).1.desk s) =
        (j.transfer.step e.surroundings (j.desk s)).1.toil
          (j.transfer.step e.surroundings (j.desk s)).2 :=
      Transfer.toil_congr _ (e.contents_step j.transfer (j.desk s)).symm rfl
    simp only [Job.toil, hstage]
    change (j.work e s).1.transfer.toil ((j.work e s).1.desk s) + 2 < _
    omega
  | settle hj hstage hover =>
    refine toil_setJob_lt hj ?_
    simp only [Job.toil, hstage]
    omega
  | retire hj hstage =>
    refine toil_setJob_lt hj ?_
    simp only [Job.toil, hstage]
    exact Nat.one_pos

/-- After a move the jobs still make sense. -/
theorem Moves.isSound (hsound : ∀ j ∈ p.jobs, j.IsSound)
    (hmoves : Moves (fun _ => Job.work e) p s m p' s') : ∀ j ∈ p'.jobs, j.IsSound := by
  cases hmoves with
  | start hj hstage hpermit | settle hj hstage hover | retire hj hstage =>
    refine forall_mem_setJob hsound ⟨(hsound _ (List.mem_of_getElem? hj)).standing, ?_⟩
    exact fun hwaits => absurd hwaits (by simp)
  | @work i j hj hstage hlive =>
    obtain ⟨deeds, hstanding⟩ := (hsound j (List.mem_of_getElem? hj)).standing
    obtain ⟨new, told, d', hdoes, -⟩ := exists_does e.surroundings j.transfer (j.desk s)
    exact forall_mem_setJob hsound
      ⟨⟨deeds ++ new, hstanding.does hdoes⟩, fun hwaits => absurd hwaits (by simp)⟩

/-- No move adds a transfer or takes one away. -/
theorem Moves.length_jobs {σ : Type} {work : Nat → Job → σ → Job × σ} {s s' : σ}
    (hmoves : Moves work p s m p' s') : p'.jobs.length = p.jobs.length := by
  cases hmoves <;> exact List.length_set

/-- **In every reachable state the jobs make sense.** -/
theorem Reachable.isSound {tell : List Event → Site ε → Site ε} {config : Config} {s₀ : Site ε}
    (h : Reachable (fun _ => Job.work e) tell config s₀ p s) : ∀ j ∈ p.jobs, j.IsSound := by
  induction h with
  | fresh => exact fun j hj => absurd hj (by simp [Pool.fresh])
  | act _ hact ih =>
    rcases act?_cases hact with ⟨record, entry, -, -, rfl, -⟩ | ⟨rfl, -⟩ | ⟨m, hmoves⟩
    · intro j hj
      rcases List.mem_append.mp hj with hold | hnew
      · exact ih j hold
      · rw [List.mem_singleton.mp hnew]
        exact Job.isSound_fresh entry _
    · exact ih
    · exact hmoves.isSound ih

/-- A move that is possible is the one that is due for its transfer. -/
theorem Moves.exists_due {σ : Type} {work : Nat → Job → σ → Job × σ} {s s' : σ}
    (hmoves : Moves work p s m p' s') :
    ∃ (i : Nat) (j : Job), p.jobs[i]? = some j ∧ j.due i = some m := by
  cases hmoves with
  | @start i j hj hstage hpermit => exact ⟨i, j, hj, by simp only [Job.due, hstage]⟩
  | @work i j hj hstage hlive => exact ⟨i, j, hj, by simp [Job.due, hstage, hlive]⟩
  | @settle i j hj hstage hover => exact ⟨i, j, hj, by simp [Job.due, hstage, hover]⟩
  | @retire i j hj hstage => exact ⟨i, j, hj, by simp only [Job.due, hstage]⟩

/-! ### The oldest first -/

/-- The move that the oldest transfer makes which can. -/
def oldest? (e : Emitter ε) (p : Pool) (s : Site ε) : Option (Pool × Site ε) :=
  p.jobs.zipIdx.findSome? fun (j, i) => (j.due i).bind (p.move? e s)

theorem runOldest_succ (e : Emitter ε) (fuel : Nat) (p : Pool) (s : Site ε) :
    runOldest e (fuel + 1) p s =
      match p.oldest? e s with
      | some (p, s) => runOldest e fuel p s
      | none => (p, s) :=
  rfl

/-- It is a move. -/
theorem exists_moves_of_oldest? (h : p.oldest? e s = some (p', s')) :
    ∃ m, Moves (fun _ => Job.work e) p s m p' s' := by
  obtain ⟨⟨j, i⟩, -, hmove⟩ := List.exists_of_findSome?_eq_some h
  obtain ⟨m, -, hm⟩ := Option.bind_eq_some_iff.mp hmove
  exact ⟨m, moveBy?_eq_some_iff.mp hm⟩

/-- If there is none, no move is possible. -/
theorem moveBy?_eq_none_of_oldest? (h : p.oldest? e s = none) (m : Move) :
    p.moveBy? (fun _ => Job.work e) s m = none := by
  cases hm : p.moveBy? (fun _ => Job.work e) s m with
  | none => rfl
  | some next =>
    obtain ⟨i, j, hj, hdue⟩ := (moveBy?_eq_some_iff.mp hm).exists_due
    have hmem : (j, i) ∈ p.jobs.zipIdx := List.mem_zipIdx_iff_getElem?.mpr hj
    have hnone := List.findSome?_eq_none_iff.mp h _ hmem
    simp only [hdue, Option.bind_some] at hnone
    rw [move?, hm] at hnone
    exact absurd hnone (by simp)

/-- **What every move keeps holds in the end.** -/
theorem runOldest_induction {motive : Pool → Site ε → Prop}
    (hmove : ∀ p s m p' s', motive p s → Moves (fun _ => Job.work e) p s m p' s' → motive p' s')
    (fuel : Nat) (h : motive p s) :
    motive (runOldest e fuel p s).1 (runOldest e fuel p s).2 := by
  induction fuel generalizing p s with
  | zero => exact h
  | succ fuel ih =>
    rw [runOldest_succ]
    cases holdest : p.oldest? e s with
    | none => exact h
    | some next =>
      obtain ⟨m, hmoves⟩ := exists_moves_of_oldest? holdest
      exact ih (hmove _ _ m _ _ h hmoves)

/-- Whoever runs transfers, oldest first, comes to a state that can be reached. -/
theorem Reachable.drain {tell : List Event → Site ε → Site ε} {config : Config} {s₀ : Site ε}
    (h : Reachable (fun _ => Job.work e) tell config s₀ p s) :
    Reachable (fun _ => Job.work e) tell config s₀ (p.drain e s).1 (p.drain e s).2 :=
  runOldest_induction
    (fun _ _ m _ _ hbefore hmoves => hbefore.act (a := .move m) (moveBy?_eq_some_iff.mpr hmoves))
    _ h

/-- **After enough moves none is possible.** -/
theorem moveBy?_runOldest (hsound : ∀ j ∈ p.jobs, j.IsSound) {fuel : Nat}
    (hfuel : p.toil s ≤ fuel) (m : Move) :
    (runOldest e fuel p s).1.moveBy? (fun _ => Job.work e) (runOldest e fuel p s).2 m = none := by
  induction fuel generalizing p s with
  | zero =>
    change p.moveBy? _ s m = none
    cases hm : p.moveBy? (fun _ => Job.work e) s m with
    | none => rfl
    | some next =>
      have hless := (moveBy?_eq_some_iff.mp hm).toil_lt hsound
      exact absurd hfuel (Nat.not_le.mpr (Nat.lt_of_le_of_lt (Nat.zero_le _) hless))
  | succ fuel ih =>
    rw [runOldest_succ]
    cases holdest : p.oldest? e s with
    | none => exact moveBy?_eq_none_of_oldest? holdest m
    | some next =>
      obtain ⟨m', hmoves⟩ := exists_moves_of_oldest? holdest
      exact ih (hmoves.isSound hsound)
        (Nat.le_of_lt_succ (Nat.lt_of_lt_of_le (hmoves.toil_lt hsound) hfuel))

/-- **Whoever runs all transfers to their end is done with all.** -/
theorem Balanced.retired_drain {config : Config} (h : Balanced config p)
    (hsound : ∀ j ∈ p.jobs, j.IsSound) (e : Emitter ε) (s : Site ε) :
    ∀ j ∈ (p.drain e s).1.jobs, j.stage = .retired := by
  have hbalanced : Balanced config (p.drain e s).1 :=
    runOldest_induction (motive := fun p _ => Balanced config p)
      (fun _ _ _ _ _ hbefore hmoves => hbefore.move hmoves) _ h
  exact hbalanced.retired_of_stuck (moveBy?_runOldest hsound (toil_le hsound s))

end Moves

end Pool

end LogCourier
