import LogCourier.Proofs.Pool.Ending
import LogCourier.Proofs.Transfer.Likeness

/-!
# The same pool in two places

Two sites have the same files on the same disk, and whoever takes packets at the one is somehow
related to whoever takes them at the other. If they take the packets of a transfer alike
(`LogCourier.Emitter.HandsAlike`), then all that can be seen of a pool at the one is seen at the
other: **the transfers make the same steps, the files change in the same way, and the emitters stay
related** (`LogCourier.Pool.drain_alike`). What has been told does not matter to anybody.

It may be that they take packets alike only under some condition, such as that no clock has come to
its end. Then it is enough that the condition holds when all is done. For it is one that cannot come
about later: if it holds after a packet it held before, and so it did all along.

The steps of transfers are those of `LogCourier.Transfer.step_alike`. That the same transfer is the
oldest that can move follows, since what can move is a matter of the pool.
-/

namespace LogCourier

open Transfer

variable {ε δ : Type}

/-- The same files on the same disk, and related emitters. -/
structure Site.Alike (R : ε → δ → Prop) (s : Site ε) (u : Site δ) : Prop where
  /-- The files are the same. -/
  files : s.files = u.files
  /-- The disk is the same. -/
  disk : s.disk = u.disk
  /-- The emitters are related. -/
  output : R s.output u.output

/-- And the same file open. -/
structure Desk.Alike (R : ε → δ → Prop) (d : Desk ε) (d' : Desk δ) : Prop
    extends Site.Alike R d.toSite d'.toSite where
  /-- The same file is open. -/
  source : d.source = d'.source

/-- **Emitters that take the packets of a transfer alike**, each at its own time, under a condition
that holds of what they were if it holds of what they have become. -/
structure Emitter.HandsAlike (R H : ε → δ → Prop) (e : Emitter ε) (f : Emitter δ) : Prop where
  /-- The condition held before the one took a packet. -/
  before : ∀ p x y, H (e.take p x).2.2 y → H x y
  /-- It held before the other took one. -/
  before' : ∀ p x y, H x (f.take p y).2.2 → H x y
  /-- They take packets alike. -/
  hands : ∀ (t : Transfer) (content : Packet.Content) (payload : Bytes) (x : ε) (y : δ), R x y →
    H (e.take (t.packet content payload (e.ticks x)) x).2.2
      (f.take (t.packet content payload (f.ticks y)) y).2.2 →
    (e.take (t.packet content payload (e.ticks x)) x).1 =
        (f.take (t.packet content payload (f.ticks y)) y).1 ∧
      R (e.take (t.packet content payload (e.ticks x)) x).2.2
        (f.take (t.packet content payload (f.ticks y)) y).2.2

section Likeness

variable {R H : ε → δ → Prop} {e : Emitter ε} {f : Emitter δ}

/-- **A step changes an emitter only by the packet that is due**, if one is. -/
theorem Emitter.output_step (e : Emitter ε) (t : Transfer) (d : Desk ε) :
    (t.step e.surroundings d).2.output =
      match t.due with
      | some (content, payload) =>
        (e.take (t.packet content payload (e.ticks d.output)) d.output).2.2
      | none => d.output := by
  cases hphase : t.phase with
  | opening =>
    simp only [step, due, hphase, Emitter.surroundings, openSource]
    cases d.disk.openFile d.files t.entry.fileName with
    | error error => rfl
    | ok f => by_cases hroom : t.reader.size ≤ maxChunkSize <;> simp only [hroom, if_true, if_false]
  | reading =>
    simp only [step, due, hphase, Emitter.surroundings, readSource]
    cases d.source <;> rfl
  | handing chunk =>
    simp only [step, due, hphase, Emitter.surroundings, handOver]
    cases (e.take (t.packet .info chunk (e.ticks d.output)) d.output).1 <;> rfl
  | notifying failure =>
    simp only [step, due, hphase, Emitter.surroundings, handOver]
    cases (e.take (t.packet .error (Bytes.ofText (failure.notice t.entry.fileName))
      (e.ticks d.output)) d.output).1 <;> rfl
  | closing =>
    simp only [step, due, hphase, Transfer.removeSource, Emitter.surroundings, removeSource]
    cases t.entry.deleteFile with
    | false => rfl
    | true => cases d.files.removeFile t.entry.fileName <;> rfl
  | «over» r | crashed => simp only [step, due, hphase]

/-- **A step is alike at two desks**, if the condition holds after it. -/
theorem Desk.Alike.step (hhands : e.HandsAlike R H f) {d : Desk ε} {d' : Desk δ}
    (h : d.Alike R d') (t : Transfer)
    (hheld : H (t.step e.surroundings d).2.output (t.step f.surroundings d').2.output) :
    Transfer.Alike (Desk.Alike R) (t.step e.surroundings d) (t.step f.surroundings d') := by
  rw [e.output_step, f.output_step] at hheld
  refine step_alike h (fun _ => ?_) (fun _ => ?_) (fun content payload hdue => ?_) (fun _ => ?_)
    fun event _ _ h => ⟨⟨h.files, h.disk, h.output⟩, h.source⟩
  · simp only [Emitter.surroundings, Emitter.openSource, h.files, h.disk]
    cases d'.disk.openFile d'.files t.entry.fileName with
    | error error => exact ⟨rfl, h⟩
    | ok file => exact ⟨rfl, ⟨h.files, h.disk, h.output⟩, rfl⟩
  · simp only [Emitter.surroundings, Emitter.readSource, h.files, h.disk, h.source]
    cases d'.source with
    | none => exact ⟨rfl, h⟩
    | some file => exact ⟨rfl, ⟨h.files, h.disk, h.output⟩, rfl⟩
  · simp only [hdue] at hheld
    obtain ⟨hback, houtput⟩ := hhands.hands t content payload _ _ h.output hheld
    exact ⟨hback, ⟨h.files, h.disk, houtput⟩, h.source⟩
  · simp only [Emitter.surroundings, Emitter.removeSource, h.files]
    cases d'.files.removeFile t.entry.fileName with
    | error error => exact ⟨rfl, h⟩
    | ok files => exact ⟨rfl, ⟨rfl, h.disk, h.output⟩, h.source⟩

namespace Pool

variable {p p' p'' : Pool} {s s' : Site ε} {u u' : Site δ} {m : Move}

/-! ### What becomes of an emitter -/

/-- **What every packet keeps every move keeps.** -/
theorem Moves.output_kept {G : ε → Prop} (hkeeps : ∀ p x, G x → G (e.take p x).2.2)
    (hmoves : Moves (fun _ => Job.work e) p s m p' s') (h : G s.output) : G s'.output := by
  cases hmoves with
  | @work i j hj hstage hlive =>
    change G (j.transfer.step e.surroundings (j.desk s)).2.output
    rw [e.output_step]
    split
    · exact hkeeps _ _ h
    · exact h
  | start | settle | retire => exact h

/-- Any number of moves does. -/
theorem output_kept_runOldest {G : ε → Prop} (hkeeps : ∀ p x, G x → G (e.take p x).2.2)
    (fuel : Nat) (h : G s.output) : G (runOldest e fuel p s).2.output :=
  runOldest_induction (motive := fun _ s => G s.output)
    (fun _ _ _ _ _ hbefore hmoves => hmoves.output_kept hkeeps hbefore) fuel h

/-- So what held before each packet if it held after, and holds in the end, held in the
beginning. -/
theorem output_before_runOldest {G : ε → Prop} (hbefore : ∀ p x, G (e.take p x).2.2 → G x)
    (fuel : Nat) (h : G (runOldest e fuel p s).2.output) : G s.output := by
  by_contra hnot
  exact output_kept_runOldest (G := (¬ G ·)) (fun p x hx hafter => hx (hbefore p x hafter)) fuel
    hnot h

/-! ### The same moves -/

/-- The same job, and sites that are alike. -/
theorem Job.work_alike (hhands : e.HandsAlike R H f) (h : s.Alike R u) (j : Job)
    (hheld : H (j.work e s).2.output (j.work f u).2.output) :
    Transfer.Alike (Site.Alike R) (j.work e s) (j.work f u) := by
  have hdesks : (j.desk s).Alike R (j.desk u) := ⟨h, rfl⟩
  obtain ⟨htransfer, hafter⟩ := hdesks.step hhands j.transfer hheld
  refine ⟨?_, hafter.toAlike⟩
  have hsource := hafter.source
  simp only [Job.work]
  rw [show j.transfer.step e.surroundings { toSite := s, source := j.source } =
      j.transfer.step e.surroundings (j.desk s) from rfl,
    show j.transfer.step f.surroundings { toSite := u, source := j.source } =
      j.transfer.step f.surroundings (j.desk u) from rfl, htransfer, hsource]

/-- **The same moves are possible**, whatever the sites are. -/
theorem isSome_move? (e : Emitter ε) (f : Emitter δ) (p : Pool) (s : Site ε) (u : Site δ)
    (m : Move) : (p.move? e s m).isSome = (p.move? f u m).isSome := by
  cases m with
  | start i | work i | settle i | retire i =>
    simp only [move?, moveBy?, bind, Option.bind]
    cases p.jobs[i]? with
    | none => rfl
    | some j =>
      simp only []
      split <;> rfl

/-- **They lead to the same.** -/
theorem Moves.alike (hhands : e.HandsAlike R H f) (h : s.Alike R u)
    (hmoves : Moves (fun _ => Job.work e) p s m p' s')
    (hmoves' : Moves (fun _ => Job.work f) p u m p'' u') (hheld : H s'.output u'.output) :
    p' = p'' ∧ s'.Alike R u' := by
  cases hmoves with
  | @work i j hj hstage hlive =>
    cases hmoves' with
    | work hj' =>
      obtain rfl := Option.some.inj (hj.symm.trans hj')
      obtain ⟨hjob, hafter⟩ := Job.work_alike hhands h j hheld
      exact ⟨by rw [hjob], hafter⟩
  -- no other move has anything to do with the site
  | start hj | settle hj | retire hj =>
    cases hmoves'
    rename_i hj'
    obtain rfl := Option.some.inj (hj.symm.trans hj')
    exact ⟨rfl, h⟩

/-- The oldest transfer that can move is the same, and so is its move. -/
theorem oldest?_cases (e : Emitter ε) (f : Emitter δ) (p : Pool) (s : Site ε) (u : Site δ) :
    (p.oldest? e s = none ∧ p.oldest? f u = none) ∨
      ∃ m p' s' p'' u', p.oldest? e s = some (p', s') ∧ p.oldest? f u = some (p'', u') ∧
        Moves (fun _ => Job.work e) p s m p' s' ∧ Moves (fun _ => Job.work f) p u m p'' u' := by
  have hsame (x : Job × Nat) : ((x.1.due x.2).bind (p.move? e s)).isSome =
      ((x.1.due x.2).bind (p.move? f u)).isSome := by
    cases x.1.due x.2 with
    | none => rfl
    | some m => exact isSome_move? e f p s u m
  rcases findSome?_cases hsame p.jobs.zipIdx with hnone |
    ⟨x, ⟨p', s'⟩, ⟨p'', u'⟩, hx, hx', holdest, holdest'⟩
  · exact Or.inl hnone
  · obtain ⟨m, hdue, hm⟩ := Option.bind_eq_some_iff.mp hx
    rw [hdue, Option.bind_some] at hx'
    exact Or.inr ⟨m, p', s', p'', u', holdest, holdest', moveBy?_eq_some_iff.mp hm,
      moveBy?_eq_some_iff.mp hx'⟩

/-- **Moves of the oldest transfers are alike**, if the condition holds after the last. -/
theorem runOldest_alike (hhands : e.HandsAlike R H f) (fuel : Nat) (h : s.Alike R u)
    (hheld : H (runOldest e fuel p s).2.output (runOldest f fuel p u).2.output) :
    Transfer.Alike (Site.Alike R) (runOldest e fuel p s) (runOldest f fuel p u) := by
  induction fuel generalizing p s u with
  | zero => exact ⟨rfl, h⟩
  | succ fuel ih =>
    rw [runOldest_succ, runOldest_succ] at hheld ⊢
    rcases oldest?_cases e f p s u with ⟨hs, hu⟩ | ⟨m, p', s', p'', u', hs, hu, hmoves, hmoves'⟩
    · rw [hs, hu]
      exact ⟨rfl, h⟩
    · rw [hs, hu] at hheld ⊢
      have hlast : H (runOldest e fuel p' s').2.output (runOldest f fuel p'' u').2.output := hheld
      have hnear : H (runOldest e fuel p' s').2.output u'.output :=
        output_before_runOldest (G := H _) (fun p => hhands.before' p _) fuel hlast
      have hafter : H s'.output u'.output :=
        output_before_runOldest (G := (H · u'.output)) (fun p x => hhands.before p x _) fuel hnear
      obtain ⟨rfl, hsites⟩ := hmoves.alike hhands h hmoves' hafter
      exact ih hsites hheld

/-- **Running all transfers to their end is alike at two sites**, if the condition holds then. -/
theorem drain_alike (hhands : e.HandsAlike R H f) (h : s.Alike R u) (p : Pool)
    (hheld : H (p.drain e s).2.output (p.drain f u).2.output) :
    Transfer.Alike (Site.Alike R) (p.drain e s) (p.drain f u) := by
  have hmoves : movesFor s = movesFor u := by
    rw [movesFor, movesFor, Site.volume, Site.volume, h.files]
  rw [drain, drain, hmoves] at hheld ⊢
  exact runOldest_alike hhands _ h hheld

end Pool

end Likeness

end LogCourier
