import LogCourier.Proofs.Transfer.Ending
import LogCourier.Proofs.Transfer.Likeness

/-!
# A transfer among others

Several transfers use the same files, and each of them may remove one. Does a transfer notice the
others? This file follows one transfer at a desk whose files are no longer what they were: some
names are gone (`LogCourier.FileTree.Without`), but none by which its own path leads. **It makes the
same steps as at a desk where nothing is gone** (`LogCourier.Transfer.Traced.step`): it opens the
same file, reads the same bytes and hands over the same packets, but for their times, and it removes
its file, or not, with the same answer.

Where a transfer removes a file, that is the file which it has read, so its path leads to one
(`LogCourier.Transfer.Sourced`), and what is gone afterwards is the name by which the path leads
(`LogCourier.Transfer.removedName?`). So the effect on the files can be told by naming names.

A transfer **alone** (`LogCourier.Transfer.alone`) is one that nobody disturbs and from which
everything is taken.
-/

namespace LogCourier

open Transfer

variable {ε α : Type}

/-- An emitter that takes whatever it gets. -/
def Emitter.Willing (e : Emitter ε) : Prop :=
  ∀ p x, (e.take p x).1 = true

namespace Transfer

/-! ### Deeds without their times -/

/-- A deed without the time of the packet in it. -/
def Deed.untimed : Deed → Deed
  | .handed p back => .handed p.untimed back
  | d => d

theorem taken_untimed (deeds : List Deed) :
    taken (deeds.map Deed.untimed) = (taken deeds).map Packet.untimed := by
  rw [taken, taken, List.filterMap_map, List.map_filterMap]
  refine congrArg (List.filterMap · deeds) (funext fun d => ?_)
  cases d with
  | handed p back => cases back <;> rfl
  | _ => rfl

/-! ### What is removed -/

/-- Whether a transfer has removed its file. -/
def hasRemoved (t : Transfer) : Bool :=
  match t.phase with
  | .over r => r.deletion = .deleted
  | _ => false

theorem hasRemoved_completed (t : Transfer) (deletion : Deletion) :
    (t.completed deletion).hasRemoved = decide (deletion = .deleted) :=
  rfl

/-- A transfer that failed keeps its file. -/
theorem hasRemoved_failed (t : Transfer) (failure : Failure) :
    (t.failed failure).hasRemoved = false := by
  simp only [hasRemoved, failed, go_phase, reportWith, decide_eq_false_iff_not]
  split <;> simp

/-- **The name that is gone** because of a transfer, if there is one. The tree is the one in the
beginning. -/
def removedName? (tree : FileTree) (t : Transfer) : Option Location :=
  if t.hasRemoved then (tree.resolve .name t.entry.fileName).toOption else none

/-- A transfer that is not over has removed nothing yet. -/
theorem hasRemoved_of_live {t : Transfer} (h : t.isOver = false) : t.hasRemoved = false := by
  cases hphase : t.phase with
  | «over» r => exact absurd h (by simp [isOver, hphase])
  | _ => simp only [hasRemoved, hphase]

theorem removedName?_of_live {t : Transfer} (h : t.isOver = false) (tree : FileTree) :
    t.removedName? tree = none := by
  rw [removedName?, hasRemoved_of_live h]
  rfl

/-- **What a transfer has open, or removes, is the file to which its path led** in the beginning. -/
structure Sourced (tree : FileTree) (t : Transfer) (source : Option OpenFile) : Prop where
  /-- The path led to the file that is open. -/
  opened : ∀ f number, source = some f → f.number? = some number →
    tree.stat t.entry.fileName = .ok (.file number)
  /-- The path led to a file if that is to be removed, or has been. -/
  found : t.phase = .closing ∨ t.hasRemoved = true →
    ∃ number, tree.stat t.entry.fileName = .ok (.file number)

theorem sourced_fresh (tree : FileTree) (entry : Entry) (chunkSize : Nat) :
    Sourced tree (fresh entry chunkSize) none where
  opened := fun _ _ h => absurd h (by simp)
  found := fun h => absurd h (by simp [fresh, hasRemoved])

/-- Something that is neither over nor about to remove its file has only to have the right file
open. -/
theorem Sourced.of_busy {tree : FileTree} {t : Transfer} {source : Option OpenFile}
    (hopened : ∀ f number, source = some f → f.number? = some number →
      tree.stat t.entry.fileName = .ok (.file number))
    (hphase : t.phase ≠ .closing) (hkept : t.hasRemoved = false) : Sourced tree t source where
  opened := hopened
  found := by
    rintro (hclosing | hremoved)
    · exact absurd hclosing hphase
    · rw [hkept] at hremoved
      exact absurd hremoved (by simp)

/-- **It stays so with every step**, if the path opens as in the beginning. -/
theorem Sourced.step {tree : FileTree} {t : Transfer} {d : Desk ε} (h : Sourced tree t d.source)
    (hopens : d.files.openFile t.entry.fileName = tree.openFile t.entry.fileName)
    (e : Emitter ε) :
    Sourced tree (t.step e.surroundings d).1 (t.step e.surroundings d).2.source := by
  cases hphase : t.phase with
  | opening =>
    simp only [Transfer.step, hphase, Emitter.surroundings, Emitter.openSource]
    cases hdisk : d.disk.openFile d.files t.entry.fileName with
    | error error => exact .of_busy h.opened (by simp) (by simp [hasRemoved])
    | ok f =>
      have hfile := Disk.openFile_eq_ok hdisk
      have hopened : ∀ f' number, some f = some f' → f'.number? = some number →
          tree.stat t.entry.fileName = .ok (.file number) := by
        intro f' number hf hnumber
        obtain rfl := Option.some.inj hf
        exact FileTree.stat_of_openFile (hopens.symm.trans hfile) hnumber
      by_cases hroom : t.reader.size ≤ maxChunkSize
      · simp only [if_pos hroom]
        exact .of_busy hopened (by simp) (by simp [hasRemoved])
      · simp only [if_neg hroom]
        exact .of_busy hopened (by simp) (by simp [hasRemoved])
  | reading =>
    have hentry (reading : Reading) : (t.accept reading).entry = t.entry :=
      (Does.reads hphase reading).keepsEntry.1
    have hfailed (error : IoError) (source : Option OpenFile)
        (hopened : ∀ f number, source = some f → f.number? = some number →
          tree.stat t.entry.fileName = .ok (.file number)) :
        Sourced tree (t.accept (.failed error)) source := by
      rw [accept_failed]
      exact .of_busy hopened (by simp [stumble]) (by simp [stumble, hasRemoved])
    simp only [Transfer.step, hphase, Emitter.surroundings, Emitter.readSource]
    cases hsource : d.source with
    | none => exact hfailed _ d.source h.opened
    | some f =>
      rw [hsource] at h
      rcases d.disk.read_cases d.files t.reader.wanted f with ⟨error, hbroken⟩ | ⟨fewer, -, hread⟩
      · simp only [hbroken]
        exact hfailed _ _ h.opened
      · simp only [hread]
        obtain ⟨number?, position⟩ := f
        cases number? with
        | none => exact hfailed _ _ h.opened
        -- only a file gives bytes, or the end of them
        | some number =>
          have hstat := h.opened _ number rfl rfl
          refine ⟨fun f m hf hm => ?_, fun _ => ⟨number, ?_⟩⟩
          · obtain rfl := Option.some.inj hf
            rw [hentry, ← Option.some.inj hm]
            exact hstat
          · rw [hentry]
            exact hstat
  | handing chunk =>
    simp only [Transfer.step, hphase]
    rcases htake : e.surroundings.take (t.packet .info chunk (e.surroundings.ticks d)) d
      with ⟨back, d'⟩
    have hsource : d'.source = d.source := by
      rw [← show _ = d' from congrArg Prod.snd htake]
      rfl
    rw [← hsource] at h
    cases back <;> exact .of_busy h.opened (by simp [handed]) (by simp [handed, hasRemoved])
  | notifying failure =>
    simp only [Transfer.step, hphase]
    rcases htake : e.surroundings.take (t.packet .error
      (Bytes.ofText (failure.notice t.entry.fileName)) (e.surroundings.ticks d)) d with ⟨back, d'⟩
    have hsource : d'.source = d.source := by
      rw [← show _ = d' from congrArg Prod.snd htake]
      rfl
    rw [← hsource] at h
    cases back with
    | false => exact .of_busy h.opened (by simp) (by simp [hasRemoved])
    | true => exact .of_busy h.opened (by simp [failed]) (hasRemoved_failed t failure)
  | closing =>
    have hfound := h.found (.inl hphase)
    simp only [Transfer.step, hphase, removeSource, Emitter.surroundings, Emitter.removeSource]
    cases t.entry.deleteFile with
    | false => exact ⟨h.opened, fun _ => hfound⟩
    | true =>
      cases d.files.removeFile t.entry.fileName <;> exact ⟨h.opened, fun _ => hfound⟩
  | «over» r | crashed =>
    simp only [Transfer.step, hphase]
    exact h

/-! ### What a step leaves of the files -/

/-- A file is removed only by a transfer that has come to the end of it. -/
theorem files_step_of_ne_closing {t : Transfer} (h : t.phase ≠ .closing) (e : Emitter ε)
    (d : Desk ε) : (t.step e.surroundings d).2.files = d.files := by
  obtain ⟨new, told, d', hdoes, hperforms, hstep, -⟩ := exists_does e.surroundings t d
  rw [hstep, e.spares_files.tellAll]
  refine e.spares_files.performs hperforms fun deed hdeed => ?_
  generalize (t.step e.surroundings d).1 = t' at hdoes
  cases hdoes with
  | removes hphase wanted answer => exact absurd hphase h
  | keeps | rests => exact absurd hdeed (by simp)
  | _ =>
    rw [List.mem_singleton.mp hdeed]
    rfl

/-- And only such a transfer has removed one. -/
theorem hasRemoved_step_of_ne_closing {t : Transfer} (h : t.phase ≠ .closing)
    (hlive : t.isOver = false) (e : Emitter ε) (d : Desk ε) :
    (t.step e.surroundings d).1.hasRemoved = false := by
  obtain ⟨new, told, d', hdoes, -⟩ := exists_does e.surroundings t d
  generalize (t.step e.surroundings d).1 = t' at hdoes
  cases hdoes with
  | removes hphase | keeps hphase => exact absurd hphase h
  | rests hover =>
    rw [hlive] at hover
    exact absurd hover (by simp)
  | notifies hphase ticks => exact hasRemoved_failed t _
  | reads hphase reading =>
    refine hasRemoved_of_live ?_
    rcases accept_cases t reading with ⟨-, haccept⟩ | ⟨e, -, haccept⟩ | ⟨-, -, haccept⟩ |
      ⟨bs, -, ⟨-, -, haccept⟩ | ⟨-, -, haccept⟩⟩ <;> rw [haccept]
    · exact hlive
    · simp [isOver, stumble]
    · simp [isOver]
    · simp [isOver, gather, hphase]
    · by_cases hlast : t.sequence = lastSequence <;> simp [isOver, offer, phaseAfter, hlast]
  | _ => rfl

/-- **After a step one name more is gone, or none**, if the path of the transfer does not lead by
what is gone already. -/
theorem Sourced.without_step {tree : FileTree} {t : Transfer} {d : Desk ε} {gone : List Location}
    (h : Sourced tree t d.source) (hwithout : tree.Without gone d.files)
    (hapart : ∀ loc ∈ gone, loc ∉ tree.places t.entry.fileName) (hlive : t.isOver = false)
    (e : Emitter ε) :
    tree.Without (gone ++ ((t.step e.surroundings d).1.removedName? tree).toList)
      (t.step e.surroundings d).2.files := by
  by_cases hphase : t.phase = .closing
  · obtain ⟨number, hstat⟩ := h.found (.inl hphase)
    obtain ⟨name, sight, hresolve, hplace, hsight, hdir, hremove⟩ :=
      FileTree.removeFile_of_stat hstat
    have hanswer := hremove gone d.files hwithout hapart
    simp only [Transfer.step, hphase, removeSource, Emitter.surroundings, Emitter.removeSource]
    cases hwanted : t.entry.deleteFile with
    | false =>
      rw [removedName?, hasRemoved_completed]
      simpa using hwithout
    | true =>
      rw [hanswer]
      cases hslash : FileTree.endsInSlash t.entry.fileName with
      | true =>
        simp only [if_true, Deletion.ofRemoval, removedName?, hasRemoved_completed]
        simpa using hwithout
      | false =>
        have hnew : name ∉ gone := fun hgone => hapart name hgone hplace
        have hname : (t.completed .deleted).removedName? tree = some name := by
          rw [removedName?, hasRemoved_completed]
          change (tree.resolve .name t.entry.fileName).toOption = some name
          rw [hresolve]
          rfl
        change tree.Without (gone ++ ((t.completed .deleted).removedName? tree).toList)
          (d.files.erase name)
        rw [hname]
        exact hwithout.concat hnew hsight hdir
  · rw [removedName?, hasRemoved_step_of_ne_closing hphase hlive, files_step_of_ne_closing hphase]
    simpa using hwithout

/-! ### The same steps -/

/-- **The same file is open, and the same has been done**, but for the times. -/
structure Traced (x : Desk ε × List Deed) (y : Desk α × List Deed) : Prop where
  /-- The disk is the same. -/
  disk : x.1.disk = y.1.disk
  /-- The same file is open, and as much has been read of it. -/
  source : x.1.source = y.1.source
  /-- The deeds are the same. -/
  deeds : x.2.map Deed.untimed = y.2.map Deed.untimed

/-- One deed more on either side. -/
theorem Traced.concat {x : Desk ε × List Deed} {y : Desk α × List Deed} (h : Traced x y)
    {d : Desk ε} {d' : Desk α} (hdisk : d.disk = d'.disk) (hsource : d.source = d'.source)
    {deed deed' : Deed} (hdeed : deed.untimed = deed'.untimed) :
    Traced (d, x.2 ++ [deed]) (d', y.2 ++ [deed']) where
  disk := hdisk
  source := hsource
  deeds := by
    rw [List.map_append, List.map_append, h.deeds, List.map_singleton, List.map_singleton, hdeed]

section Steps

variable {tree : FileTree} {t : Transfer} {x : Desk ε × List Deed} {y : Desk α × List Deed}
  {gone : List Location} {e : Emitter ε} {f : Emitter α}

/-- **A transfer among others makes the step that it makes where nothing is gone**, if a packet that
it hands over is taken there and here, or thrown there and here. -/
theorem Traced.step (h : Traced x y) (hsourced : Sourced tree t x.1.source)
    (hwithout : tree.Without gone x.1.files)
    (hapart : ∀ loc ∈ gone, loc ∉ tree.places t.entry.fileName) (hfiles : y.1.files = tree)
    (htaken : ∀ content payload, t.due = some (content, payload) →
      (e.take (t.packet content payload (e.ticks x.1.output)) x.1.output).1 =
        (f.take (t.packet content payload (f.ticks y.1.output)) y.1.output).1) :
    Alike Traced (t.step e.surroundings.recorded x) (t.step f.surroundings.recorded y) := by
  obtain ⟨d, deeds⟩ := x
  obtain ⟨d', deeds'⟩ := y
  change d'.files = tree at hfiles
  have hdisk : d.disk = d'.disk := h.disk
  have hsource : d.source = d'.source := h.source
  refine step_alike h (fun _ => ?_) (fun _ => ?_) (fun content payload hdue => ?_)
    (fun hphase => ?_) fun _ _ _ h => ⟨h.disk, h.source, h.deeds⟩
  · have hopen : d.disk.openFile d.files t.entry.fileName =
        d'.disk.openFile tree t.entry.fileName := by
      rw [hdisk, Disk.openFile, Disk.openFile, hwithout.openFile_eq hapart]
    simp only [Surroundings.recorded, Emitter.surroundings, Emitter.openSource, hopen, hfiles]
    cases d'.disk.openFile tree t.entry.fileName with
    | error error => exact ⟨rfl, h.concat hdisk hsource rfl⟩
    | ok file =>
      refine ⟨rfl, h.concat ?_ rfl rfl⟩
      exact hdisk
  · have hfile (limit : Nat) (file : OpenFile) :
        d.files.read limit file = tree.read limit file := by
      unfold FileTree.read
      cases file.number? with
      | none => rfl
      | some number => simp only [hwithout.content_eq]
    have hread (limit : Nat) (file : OpenFile) :
        d.disk.read d.files limit file = d'.disk.read tree limit file := by
      simp only [hdisk, Disk.read, hfile]
    simp only [Surroundings.recorded, Emitter.surroundings, Emitter.readSource, hread, hfiles,
      hsource]
    cases hopen : d'.source with
    | none => exact ⟨rfl, h.concat hdisk hsource rfl⟩
    | some file =>
      refine ⟨rfl, h.concat ?_ rfl rfl⟩
      exact hdisk
  · have hback := htaken content payload hdue
    simp only [Surroundings.recorded, Emitter.surroundings, Emitter.handOver]
    refine ⟨hback, h.concat ?_ ?_ ?_⟩
    · exact hdisk
    · exact hsource
    · rw [Deed.untimed, Deed.untimed, Deed.handed.injEq]
      exact ⟨t.untimed_packet content payload _ _, hback⟩
  -- what is removed is the file that the transfer has read
  · obtain ⟨number, hstat⟩ := hsourced.found (.inl hphase)
    obtain ⟨name, sight, -, -, -, -, hremove⟩ := FileTree.removeFile_of_stat hstat
    simp only [Surroundings.recorded, Emitter.surroundings, Emitter.removeSource, hfiles,
      hremove gone d.files hwithout hapart,
      hremove [] tree (FileTree.Without.refl tree) fun _ hmem => absurd hmem (by simp)]
    cases FileTree.endsInSlash t.entry.fileName with
    | true => exact ⟨rfl, h.concat hdisk hsource rfl⟩
    | false =>
      refine ⟨rfl, h.concat ?_ ?_ rfl⟩
      · exact hdisk
      · exact hsource

/-- What comes of handing over a packet goes on record, and whoever is thrown at crashes. -/
theorem step_recorded_of_due {content : Packet.Content} {payload : Bytes}
    (h : t.due = some (content, payload)) (e : Emitter ε) (d : Desk ε) (deeds : List Deed) :
    let p := t.packet content payload (e.ticks d.output)
    (t.step e.surroundings.recorded (d, deeds)).2.2 =
        deeds ++ [.handed p (e.take p d.output).1] ∧
      ((e.take p d.output).1 = false →
        (t.step e.surroundings.recorded (d, deeds)).1 = t.go .crashed) := by
  intro p
  rcases htake : e.take p d.output with ⟨back, told, output⟩
  have hstep : ∀ p', p' = p → e.surroundings.recorded.take p' (d, deeds) =
      (back, { d with output, log := d.log ++ told }, deeds ++ [.handed p back]) := by
    rintro _ rfl
    simp only [Surroundings.recorded, Emitter.surroundings, Emitter.handOver, htake]
  have hticks : e.surroundings.recorded.ticks (d, deeds) = e.ticks d.output := rfl
  cases hphase : t.phase with
  | handing chunk =>
    simp only [due, hphase, Option.some.injEq, Prod.mk.injEq] at h
    obtain ⟨rfl, rfl⟩ := h
    simp only [Transfer.step, hphase, hticks, hstep (t.packet .info chunk (e.ticks d.output)) rfl]
    cases back <;> simp
  | notifying failure =>
    simp only [due, hphase, Option.some.injEq, Prod.mk.injEq] at h
    obtain ⟨rfl, rfl⟩ := h
    simp only [Transfer.step, hphase, hticks, hstep (t.packet .error
      (Bytes.ofText (failure.notice t.entry.fileName)) (e.ticks d.output)) rfl]
    cases back <;> simp [Surroundings.recorded]
  | _ => exact absurd h (by simp [due, hphase])

end Steps

/-! ### Runs, step by step -/

section Runs

variable {σ : Type}

/-- A record of a step does not change it. -/
theorem step_recorded (around : Surroundings σ) (t : Transfer) (s : σ) (deeds : List Deed) :
    ∃ new, t.step around.recorded (s, deeds) =
      ((t.step around s).1, (t.step around s).2, deeds ++ new) := by
  obtain ⟨new, -, -, -, -, -, hrecord⟩ := exists_does around t s
  exact ⟨new, hrecord deeds⟩

end Runs

/-! ### Alone -/

/-- **A transfer alone**, after so many steps: nothing has been removed before it, and there is
nobody else. -/
def alone (f : Emitter α) (x : α) (disk : Disk) (tree : FileTree) (entry : Entry)
    (chunkSize n : Nat) : Transfer × Desk α × List Deed :=
  (fresh entry chunkSize).run f.surroundings.recorded n
    ({ files := tree, disk, output := x, log := [], source := none }, [])

section Alone

variable {f : Emitter α} {x : α} {disk : Disk} {tree : FileTree} {entry : Entry} {chunkSize : Nat}

theorem alone_succ (n : Nat) : alone f x disk tree entry chunkSize (n + 1) =
    (alone f x disk tree entry chunkSize n).1.step f.surroundings.recorded
      (alone f x disk tree entry chunkSize n).2 :=
  run_succ _ _ _ _

/-- What is done stays done. -/
theorem exists_alone_deeds (k m : Nat) : ∃ more, (alone f x disk tree entry chunkSize (k + m)).2.2 =
    (alone f x disk tree entry chunkSize k).2.2 ++ more := by
  induction m with
  | zero => exact ⟨[], (List.append_nil _).symm⟩
  | succ m ih =>
    obtain ⟨more, hmore⟩ := ih
    obtain ⟨new, hnew⟩ := step_recorded f.surroundings
      (alone f x disk tree entry chunkSize (k + m)).1
      (alone f x disk tree entry chunkSize (k + m)).2.1
      (alone f x disk tree entry chunkSize (k + m)).2.2
    refine ⟨more ++ new, ?_⟩
    rw [← Nat.add_assoc, alone_succ]
    change (Transfer.step _ _ (_, _)).2.2 = _
    rw [hnew, ← List.append_assoc, ← hmore]

/-- A transfer that is over stays as it is. -/
theorem alone_of_isOver {k : Nat} (h : (alone f x disk tree entry chunkSize k).1.isOver = true)
    (m : Nat) :
    alone f x disk tree entry chunkSize (k + m) = alone f x disk tree entry chunkSize k := by
  induction m with
  | zero => rfl
  | succ m ih => rw [← Nat.add_assoc, alone_succ, ih, step_of_isOver h]

/-- So there is only one end. -/
theorem alone_eq_of_isOver {k n : Nat}
    (hk : (alone f x disk tree entry chunkSize k).1.isOver = true)
    (hn : (alone f x disk tree entry chunkSize n).1.isOver = true) :
    alone f x disk tree entry chunkSize k = alone f x disk tree entry chunkSize n := by
  rw [← alone_of_isOver hk n, ← alone_of_isOver hn k, Nat.add_comm]

/-- Whatever is done at any time is the beginning of what is done in the end. -/
theorem exists_alone_rest {n : Nat} (h : (alone f x disk tree entry chunkSize n).1.isOver = true)
    (k : Nat) : ∃ rest, (alone f x disk tree entry chunkSize n).2.2 =
      (alone f x disk tree entry chunkSize k).2.2 ++ rest := by
  rw [← alone_of_isOver h k, Nat.add_comm]
  exact exists_alone_deeds k n

/-- **Alone every transfer comes to an end.** -/
theorem isOver_alone (s : Site ε) (f : Emitter α) (x : α) (entry : Entry) (chunkSize : Nat) :
    (alone f x s.disk s.files entry chunkSize (fuelFor s.volume)).1.isOver = true := by
  have hover := isOver_run_fresh f entry chunkSize
    { files := s.files, disk := s.disk, output := x, log := [], source := none }
  rw [← (run_recorded f.surroundings _ _ _ []).1] at hover
  exact hover

/-- **What a transfer alone removes is its own file**, and nothing else is gone. -/
theorem sourced_alone (n : Nat) :
    let now := alone f x disk tree entry chunkSize n
    Sourced tree now.1 now.2.1.source ∧
      tree.Without (now.1.removedName? tree).toList now.2.1.files := by
  induction n with
  | zero =>
    refine ⟨sourced_fresh tree entry chunkSize, ?_⟩
    rw [removedName?_of_live rfl]
    exact .refl tree
  | succ n ih =>
    obtain ⟨hsourced, hwithout⟩ := ih
    rw [alone_succ]
    generalize alone f x disk tree entry chunkSize n = now at hsourced hwithout ⊢
    obtain ⟨t, d, deeds⟩ := now
    change Sourced tree t d.source at hsourced
    change tree.Without (t.removedName? tree).toList d.files at hwithout
    cases hover : t.isOver with
    | true =>
      rw [step_of_isOver hover]
      exact ⟨hsourced, hwithout⟩
    | false =>
      rw [removedName?_of_live hover] at hwithout
      obtain ⟨new, hstep⟩ := step_recorded f.surroundings t d deeds
      rw [hstep]
      have hopens : d.files.openFile t.entry.fileName = tree.openFile t.entry.fileName :=
        hwithout.openFile_eq fun _ hmem => absurd hmem (by simp)
      exact ⟨hsourced.step hopens f,
        hsourced.without_step hwithout (fun _ hmem => absurd hmem (by simp)) hover f⟩

/-- The disk stays the same. -/
theorem disk_alone (n : Nat) : (alone f x disk tree entry chunkSize n).2.1.disk = disk := by
  induction n with
  | zero => rfl
  | succ n ih =>
    rw [alone_succ]
    generalize alone f x disk tree entry chunkSize n = now at ih ⊢
    obtain ⟨t, d, deeds⟩ := now
    obtain ⟨new, hstep⟩ := step_recorded f.surroundings t d deeds
    rw [hstep]
    exact (f.disk_step t d).trans ih

/-- As long as it is not over, nothing is gone. -/
theorem files_alone_of_live {n : Nat}
    (h : (alone f x disk tree entry chunkSize n).1.isOver = false) :
    (alone f x disk tree entry chunkSize n).2.1.files = tree := by
  have hwithout : tree.Without ((alone f x disk tree entry chunkSize n).1.removedName? tree).toList
      (alone f x disk tree entry chunkSize n).2.1.files := (sourced_alone n).2
  rw [removedName?_of_live h] at hwithout
  exact hwithout.eq

/-- Nobody throws. -/
theorem handed_alone (hwilling : f.Willing) (n : Nat) (p : Packet) :
    .handed p false ∉ (alone f x disk tree entry chunkSize n).2.2 := by
  induction n with
  | zero => exact fun hmem => absurd hmem (by simp [alone, run])
  | succ n ih =>
    rw [alone_succ]
    generalize alone f x disk tree entry chunkSize n = now at ih ⊢
    obtain ⟨t, d, deeds⟩ := now
    obtain ⟨new, told, d', -, hperforms, -, hrecord⟩ := exists_does f.surroundings t d
    rw [hrecord]
    intro hmem
    rcases List.mem_append.mp hmem with hold | hnew
    · exact ih hold
    · cases hperforms with
      | handed q =>
        rw [List.mem_singleton, Deed.handed.injEq] at hnew
        exact absurd (hnew.2.trans (hwilling q d.output)) (by simp)
      | _ => exact absurd hnew (by simp)

end Alone

end Transfer

end LogCourier
