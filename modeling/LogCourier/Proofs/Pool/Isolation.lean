import LogCourier.Proofs.Host
import LogCourier.Proofs.Transfer.Alone
import LogCourier.Proofs.Transfer.Removal

/-!
# Transfers do not disturb each other

Transfers in a pool share whoever takes their packets, the permits, the slots, and the files. This
file shows that none of that carries anything from one transfer to another: **what a transfer does
in a pool, whatever the others do and in whatever order, it does alone**
(`LogCourier.Pool.isolation`).

Alone means `LogCourier.Transfer.alone`: at a desk with the same files, where nobody else is and
everything is taken. In a pool, whoever takes the packets may throw at any of them, one of this
transfer or of another. So there are two ways for a transfer to go.

* It goes **like** the transfer alone, with the same deeds after so many steps, but for the times
  (`LogCourier.Pool.GoesLike`).
* Somebody has thrown at it. Then it has **fallen out** (`LogCourier.Pool.HasFallen`): up to there
  it went like the transfer alone, which goes on and hands over the packet that was thrown.

That nobody notices the others has one condition: their paths are not paths of the same file
(`LogCourier.FileTree.Apart`). Then a transfer does not look at what another removes.

Who did what is put down beside the site, place by place (`LogCourier.Pool.witnessed`), which
changes nothing (`LogCourier.Pool.play_witnessed`).
-/

namespace LogCourier.Pool

open Transfer

variable {ε α σ : Type}

/-! ### Records that are taken -/

/-- The entry of the record that an action brings, if it is taken. -/
def Action.entry? (p : Pool) : Action → Option Entry
  | .submit record | .handle record => (p.entryFor record).toOption
  | .move _ => none

/-- **The entries of the records that are taken** in some actions, in their order. -/
def accepted (work : Nat → Job → σ → Job × σ) (tell : List Event → σ → σ) :
    List Action → Pool → σ → List Entry
  | [], _, _ => []
  | a :: as, p, s =>
    (a.entry? p).toList ++ match p.act? work tell s a with
      | some (p, s) => accepted work tell as p s
      | none => accepted work tell as p s

/-- The entries of the transfers in a pool. -/
def entries (p : Pool) : List Entry :=
  p.jobs.map fun j => j.transfer.entry

/-- Work that does not change what was asked for. -/
def KeepsEntry (work : Nat → Job → σ → Job × σ) : Prop :=
  ∀ i j s, (work i j s).1.transfer.entry = j.transfer.entry

theorem Moves.entries_eq {work : Nat → Job → σ → Job × σ} {p p' : Pool} {s s' : σ} {m : Move}
    (hkeeps : KeepsEntry work) (hmoves : Moves work p s m p' s') : p'.entries = p.entries := by
  cases hmoves with
  | @work i j hj hstage hlive => exact map_set_of_eq hj (hkeeps i j s)
  | start hj hstage hpermit | settle hj hstage hover | retire hj hstage =>
    exact map_set_of_eq hj rfl

/-- **A record that is taken becomes a transfer**, and nothing else does. -/
theorem entries_act {work : Nat → Job → σ → Job × σ} {tell : List Event → σ → σ} {p p' : Pool}
    {s s' : σ} {a : Action} (hkeeps : KeepsEntry work)
    (hact : p.act? work tell s a = some (p', s')) :
    p'.entries = p.entries ++ (a.entry? p).toList := by
  cases a with
  | submit record | handle record =>
    simp only [act?, handle, submit, Action.entry?] at hact ⊢
    cases hentry : p.entryFor record with
    | error e =>
      rw [hentry] at hact
      obtain ⟨rfl, -⟩ := Prod.mk.inj (Option.some.inj hact)
      exact (List.append_nil _).symm
    | ok entry =>
      rw [hentry] at hact
      obtain ⟨rfl, -⟩ := Prod.mk.inj (Option.some.inj hact)
      simp [Except.toOption, entries, add, Job.fresh, Transfer.fresh]
  | move m =>
    rw [(moveBy?_eq_some_iff.mp hact).entries_eq hkeeps]
    exact (List.append_nil _).symm

/-- So the transfers are, in their order, those of the records that were taken. -/
theorem entries_play {work : Nat → Job → σ → Job × σ} (hkeeps : KeepsEntry work)
    (tell : List Event → σ → σ) (as : List Action) (p : Pool) (s : σ) :
    (play work tell as p s).1.entries = p.entries ++ accepted work tell as p s := by
  induction as generalizing p s with
  | nil => exact (List.append_nil _).symm
  | cons a as ih =>
    rw [play, accepted]
    cases hact : p.act? work tell s a with
    | some next =>
      obtain ⟨p', s'⟩ := next
      change (play work tell as p' s').1.entries = _
      rw [ih, entries_act hkeeps hact, List.append_assoc]
    | none =>
      change (play work tell as p s).1.entries = _
      have hnone : a.entry? p = none := by
        cases a with
        | submit record =>
          simp only [act?] at hact
          split at hact <;> exact absurd hact (by simp)
        | handle record => exact absurd hact (by simp [act?])
        | move m => rfl
      rw [ih, hnone]
      rfl

/-! ### Witnesses -/

/-- **What a job makes of one step, with a record of its deeds** beside the site. Each place has a
record of its own. -/
def witnessed (e : Emitter ε) (i : Nat) (j : Job) (x : Site ε × (Nat → List Deed)) :
    Job × Site ε × (Nat → List Deed) :=
  match j.transfer.step e.surroundings.recorded (j.desk x.1, x.2 i) with
  | (transfer, desk, deeds) =>
    ({ j with transfer, source := desk.source }, desk.toSite,
      fun k => if k = i then deeds else x.2 k)

/-- Telling of something at the site. -/
def tellBeside (told : List Event) (x : Site ε × (Nat → List Deed)) :
    Site ε × (Nat → List Deed) :=
  (x.1.tell told, x.2)

/-- It is the same step, and the deeds of the others stay as they are. -/
theorem witnessed_eq (e : Emitter ε) (i : Nat) (j : Job) (x : Site ε × (Nat → List Deed)) :
    witnessed e i j x = ((j.work e x.1).1, (j.work e x.1).2, fun k =>
      if k = i then (j.transfer.step e.surroundings.recorded (j.desk x.1, x.2 i)).2.2
      else x.2 k) := by
  obtain ⟨new, hstep⟩ := step_recorded e.surroundings j.transfer (j.desk x.1) (x.2 i)
  rw [witnessed, hstep]
  rfl

theorem keepsEntry_witnessed (e : Emitter ε) : KeepsEntry (witnessed e) := by
  intro i j x
  rw [witnessed_eq]
  exact (step_keepsEntry e.surroundings j.transfer (j.desk x.1)).1

/-- **Witnesses change nothing.** -/
theorem act?_witnessed (e : Emitter ε) (p : Pool) (x : Site ε × (Nat → List Deed)) (a : Action) :
    (p.act? (witnessed e) tellBeside x a).map (fun y => (y.1, y.2.1)) =
      p.act? (fun _ => Job.work e) (fun told s => s.tell told) x.1 a := by
  cases a with
  | submit record =>
    simp only [act?]
    rcases p.submit record with ⟨refusal | told, p'⟩ <;> rfl
  | handle record => rfl
  | move m =>
    simp only [act?]
    cases m with
    | work i =>
      simp only [moveBy?, bind, Option.bind]
      cases p.jobs[i]? with
      | none => rfl
      | some j =>
        simp only [witnessed_eq]
        split <;> rfl
    | start i | settle i | retire i =>
      simp only [moveBy?, bind, Option.bind]
      cases p.jobs[i]? with
      | none => rfl
      | some j =>
        simp only []
        split <;> rfl

theorem play_witnessed (e : Emitter ε) (as : List Action) (p : Pool)
    (x : Site ε × (Nat → List Deed)) :
    play (fun _ => Job.work e) (fun told s => s.tell told) as p x.1 =
      ((play (witnessed e) tellBeside as p x).1, (play (witnessed e) tellBeside as p x).2.1) := by
  induction as generalizing p x with
  | nil => rfl
  | cons a as ih =>
    have hact := act?_witnessed e p x a
    rw [play, play, ← hact]
    cases p.act? (witnessed e) tellBeside x a with
    | none => exact ih p x
    | some next => exact ih next.1 next.2

/-! ### The two ways to go -/

section Ways

variable (f : Emitter α) (x : α) (disk : Disk) (tree : FileTree) (chunkSize : Nat)

/-- **A job goes like its transfer alone**: after so many steps it is where that is, and it has done
the same, but for the times. -/
def GoesLike (j : Job) (deeds : List Deed) : Prop :=
  ∃ k, (alone f x disk tree j.transfer.entry chunkSize k).1 = j.transfer ∧
    (alone f x disk tree j.transfer.entry chunkSize k).2.1.source = j.source ∧
    (alone f x disk tree j.transfer.entry chunkSize k).2.2.map Deed.untimed = deeds.map Deed.untimed

/-- **A job has fallen out**: its last packet was thrown, and that was the next one of its transfer
alone. -/
def HasFallen (j : Job) (deeds : List Deed) : Prop :=
  j.transfer.phase = .crashed ∧ ∃ k p p' before, deeds = before ++ [.handed p false] ∧
    (alone f x disk tree j.transfer.entry chunkSize k).2.2.map Deed.untimed =
      before.map Deed.untimed ∧
    (alone f x disk tree j.transfer.entry chunkSize (k + 1)).2.2 =
      (alone f x disk tree j.transfer.entry chunkSize k).2.2 ++ [.handed p' true] ∧
    p'.untimed = p.untimed

end Ways

section Step

variable {f : Emitter α} {x : α} {disk : Disk} {tree : FileTree} {chunkSize : Nat} {j : Job}
  {deeds : List Deed} {gone : List Location}

/-- **A step of a job that goes like its transfer alone**: it does so still, or has fallen out. The
path of the transfer must not lead by what is gone. -/
theorem GoesLike.step (h : GoesLike f x disk tree chunkSize j deeds) (hwilling : f.Willing)
    (hsourced : Sourced tree j.transfer j.source) (hlive : j.transfer.isOver = false)
    {desk : Desk ε} (hdisk : desk.disk = disk) (hdesk : desk.source = j.source)
    (hwithout : tree.Without gone desk.files)
    (hapart : ∀ loc ∈ gone, loc ∉ tree.places j.transfer.entry.fileName) (e : Emitter ε) :
    let after := j.transfer.step e.surroundings.recorded (desk, deeds)
    let j' := { j with transfer := after.1, source := after.2.1.source }
    GoesLike f x disk tree chunkSize j' after.2.2 ∨
      HasFallen f x disk tree chunkSize j' after.2.2 := by
  intro after j'
  have hentry : j'.transfer.entry = j.transfer.entry := (step_keepsEntry _ _ _).1
  obtain ⟨k, htransfer, hsource, hdeeds⟩ := h
  rcases hnow : alone f x disk tree j.transfer.entry chunkSize k with ⟨t, d, deeds'⟩
  have hnext : alone f x disk tree j.transfer.entry chunkSize (k + 1) =
      t.step f.surroundings.recorded (d, deeds') := by rw [alone_succ, hnow]
  have hfiles : t.isOver = false → d.files = tree := by
    intro ht
    have hcut := files_alone_of_live (f := f) (x := x) (n := k) (by rw [hnow]; exact ht)
    rwa [hnow] at hcut
  rw [hnow] at htransfer hsource hdeeds
  obtain rfl : t = j.transfer := htransfer
  have hthere : d.disk = disk := by
    have hkept : (alone f x disk tree j.transfer.entry chunkSize k).2.1.disk = disk := disk_alone k
    rwa [hnow] at hkept
  have htraced : Traced (desk, deeds) (d, deeds') :=
    ⟨hdisk.trans hthere.symm, hdesk.trans hsource.symm, hdeeds.symm⟩
  by_cases hthrown : ∃ content payload, j.transfer.due = some (content, payload) ∧
      (e.take (j.transfer.packet content payload (e.ticks desk.output)) desk.output).1 = false
  -- somebody throws, but not at the transfer alone
  · right
    obtain ⟨content, payload, hdue, hback⟩ := hthrown
    obtain ⟨hhere, hcrashed⟩ := step_recorded_of_due hdue e desk deeds
    obtain ⟨hthere, -⟩ := step_recorded_of_due hdue f d deeds'
    rw [hback] at hhere
    rw [hwilling] at hthere
    refine ⟨congrArg Transfer.phase (hcrashed hback), k, _, _, deeds, hhere, ?_, ?_,
      j.transfer.untimed_packet content payload (f.ticks d.output) _⟩
    · rw [hentry, hnow]
      exact hdeeds
    · rw [hentry, hnext, hnow]
      exact hthere
  -- the packet, if there is one, is taken from both
  · left
    obtain ⟨hsame, hafter⟩ := htraced.step (hdesk ▸ hsourced) hwithout hapart (hfiles hlive)
      (e := e) (f := f) fun content payload hdue => by
        rw [hwilling]
        exact Bool.of_not_eq_false fun hback => hthrown ⟨content, payload, hdue, hback⟩
    refine ⟨k + 1, ?_, ?_, ?_⟩ <;> rw [hentry, hnext]
    · exact hsame.symm
    · exact hafter.source.symm
    · exact hafter.deeds.symm

end Step

/-! ### What is gone -/

/-- The names that are gone because of the transfers of a pool. -/
def removedNames (tree : FileTree) (p : Pool) : List Location :=
  p.jobs.filterMap fun j => j.transfer.removedName? tree

/-- Two entries with paths of different files. -/
def KeepsApart (tree : FileTree) (a b : Entry) : Prop :=
  tree.Apart a.fileName b.fileName ∧ tree.Apart b.fileName a.fileName

/-- Any two of them, in whatever order. -/
theorem apart_of_pairwise {tree : FileTree} {p : Pool} (h : p.entries.Pairwise (KeepsApart tree))
    {i k : Nat} {a b : Job} (hne : i ≠ k) (ha : p.jobs[i]? = some a) (hb : p.jobs[k]? = some b) :
    tree.Apart a.transfer.entry.fileName b.transfer.entry.fileName := by
  rw [entries, List.pairwise_map, List.pairwise_iff_getElem] at h
  obtain ⟨hi, rfl⟩ := List.getElem?_eq_some_iff.mp ha
  obtain ⟨hk, rfl⟩ := List.getElem?_eq_some_iff.mp hb
  rcases Nat.lt_or_gt_of_ne hne with hlt | hgt
  · exact (h i k hi hk hlt).1
  · exact (h k i hk hi hgt).2

/-! ### What holds as long as a pool runs -/

/-- **Nobody is disturbed**: each transfer goes like itself alone or has fallen out, and what is
gone are the names of the files that were removed. -/
structure Undisturbed (f : Emitter α) (x : α) (disk : Disk) (tree : FileTree) (config : Config)
    (p : Pool) (s : Site ε) (deeds : Nat → List Deed) : Prop where
  /-- The pool is set up as it was. -/
  config_eq : p.config = config
  /-- The deeds at a place are those of the transfer there. -/
  course : ∀ (i : Nat) (j : Job), p.jobs[i]? = some j →
    Course (Transfer.fresh j.transfer.entry config.chunkSize) (deeds i) j.transfer
  /-- What it has open, or removes, is the file to which its path led. -/
  sourced : ∀ (i : Nat) (j : Job), p.jobs[i]? = some j → Sourced tree j.transfer j.source
  /-- It goes like itself alone, or has fallen out. -/
  ways : ∀ (i : Nat) (j : Job), p.jobs[i]? = some j →
    GoesLike f x disk tree config.chunkSize j (deeds i) ∨
      HasFallen f x disk tree config.chunkSize j (deeds i)
  /-- Where there is no transfer yet nothing has been done. -/
  vacant : ∀ i, p.jobs.length ≤ i → deeds i = []
  /-- The disk is as it was. -/
  disk_eq : s.disk = disk
  /-- Nothing is gone but what was removed. -/
  files : ∃ gone, gone.Perm (p.removedNames tree) ∧ tree.Without gone s.files

namespace Undisturbed

variable {f : Emitter α} {x : α} {disk : Disk} {tree : FileTree} {config : Config} {p p' : Pool}
  {s : Site ε} {deeds : Nat → List Deed}

theorem fresh (f : Emitter α) (x : α) (config : Config) (s : Site ε) :
    Undisturbed f x s.disk s.files config (Pool.fresh config) s (fun _ => []) where
  config_eq := rfl
  course := fun _ _ hj => absurd hj (by simp [Pool.fresh])
  sourced := fun _ _ hj => absurd hj (by simp [Pool.fresh])
  ways := fun _ _ hj => absurd hj (by simp [Pool.fresh])
  vacant := fun _ _ => rfl
  disk_eq := rfl
  files := ⟨[], .refl _, .refl _⟩

/-- Telling of something disturbs nobody. -/
theorem tell (h : Undisturbed f x disk tree config p s deeds) (told : List Event) :
    Undisturbed f x disk tree config p (s.tell told) deeds :=
  ⟨h.config_eq, h.course, h.sourced, h.ways, h.vacant, h.disk_eq, h.files⟩

/-- A transfer that is added is at its beginning. -/
theorem add (h : Undisturbed f x disk tree config p s deeds) (entry : Entry) :
    Undisturbed f x disk tree config (p.add entry) s deeds := by
  have hnone := h.vacant p.jobs.length (Nat.le_refl _)
  refine ⟨h.config_eq, ?_, ?_, ?_, ?_, h.disk_eq, ?_⟩
  · intro i j hj
    rcases getElem?_concat_cases hj with hold | ⟨rfl, rfl⟩
    · exact h.course i j hold
    · rw [hnone, h.config_eq]
      exact .start
  · intro i j hj
    rcases getElem?_concat_cases hj with hold | ⟨rfl, rfl⟩
    · exact h.sourced i j hold
    · exact sourced_fresh tree entry _
  · intro i j hj
    rcases getElem?_concat_cases hj with hold | ⟨rfl, rfl⟩
    · exact h.ways i j hold
    · rw [hnone, h.config_eq]
      exact .inl ⟨0, rfl, rfl, rfl⟩
  · intro i hi
    rw [show (p.add entry).jobs.length = p.jobs.length + 1 from List.length_append] at hi
    exact h.vacant i (Nat.le_of_succ_le hi)
  · obtain ⟨gone, hperm, hwithout⟩ := h.files
    refine ⟨gone, ?_, hwithout⟩
    have hsame : (p.add entry).removedNames tree = p.removedNames tree := by
      simp [removedNames, Pool.add, Job.fresh, removedName?_of_live (t := .fresh entry _) rfl]
    rw [hsame]
    exact hperm

/-- A job that only comes to another stage disturbs nobody. -/
theorem restage (h : Undisturbed f x disk tree config p s deeds) {i : Nat} {j j' : Job}
    (hj : p.jobs[i]? = some j) (hjobs : p'.jobs = p.jobs.set i j')
    (htransfer : j'.transfer = j.transfer) (hsource : j'.source = j.source)
    (hconfig : p'.config = p.config) : Undisturbed f x disk tree config p' s deeds := by
  have hsame {k : Nat} {b : Job} (hb : p'.jobs[k]? = some b) :
      ∃ b', p.jobs[k]? = some b' ∧ b.transfer = b'.transfer ∧ b.source = b'.source := by
    rw [hjobs] at hb
    rcases getElem?_set_cases hb with ⟨rfl, rfl⟩ | ⟨-, hold⟩
    · exact ⟨j, hj, htransfer, hsource⟩
    · exact ⟨b, hold, rfl, rfl⟩
  have hnames : p'.removedNames tree = p.removedNames tree := by
    have hmap := map_set_of_eq (g := fun j : Job => j.transfer.removedName? tree) hj
      (c := j') (by rw [htransfer])
    have hall := congrArg (List.filterMap id) hmap
    rw [List.filterMap_map, List.filterMap_map] at hall
    rw [removedNames, hjobs]
    exact hall
  refine ⟨hconfig.trans h.config_eq, ?_, ?_, ?_, ?_, h.disk_eq, ?_⟩
  · intro k b hb
    obtain ⟨b', hb', heq, -⟩ := hsame hb
    rw [heq]
    exact h.course k b' hb'
  · intro k b hb
    obtain ⟨b', hb', heq, hopen⟩ := hsame hb
    rw [heq, hopen]
    exact h.sourced k b' hb'
  · intro k b hb
    obtain ⟨b', hb', heq, hopen⟩ := hsame hb
    have hways := h.ways k b' hb'
    simp only [GoesLike, HasFallen, ← heq, ← hopen] at hways
    exact hways
  · intro k hk
    rw [hjobs, List.length_set] at hk
    exact h.vacant k hk
  · rw [hnames]
    exact h.files

/-- **The path of a transfer that has not removed its file does not lead by what is gone.** -/
theorem notMem_places (h : Undisturbed f x disk tree config p s deeds)
    (hapart : p.entries.Pairwise (KeepsApart tree)) {i : Nat} {j : Job} (hj : p.jobs[i]? = some j)
    (hkept : j.transfer.hasRemoved = false) {loc : Location} (hloc : loc ∈ p.removedNames tree) :
    loc ∉ tree.places j.transfer.entry.fileName := by
  obtain ⟨b, hmem, hname⟩ := List.mem_filterMap.mp hloc
  obtain ⟨k, hb⟩ := List.mem_iff_getElem?.mp hmem
  have hremoved : b.transfer.hasRemoved = true := by
    rw [removedName?] at hname
    split at hname
    · assumption
    · exact absurd hname (by simp)
  have hne : i ≠ k := by
    rintro rfl
    obtain rfl : j = b := Option.some.inj (hj.symm.trans hb)
    rw [hkept] at hremoved
    exact absurd hremoved (by simp)
  obtain ⟨number, hstat⟩ := (h.sourced k b hb).found (.inr hremoved)
  refine (apart_of_pairwise hapart hne hj hb).notMem_places hstat ?_
  rw [removedName?, if_pos hremoved] at hname
  cases hresolve : tree.resolve .name b.transfer.entry.fileName with
  | error e =>
    rw [hresolve] at hname
    exact absurd hname (by simp [Except.toOption])
  | ok y =>
    rw [hresolve] at hname
    rw [Option.some.inj hname]

/-- So it opens what it opened in the beginning. -/
theorem openFile_eq (h : Undisturbed f x disk tree config p s deeds)
    (hapart : p.entries.Pairwise (KeepsApart tree)) {i : Nat} {j : Job} (hj : p.jobs[i]? = some j)
    (hkept : j.transfer.hasRemoved = false) :
    s.files.openFile j.transfer.entry.fileName = tree.openFile j.transfer.entry.fileName := by
  obtain ⟨gone, hperm, hwithout⟩ := h.files
  exact hwithout.openFile_eq fun loc hloc =>
    h.notMem_places hapart hj hkept (hperm.mem_iff.mp hloc)

/-- **A step of one transfer disturbs none.** -/
theorem work (h : Undisturbed f x disk tree config p s deeds) (hwilling : f.Willing)
    (hapart : p.entries.Pairwise (KeepsApart tree)) {i : Nat} {j : Job} (hj : p.jobs[i]? = some j)
    (hlive : j.transfer.isOver = false) (e : Emitter ε) :
    Undisturbed f x disk tree config
      (p.setJob i { (witnessed e i j (s, deeds)).1 with stage := .running })
      (witnessed e i j (s, deeds)).2.1 (witnessed e i j (s, deeds)).2.2 := by
  obtain ⟨gone, hperm, hwithout⟩ := h.files
  have hnone : ∀ loc ∈ gone, loc ∉ tree.places j.transfer.entry.fileName :=
    fun loc hloc => h.notMem_places hapart hj (hasRemoved_of_live hlive) (hperm.mem_iff.mp hloc)
  have hsourced := h.sourced i j hj
  have hopens : (j.desk s).files.openFile j.transfer.entry.fileName =
      tree.openFile j.transfer.entry.fileName := h.openFile_eq hapart hj (hasRemoved_of_live hlive)
  obtain ⟨new, told, -, hdoes, -, -, hrecord⟩ := exists_does e.surroundings j.transfer (j.desk s)
  have hentry := hdoes.keepsEntry.1
  -- the job was going like its transfer alone, for one that has fallen out is over
  have hway : GoesLike f x disk tree config.chunkSize j (deeds i) := by
    rcases h.ways i j hj with hlike | ⟨hcrashed, -⟩
    · exact hlike
    · rw [isOver, hcrashed] at hlive
      exact absurd hlive (by simp)
  have hways := hway.step hwilling hsourced hlive h.disk_eq
    (show (j.desk s).source = j.source from rfl) hwithout hnone e
  have hdisk := (e.disk_step j.transfer (j.desk s)).trans h.disk_eq
  have hgone := hsourced.without_step (d := j.desk s) hwithout hnone hlive e
  have hkept := hsourced.step (d := j.desk s) hopens e
  have hafter : witnessed e i j (s, deeds) =
      ({ j with
          transfer := (j.transfer.step e.surroundings (j.desk s)).1
          source := (j.transfer.step e.surroundings (j.desk s)).2.source },
        (j.transfer.step e.surroundings (j.desk s)).2.toSite,
        fun k => if k = i then deeds i ++ new else deeds k) := by
    rw [witnessed, hrecord]
  simp only [hrecord] at hways
  rw [hafter]
  generalize (j.transfer.step e.surroundings (j.desk s)).1 = t' at hdoes hentry hways hgone hkept ⊢
  generalize (j.transfer.step e.surroundings (j.desk s)).2 = d' at hways hdisk hgone hkept ⊢
  refine ⟨h.config_eq, ?_, ?_, ?_, ?_, hdisk, ?_⟩
  · intro k b hb
    rcases getElem?_set_cases hb with ⟨rfl, rfl⟩ | ⟨hne, hold⟩
    · simp only [if_true, hentry]
      exact (h.course k j hj).step hdoes
    · simp only [if_neg hne]
      exact h.course k b hold
  · intro k b hb
    rcases getElem?_set_cases hb with ⟨rfl, rfl⟩ | ⟨hne, hold⟩
    · exact hkept
    · exact h.sourced k b hold
  · intro k b hb
    rcases getElem?_set_cases hb with ⟨rfl, rfl⟩ | ⟨hne, hold⟩
    · simp only [if_true]
      exact hways
    · simp only [if_neg hne]
      exact h.ways k b hold
  · intro k hk
    have hi : i < p.jobs.length := (List.getElem?_eq_some_iff.mp hj).1
    have hge : p.jobs.length ≤ k := by simpa [Pool.setJob] using hk
    simp only [if_neg (show k ≠ i by omega)]
    exact h.vacant k hge
  · refine ⟨gone ++ (t'.removedName? tree).toList, ?_, hgone⟩
    have hnew := filterMap_set_perm (g := fun j : Job => j.transfer.removedName? tree) hj
      (removedName?_of_live hlive tree) ⟨t', d'.source, .running⟩
    exact (hperm.append_right _).trans hnew.symm

end Undisturbed

/-- **In every reachable state nobody is disturbed**, if the paths are apart. -/
theorem Reachable.undisturbed {e : Emitter ε} {f : Emitter α} (hwilling : f.Willing) (x : α)
    {config : Config} {s₀ : Site ε} {p : Pool} {y : Site ε × (Nat → List Deed)}
    (h : Reachable (witnessed e) tellBeside config (s₀, fun _ => []) p y)
    (hapart : p.entries.Pairwise (KeepsApart s₀.files)) :
    Undisturbed f x s₀.disk s₀.files config p y.1 y.2 := by
  induction h with
  | fresh => exact .fresh f x config s₀
  | act _ hact ih =>
    have hbefore := ih (by
      rw [entries_act (keepsEntry_witnessed e) hact, List.pairwise_append] at hapart
      exact hapart.1)
    rcases act?_cases hact with ⟨record, entry, -, -, rfl, rfl⟩ | ⟨rfl, rfl | ⟨told, rfl⟩⟩ |
      ⟨m, hmoves⟩
    · exact (hbefore.add entry).tell _
    · exact hbefore
    · exact hbefore.tell told
    · cases hmoves with
      | start hj hstage hpermit => exact hbefore.restage hj rfl rfl rfl rfl
      | work hj hstage hlive =>
        rw [Moves.entries_eq (keepsEntry_witnessed e) (.work hj hstage hlive)] at hapart
        exact hbefore.work hwilling hapart hj hlive e
      | settle hj hstage hover => exact hbefore.restage hj rfl rfl rfl rfl
      | retire hj hstage => exact hbefore.restage hj rfl rfl rfl rfl

/-! ### How transfers end -/

section Ends

variable {f : Emitter α} {x : α} {disk : Disk} {tree : FileTree} {chunkSize n : Nat} {j : Job}
  {deeds : List Deed}

/-- Packets that are the same but for their times, from deeds that are. -/
theorem taken_untimed_eq {deeds deeds' : List Deed}
    (h : deeds.map Deed.untimed = deeds'.map Deed.untimed) :
    (taken deeds).map Packet.untimed = (taken deeds').map Packet.untimed := by
  rw [← taken_untimed, ← taken_untimed, h]

/-- **A job that goes like its transfer alone** has nothing thrown at it; and when it is over it is
what its transfer alone is in the end. -/
theorem GoesLike.ended (h : GoesLike f x disk tree chunkSize j deeds) (hwilling : f.Willing)
    (hlast : (alone f x disk tree j.transfer.entry chunkSize n).1.isOver = true) :
    (∀ p, .handed p false ∉ deeds) ∧
    (∃ rest, (alone f x disk tree j.transfer.entry chunkSize n).2.2.map Deed.untimed =
      deeds.map Deed.untimed ++ rest) ∧
    (j.transfer.isOver = true → j.transfer = (alone f x disk tree j.transfer.entry chunkSize n).1 ∧
      deeds.map Deed.untimed =
        (alone f x disk tree j.transfer.entry chunkSize n).2.2.map Deed.untimed) := by
  obtain ⟨k, htransfer, -, hdeeds⟩ := h
  refine ⟨?_, ?_, fun hover => ?_⟩
  · intro p hp
    have hmem : Deed.untimed (.handed p false) ∈
        (alone f x disk tree j.transfer.entry chunkSize k).2.2.map Deed.untimed :=
      hdeeds ▸ List.mem_map_of_mem hp
    obtain ⟨d, hd, heq⟩ := List.mem_map.mp hmem
    cases d with
    | handed q back =>
      rw [Deed.untimed, Deed.untimed, Deed.handed.injEq] at heq
      rw [heq.2] at hd
      exact handed_alone hwilling k q hd
    | _ => exact absurd heq (by simp [Deed.untimed])
  · obtain ⟨rest, hrest⟩ := exists_alone_rest hlast k
    exact ⟨rest.map Deed.untimed, by rw [hrest, List.map_append, hdeeds]⟩
  · rw [← htransfer] at hover
    -- there is only one end, and the job is there
    have hend : alone f x disk tree j.transfer.entry chunkSize k =
        alone f x disk tree j.transfer.entry chunkSize n := alone_eq_of_isOver hover hlast
    exact ⟨by rw [← hend, htransfer], by rw [← hend, hdeeds]⟩

/-- **A job that has fallen out** has handed over some of the packets of its transfer alone, but not
all, and has removed nothing. -/
theorem HasFallen.ended (h : HasFallen f x disk tree chunkSize j deeds)
    (hcourse : Course (Transfer.fresh j.transfer.entry chunkSize) deeds j.transfer)
    (hlast : (alone f x disk tree j.transfer.entry chunkSize n).1.isOver = true) :
    (∃ p, .handed p false ∈ deeds) ∧ j.transfer.isOver = true ∧
    j.transfer.answer = .error .crashed ∧
    (∃ rest, rest ≠ [] ∧
      (taken (alone f x disk tree j.transfer.entry chunkSize n).2.2).map Packet.untimed =
        (taken deeds).map Packet.untimed ++ rest) ∧
    (∀ d ∈ deeds, d.isRemoval = false) ∧ j.transfer.hasRemoved = false := by
  obtain ⟨hcrashed, k, p, p', before, rfl, hbefore, hnext, -⟩ := h
  obtain ⟨-, hstanding⟩ := hcourse.sound_fresh
  have hlost : j.transfer.isLost = true := by simp only [isLost, hcrashed]
  refine ⟨⟨p, by simp⟩, by simp only [isOver, hcrashed], ?_, ?_,
    hstanding.kept_of_trouble (.inl hlost), ?_⟩
  · simp only [answer, report?, hcrashed]
  · obtain ⟨rest, hrest⟩ := exists_alone_rest hlast (k + 1)
    refine ⟨p'.untimed :: (taken rest).map Packet.untimed, by simp, ?_⟩
    rw [hrest, hnext, taken_append, taken_append, taken_append, List.map_append, List.map_append,
      List.map_append, taken_untimed_eq hbefore, List.append_assoc]
    simp [taken, Deed.packet?]
  · simp [hasRemoved, hcrashed]

end Ends

/-- **A transfer that is over gives back its permit and its slot**, and then the next record that
can be read is taken. -/
theorem Balanced.exists_release {config : Config} {p : Pool} (h : Balanced config p) {i : Nat}
    {j : Job} (hj : p.jobs[i]? = some j) (hstage : j.stage = .running)
    (hover : j.transfer.isOver = true) (e : Emitter ε) (s : Site ε) :
    ∃ p₁ p₂, p.move? e s (.settle i) = some (p₁, s) ∧ p₁.permits = p.permits + 1 ∧
      p₁.move? e s (.retire i) = some (p₂, s) ∧ p₂.inFlight + 1 = p.inFlight ∧
      ∀ record entry, Entry.decode record = .ok entry →
        p₂.submit record = (.ok [acceptedEvent entry], p₂.add entry) := by
  have hi : i < p.jobs.length := (List.getElem?_eq_some_iff.mp hj).1
  have hsome : 0 < p.inFlight := by
    rw [h.slots, count, List.countP_pos_iff]
    exact ⟨j, List.mem_of_getElem? hj, by rw [hstage]; rfl⟩
  have hbounded := h.bounded
  have hsettled : ({ p with permits := p.permits + 1 }.setJob i
      { j with stage := .settled }).jobs[i]? = some { j with stage := .settled } :=
    List.getElem?_set_self hi
  refine ⟨_, _, moveBy?_eq_some_iff.mpr (.settle hj hstage hover), rfl,
    moveBy?_eq_some_iff.mpr (.retire hsettled rfl), ?_, fun record entry hdecode => ?_⟩
  · change p.inFlight - 1 + 1 = p.inFlight
    omega
  · refine submit_of_room hdecode ?_
    change p.inFlight - 1 < p.config.slots
    rw [h.config_eq]
    omega

/-! ### Isolation -/

/-- **Transfers do not disturb each other.**

Let records be brought and transfers move in whatever order, and let whoever takes the packets throw
at any of them. As long as no two of the records that are taken have paths of the same file,

* each record that is taken becomes one transfer, the transfers are in the order of the records, and
  all that is done is done by one of them in its course;
* a transfer at which nobody has thrown has done what it does alone, up to here, and when it is over
  it is what it is alone in the end, with the same packets, but for their times, the same report and
  the same removal;
* a transfer at which somebody has thrown is over, and that is all one hears of it. Something is
  missing behind the packets that were taken from it, it has removed nothing, and its path opens
  what it opened before;
* gone from the files are the names that the transfers have removed, and nothing else has changed;
* a transfer that is over can give back its permit and its slot, and then the next record is taken;
* with every move there is less to do, and when none is left all transfers are over and all permits
  and slots are given back. -/
theorem isolation (e : Emitter ε) {f : Emitter α} (hwilling : f.Willing) (config : Config)
    (s : Site ε) (x : α) (actions : List Action)
    (hapart : (accepted (fun _ => Job.work e) (fun told s => s.tell told) actions (.fresh config)
      s).Pairwise (KeepsApart s.files)) :
    let run := play (witnessed e) tellBeside actions (.fresh config) (s, fun _ => [])
    let p := run.1
    let now := run.2.1
    let deeds := run.2.2
    let last := fun entry => alone f x s.disk s.files entry config.chunkSize (fuelFor s.volume)
    play (fun _ => Job.work e) (fun told s => s.tell told) actions (.fresh config) s = (p, now) ∧
    (p.entries =
        accepted (fun _ => Job.work e) (fun told s => s.tell told) actions (.fresh config) s ∧
      (∀ i j, p.jobs[i]? = some j →
        Course (.fresh j.transfer.entry config.chunkSize) (deeds i) j.transfer) ∧
      ∀ i, p.jobs.length ≤ i → deeds i = []) ∧
    (∀ entry, (last entry).1.isOver = true) ∧
    (∀ i j, p.jobs[i]? = some j → (∀ q, .handed q false ∉ deeds i) →
      (∃ rest, (last j.transfer.entry).2.2.map Deed.untimed =
        (deeds i).map Deed.untimed ++ rest) ∧
      (j.transfer.isOver = true →
        j.transfer = (last j.transfer.entry).1 ∧
        (taken (deeds i)).map Packet.untimed =
          (taken (last j.transfer.entry).2.2).map Packet.untimed ∧
        (deeds i).map Deed.untimed = (last j.transfer.entry).2.2.map Deed.untimed)) ∧
    (∀ i j, p.jobs[i]? = some j → (∃ q, .handed q false ∈ deeds i) →
      j.transfer.isOver = true ∧ j.transfer.answer = .error .crashed ∧
      (∃ rest, rest ≠ [] ∧ (taken (last j.transfer.entry).2.2).map Packet.untimed =
        (taken (deeds i)).map Packet.untimed ++ rest) ∧
      (∀ d ∈ deeds i, d.isRemoval = false) ∧ j.transfer.removedName? s.files = none ∧
      now.files.openFile j.transfer.entry.fileName =
        s.files.openFile j.transfer.entry.fileName) ∧
    ((∃ gone, gone.Perm (p.jobs.filterMap fun j => j.transfer.removedName? s.files) ∧
        s.files.Without gone now.files) ∧
      ∀ entry, s.files.Without ((last entry).1.removedName? s.files).toList
        (last entry).2.1.files) ∧
    (∀ i j, p.jobs[i]? = some j → j.stage = .running → j.transfer.isOver = true →
      ∃ p₁ p₂, p.move? e now (.settle i) = some (p₁, now) ∧ p₁.permits = p.permits + 1 ∧
        p₁.move? e now (.retire i) = some (p₂, now) ∧ p₂.inFlight + 1 = p.inFlight ∧
        ∀ record entry, Entry.decode record = .ok entry →
          p₂.submit record = (.ok [acceptedEvent entry], p₂.add entry)) ∧
    (∀ m p' s', p.move? e now m = some (p', s') → p'.toil s' < p.toil now) ∧
    ((∀ m, p.move? e now m = none) →
      (∀ j ∈ p.jobs, j.stage = .retired ∧ j.transfer.isOver = true) ∧ p.inFlight = 0 ∧
        p.permits = config.permits) := by
  intro run p now deeds last
  have hplain : play (fun _ => Job.work e) (fun told s => s.tell told) actions (.fresh config) s =
      (p, now) := play_witnessed e actions (.fresh config) (s, fun _ => [])
  have hentries : p.entries =
      accepted (fun _ => Job.work e) (fun told s => s.tell told) actions (.fresh config) s := by
    have hkeeps : KeepsEntry fun _ => Job.work e :=
      fun _ j s => (step_keepsEntry e.surroundings j.transfer (j.desk s)).1
    have hplayed := entries_play hkeeps (fun told s => s.tell told) actions (.fresh config) s
    rwa [hplain] at hplayed
  have hreachable : Reachable (witnessed e) tellBeside config (s, fun _ => []) p run.2 :=
    Reachable.fresh.play actions
  have hundisturbed := hreachable.undisturbed hwilling x (hentries ▸ hapart)
  have hlast (entry : Entry) : (last entry).1.isOver = true :=
    isOver_alone s f x entry config.chunkSize
  have hreached : Reachable (fun _ => Job.work e) (fun told s => s.tell told) config s p now := by
    have hbegin : Reachable (fun _ => Job.work e) (fun told s => s.tell told) config s
      (.fresh config) s := .fresh
    have hplayed := hbegin.play actions
    rwa [hplain] at hplayed
  have hbalanced := hreached.balanced
  refine ⟨hplain, ⟨hentries, hundisturbed.course, hundisturbed.vacant⟩, hlast, ?_, ?_,
    ⟨hundisturbed.files, fun entry => (sourced_alone _).2⟩, ?_, ?_, ?_⟩
  · intro i j hj hquiet
    rcases hundisturbed.ways i j hj with hlike | hfallen
    · obtain ⟨-, hbegun, hended⟩ := hlike.ended hwilling (hlast j.transfer.entry)
      refine ⟨hbegun, fun hover => ?_⟩
      obtain ⟨hsame, hdeeds⟩ := hended hover
      exact ⟨hsame, taken_untimed_eq hdeeds, hdeeds⟩
    · obtain ⟨⟨q, hq⟩, -⟩ := hfallen.ended (hundisturbed.course i j hj) (hlast j.transfer.entry)
      exact absurd hq (hquiet q)
  · intro i j hj ⟨q, hq⟩
    rcases hundisturbed.ways i j hj with hlike | hfallen
    · exact absurd hq ((hlike.ended hwilling (hlast j.transfer.entry)).1 q)
    · obtain ⟨-, hover, hanswer, hmissing, hnone, hkept⟩ :=
        hfallen.ended (hundisturbed.course i j hj) (hlast j.transfer.entry)
      refine ⟨hover, hanswer, hmissing, hnone, ?_,
        hundisturbed.openFile_eq (hentries ▸ hapart) hj hkept⟩
      simp only [removedName?, hkept, Bool.false_eq_true, if_false]
  · intro i j hj hstage hover
    exact hbalanced.exists_release hj hstage hover e now
  · intro m p' s' hmove
    exact (moveBy?_eq_some_iff.mp hmove).toil_lt hreached.isSound
  · intro hstuck
    have hretired := hbalanced.retired_of_stuck hstuck
    exact ⟨fun j hj => ⟨hretired j hj, hreached.isSettledWhenOver j hj (.inr (hretired j hj))⟩,
      hbalanced.all_given_back hretired⟩

/-- Two transfers take turns, with one byte in each packet. Somebody throws at the third packet,
which is the second one of `/f`. That file stays; and `/g` is carried and removed as it is alone. -/
theorem isolation_thrown :
    let files := (FileTree.empty.insertFile ["f"] [7, 8]).insertFile ["g"] [9]
    let config : Config := { enabled := true, chunkSize := 1, maxConcurrent := 2, maxPending := 0 }
    let e : Emitter Nat := ⟨fun _ => 0, fun _ n => (n != 2, [], n + 1)⟩
    let f : Emitter Unit := ⟨fun _ => 0, fun _ _ => (true, [], ())⟩
    let record (name : UInt8) : Bytes :=
      [1, 0x46, 0x54, 0, 0, 0x46, 0x54, 0, 0, 1, 0, 2, 0x2F, name]
    let turn : List Action := [.move (.work 0), .move (.work 1)]
    let actions : List Action := [.submit (record 0x66), .handle (record 0x67), .move (.start 0),
      .move (.start 1)] ++ turn ++ turn ++ turn ++ turn ++ turn
    let run := play (witnessed e) tellBeside actions (.fresh config)
      (⟨files, 0, [], .sound⟩, fun _ => [])
    ∃ a b, run.1.jobs = [a, b] ∧
      a.transfer.answer = .error .crashed ∧ (run.2.1.files.node? ["f"]).isSome = true ∧
      b.transfer = (alone f () .sound files b.transfer.entry 1 (fuelFor 3)).1 ∧
      (run.2.1.files.node? ["g"]).isNone = true := by
  intro files config e f record turn actions run
  have hf : files.stat "/f" = .ok (.file 0) := by cbv
  have hg : files.stat "/g" = .ok (.file 1) := by cbv
  have haccepted : accepted (fun _ => Job.work e) (fun told s => s.tell told) actions
      (.fresh config) ⟨files, 0, [], .sound⟩ =
        [⟨Id.ft, Id.ft, "/f", true⟩, ⟨Id.ft, Id.ft, "/g", true⟩] := by cbv
  have hapart : (accepted (fun _ => Job.work e) (fun told s => s.tell told) actions
      (.fresh config) ⟨files, 0, [], .sound⟩).Pairwise (KeepsApart files) := by
    rw [haccepted, List.pairwise_pair]
    exact ⟨FileTree.apart_of_ne hf hg (by decide), FileTree.apart_of_ne hg hf (by decide)⟩
  have hover : run.1.jobs.map (fun j => j.transfer.isOver) = [true, true] := by
    unfold run
    cbv
  have hthrown : (run.2.2 0)[4]? = some (.handed ⟨[8], .info, Id.ft, Id.ft, 1, 0⟩ false) := by
    unfold run
    cbv
  have hdeeds : run.2.2 1 = [.opened "/g" 1 .opened, .read 1 (.data [9]),
      .handed ⟨[9], .info, Id.ft, Id.ft, 0, 0⟩ true, .read 1 (.data []),
      .removed "/g" (.ok ())] := by
    unfold run
    cbv
  have hkept : (run.2.1.files.node? ["f"]).isSome = true := by
    unfold run
    cbv
  have hgone : (run.2.1.files.node? ["g"]).isNone = true := by
    unfold run
    cbv
  have hlength : run.1.jobs.length = 2 := by
    rw [← List.length_map (fun j => j.transfer.isOver), hover]
    rfl
  obtain ⟨a, b, hjobs⟩ := List.length_eq_two.mp hlength
  rw [hjobs] at hover
  obtain ⟨-, -, -, halone, hcrashed, -⟩ :=
    isolation e (f := f) (fun _ _ => rfl) config ⟨files, 0, [], .sound⟩ () actions hapart
  refine ⟨a, b, hjobs, ?_, hkept, ?_, hgone⟩
  · exact (hcrashed 0 a (congrArg (·[0]?) hjobs) ⟨_, List.mem_of_getElem? hthrown⟩).2.1
  · refine ((halone 1 b (congrArg (·[1]?) hjobs) ?_).2 ?_).1
    · intro q hq
      rw [hdeeds] at hq
      exact absurd hq (by simp)
    · exact (List.cons.inj (List.cons.inj hover).2).1

end LogCourier.Pool
