import LogCourier.Proofs.FileTree.Removal
import LogCourier.Proofs.Transfer.Account
import LogCourier.Proofs.Transfer.Disk

/-!
# A transfer at a desk comes to an end

At a desk a transfer reads a file that does not change, so there is only so much to do: **with
every step of a transfer that is not over there is less** (`LogCourier.Transfer.Standing.toil_lt`).
How much it is can be read off the phase.

| phase | what is left to do |
| --- | --- |
| `opening` | three times all the bytes there are, and 3 |
| `reading` | three times the bytes unread, and 2, or 4 if some bytes are gathered |
| `handing` | three times the bytes unread, and 3 |
| `notifying`, `closing` | 1 |

A byte pays for the reading that brings it in, for handing on the chunk that it may fill, and for
the reading of no bytes that may end this chunk. That gives the number of steps that a transfer
needs, `LogCourier.Transfer.fuelFor`.

Others may use the same files meanwhile. What is left to do does not depend on names, and nobody
changes the bytes of a file.
-/

namespace LogCourier

open Transfer

variable {ε : Type}

/-! ### Bytes that are there -/

namespace FileTree

/-- The bytes that are left to read of what is open. -/
def unread (t : FileTree) : Option OpenFile → Nat
  | some { number? := some number, position } => (t.content number).length - position
  | _ => 0

/-- A reading fails, or gives no more bytes than there are, and leaves so many fewer. -/
theorem unread_read (t : FileTree) (limit : Nat) (f : OpenFile) :
    (∃ e, t.read limit f = (.failed e, f)) ∨
    ∃ bs f', t.read limit f = (.data bs, f') ∧ bs.length ≤ t.unread (some f) ∧
      t.unread (some f') = t.unread (some f) - bs.length := by
  obtain ⟨number?, position⟩ := f
  cases number? with
  | none => exact .inl ⟨.isDirectory, rfl⟩
  | some number =>
    refine .inr ⟨_, _, rfl, ?_, ?_⟩
    · rw [List.length_take, List.length_drop]
      exact Nat.min_le_right _ _
    · simp only [unread]
      omega

end FileTree

/-- **So it does on a disk**, which may fail and may give less. -/
theorem Disk.unread_read (disk : Disk) (t : FileTree) (limit : Nat) (f : OpenFile) :
    (∃ e, disk.read t limit f = (.failed e, f)) ∨
    ∃ bs f', disk.read t limit f = (.data bs, f') ∧ bs.length ≤ t.unread (some f) ∧
      t.unread (some f') = t.unread (some f) - bs.length := by
  rcases disk.read_cases t limit f with hbroken | ⟨fewer, -, hread⟩
  · exact .inl hbroken
  · rw [hread]
    exact t.unread_read fewer f

/-- No file has more bytes than there are. -/
theorem Site.length_content_le (s : Site ε) (number : Nat) :
    (s.files.content number).length ≤ s.volume := by
  rw [FileTree.content, List.getD_eq_getElem?_getD]
  cases hfile : s.files.contents[number]? with
  | none => exact Nat.zero_le _
  | some bs =>
    have hsum : s.volume = (s.files.contents.map List.length).sum := by
      rw [List.sum_eq_foldl, List.foldl_map]
      rfl
    obtain ⟨before, after, hcontents⟩ := List.append_of_mem (List.mem_of_getElem? hfile)
    rw [hsum, hcontents, List.map_append, List.map_cons, List.sum_append_nat, List.sum_cons,
      Option.getD_some]
    omega

theorem Desk.unread_le (d : Desk ε) : d.files.unread d.source ≤ d.volume := by
  obtain ⟨site, source⟩ := d
  match source with
  | none => exact Nat.zero_le _
  | some { number? := none, position } => exact Nat.zero_le _
  | some { number? := some number, position } =>
    exact Nat.le_trans (Nat.sub_le _ _) (site.length_content_le number)

/-! ### What a step leaves alone -/

/-- Telling of something changes the log only. -/
theorem Emitter.tellAll_surroundings (e : Emitter ε) (told : List Event) (d : Desk ε) :
    e.surroundings.tellAll told d = { d with log := d.log ++ told } := by
  induction told generalizing d with
  | nil =>
    change d = { d with log := d.log ++ [] }
    rw [List.append_nil]
  | cons event told ih =>
    change e.surroundings.tellAll told { d with log := d.log ++ [event] } = _
    rw [ih, List.append_assoc]
    rfl

/-- The files of a site stay as they are, unless one is to be removed. -/
theorem Emitter.spares_files (e : Emitter ε) :
    e.surroundings.Spares fun d => d.files where
  opens := by
    intro name size d
    simp only [surroundings, openSource]
    split <;> rfl
  reads := by
    intro limit d
    simp only [surroundings, readSource]
    split <;> rfl
  takes := fun _ _ => rfl
  tells := fun _ _ => rfl

/-- **No step changes the bytes of a file.** -/
theorem Emitter.contents_step (e : Emitter ε) (t : Transfer) (d : Desk ε) :
    (t.step e.surroundings d).2.files.contents = d.files.contents := by
  obtain ⟨new, told, d', -, hperforms, hstep, -⟩ := exists_does e.surroundings t d
  rw [hstep, e.tellAll_surroundings]
  change d'.files.contents = _
  cases hperforms with
  | nothing | handed p => rfl
  | opened name size =>
    simp only [surroundings, openSource]
    split <;> rfl
  | read limit =>
    simp only [surroundings, readSource]
    split <;> rfl
  | removed name =>
    simp only [surroundings, Emitter.removeSource]
    cases hremove : d.files.removeFile name with
    | error error => rfl
    | ok files =>
      obtain ⟨loc, rfl⟩ := FileTree.exists_erase_of_removeFile hremove
      rfl

/-- Nor does it change the disk. -/
theorem Emitter.disk_step (e : Emitter ε) (t : Transfer) (d : Desk ε) :
    (t.step e.surroundings d).2.disk = d.disk := by
  obtain ⟨new, told, d', -, hperforms, hstep, -⟩ := exists_does e.surroundings t d
  rw [hstep, e.tellAll_surroundings]
  change d'.disk = _
  cases hperforms with
  | nothing | handed p => rfl
  | opened name size =>
    simp only [surroundings, openSource]
    split <;> rfl
  | read limit =>
    simp only [surroundings, readSource]
    split <;> rfl
  | removed name =>
    simp only [surroundings, Emitter.removeSource]
    split <;> rfl

/-! ### Less and less to do -/

namespace Transfer

variable {t : Transfer} {d : Desk ε} {deeds : List Deed}

/-- **What a transfer has left to do at a desk.** -/
def toil (t : Transfer) (d : Desk ε) : Nat :=
  match t.phase with
  | .opening => fuelFor d.volume
  | .reading => 3 * d.files.unread d.source + if t.reader.got = [] then 2 else 4
  | .handing _ => 3 * d.files.unread d.source + 3
  | .notifying _ | .closing => 1
  | .over _ | .crashed => 0

/-- What is left to do depends on the bytes of the files and on what is open. -/
theorem toil_congr (t : Transfer) {d d' : Desk ε}
    (hcontents : d'.files.contents = d.files.contents) (hsource : d'.source = d.source) :
    t.toil d' = t.toil d := by
  have hvolume : d'.volume = d.volume := by rw [Site.volume, Site.volume, hcontents]
  have hunread : d'.files.unread d'.source = d.files.unread d.source := by
    rw [hsource]
    unfold FileTree.unread FileTree.content
    rw [hcontents]
  simp only [toil, hvolume, hunread]

theorem toil_reading (h : t.phase = .reading) (d : Desk ε) :
    t.toil d = 3 * d.files.unread d.source + if t.reader.got = [] then 2 else 4 := by
  simp only [toil, h]

theorem toil_handing {chunk : Bytes} (h : t.phase = .handing chunk) (d : Desk ε) :
    t.toil d = 3 * d.files.unread d.source + 3 := by
  simp only [toil, h]

/-- No transfer has more to do than in the beginning, but for a chunk that it has begun. -/
theorem toil_le (t : Transfer) (d : Desk ε) : t.toil d ≤ fuelFor d.volume + 1 := by
  have hunread := d.unread_le
  unfold toil fuelFor
  split
  · omega
  · split <;> omega
  all_goals omega

/-- A chunk that is filled is handed on, or the transfer fails. -/
theorem toil_offer_le (t : Transfer) (chunk : Bytes) (d : Desk ε) :
    (t.offer chunk).toil d ≤ 3 * d.files.unread d.source + 3 := by
  by_cases hlast : t.sequence = lastSequence
  · have hphase : (t.offer chunk).phase = .notifying (.sequenceExhausted t.bytes) := if_pos hlast
    simp only [toil, hphase]
    omega
  · have hphase : (t.offer chunk).phase = .handing chunk := if_neg hlast
    exact Nat.le_of_eq (toil_handing hphase d)

/-- The file is open, or not. -/
theorem toil_lt_opening (hgot : t.reader.got = []) (hphase : t.phase = .opening) (e : Emitter ε)
    (d : Desk ε) :
    (t.step e.surroundings d).1.toil (t.step e.surroundings d).2 < t.toil d := by
  have hbefore : t.toil d = 3 * d.volume + 3 := by
    simp only [toil, hphase]
    rfl
  rw [hbefore]
  simp only [step, hphase, Emitter.surroundings, Emitter.openSource]
  cases d.disk.openFile d.files t.entry.fileName with
  | error error =>
    change 1 < _
    omega
  | ok f =>
    by_cases hroom : t.reader.size ≤ maxChunkSize
    · simp only [if_pos hroom]
      rw [toil_reading rfl,
        if_pos (show ((t.enter .streaming).go .reading).reader.got = [] from hgot)]
      have hunread := Desk.unread_le { d with source := some f }
      change d.files.unread (some f) ≤ d.volume at hunread
      change 3 * d.files.unread (some f) + 2 < _
      omega
    · simp only [if_neg hroom]
      exact Nat.succ_pos _

/-- A reading: it brings in some bytes, or ends the chunk that was begun, or the file. -/
theorem toil_lt_reading (hphase : t.phase = .reading) (e : Emitter ε) (d : Desk ε) :
    (t.step e.surroundings d).1.toil (t.step e.surroundings d).2 < t.toil d := by
  have hfailed (error : IoError) (d' : Desk ε) : (t.stumble error).toil d' = 1 := rfl
  rw [toil_reading hphase]
  simp only [step, hphase, Emitter.surroundings, Emitter.readSource]
  cases hsource : d.source with
  | none =>
    simp only [accept_failed, hfailed]
    split <;> omega
  | some f =>
    rcases d.disk.unread_read d.files t.reader.wanted f with ⟨error, hread⟩ |
      ⟨bs, f', hread, hlength, hunread⟩
    · simp only [hread, accept_failed, hfailed]
      split <;> omega
    · simp only [hread]
      rcases accept_cases t (.data bs) with ⟨h, -⟩ | ⟨error, h, -⟩ | ⟨h, hgot, haccept⟩ |
        ⟨bs', h, ⟨hbs, hless, haccept⟩ | ⟨hsome, hcause, haccept⟩⟩
      · exact absurd h (by simp)
      · exact absurd h (by simp)
      -- the end of the file
      · rw [haccept, if_pos hgot]
        change 1 < _
        omega
      -- more bytes for the chunk
      · obtain rfl := Reading.data.inj h
        have hpositive : 0 < bs.length := List.length_pos_iff.mpr hbs
        have hafter : (t.gather (t.reader.got ++ bs)).phase = .reading := hphase
        rw [haccept, toil_reading hafter]
        change 3 * d.files.unread (some f') + _ < _
        split <;> split <;> omega
      -- a chunk: what filled it had to be read, or it had been begun before
      · obtain rfl := Reading.data.inj h
        rw [haccept]
        have hoffer := toil_offer_le t (t.reader.got ++ bs) { d with source := some f' }
        change _ ≤ 3 * d.files.unread (some f') + 3 at hoffer
        by_cases hbs : bs = []
        · rw [hbs, List.append_nil] at hsome
          rw [if_neg hsome]
          omega
        · have hpositive : 0 < bs.length := List.length_pos_iff.mpr hbs
          split <;> omega

/-- **A transfer that is not over has less to do after a step.** -/
theorem Standing.toil_lt (h : Standing t deeds) (hlive : t.isOver = false) (e : Emitter ε)
    (d : Desk ε) :
    (t.step e.surroundings d).1.toil (t.step e.surroundings d).2 < t.toil d := by
  cases hphase : t.phase with
  | opening =>
    simp only [Standing, hphase] at h
    exact toil_lt_opening h.2.1 hphase e d
  | reading => exact toil_lt_reading hphase e d
  | handing chunk =>
    simp only [Standing, hphase] at h
    rw [toil_handing hphase]
    simp only [step, hphase]
    rcases htake : e.surroundings.take (t.packet .info chunk (e.surroundings.ticks d)) d
      with ⟨back, d'⟩
    -- whoever takes the chunk leaves the files and what is open alone
    have hkeeps : d'.files.unread d'.source = d.files.unread d.source := by
      rw [← show _ = d' from congrArg Prod.snd htake]
      rfl
    cases back with
    | true =>
      have hgot : (t.handed chunk).reader.got = [] := h.2.1
      simp only []
      rw [toil_reading rfl, if_pos hgot, hkeeps]
      exact Nat.lt_succ_self _
    | false => exact Nat.succ_pos _
  | notifying failure =>
    have hbefore : t.toil d = 1 := by simp only [toil, hphase]
    rw [hbefore]
    simp only [step, hphase]
    split <;> exact Nat.one_pos
  | closing =>
    have hbefore : t.toil d = 1 := by simp only [toil, hphase]
    rw [hbefore]
    simp only [step, hphase]
    exact Nat.one_pos
  | «over» r => exact absurd hlive (by simp [isOver, hphase])
  | crashed => exact absurd hlive (by simp [isOver, hphase])

/-! ### The end of a run -/

theorem isOver_of_toil_eq_zero (h : t.toil d = 0) : t.isOver = true := by
  cases hphase : t.phase with
  | reading =>
    rw [toil_reading hphase] at h
    split at h <;> omega
  | «over» r | crashed => simp only [isOver, hphase]
  | _ => simp [toil, fuelFor, hphase] at h

/-- **A transfer that may make enough steps is over.** -/
theorem Standing.isOver_run (h : Standing t deeds) (e : Emitter ε) {n : Nat} {d : Desk ε}
    (hn : t.toil d ≤ n) : (t.run e.surroundings n d).1.isOver = true := by
  induction n generalizing t d deeds with
  | zero => exact isOver_of_toil_eq_zero (Nat.le_zero.mp hn)
  | succ n ih =>
    unfold run
    split
    · assumption
    · rename_i hlive
      have hlive : t.isOver = false := Bool.eq_false_iff.mpr hlive
      obtain ⟨new, told, d', hdoes, -⟩ := exists_does e.surroundings t d
      exact ih (h.does hdoes) (Nat.le_of_lt_succ (Nat.lt_of_lt_of_le (h.toil_lt hlive e d) hn))

/-- **A transfer from its beginning needs no more steps than are allowed for.** -/
theorem isOver_run_fresh (e : Emitter ε) (entry : Entry) (chunkSize : Nat) (d : Desk ε) :
    ((fresh entry chunkSize).run e.surroundings (fuelFor d.volume) d).1.isOver = true := by
  have hbegin : Standing (fresh entry chunkSize) [] := ⟨rfl, rfl, rfl⟩
  exact hbegin.isOver_run e (Nat.le_refl _)

end Transfer

end LogCourier
