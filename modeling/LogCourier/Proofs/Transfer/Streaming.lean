import LogCourier.Proofs.Transfer.Supply

/-!
# Streaming a file

A transfer whose source gives all its bytes comes to the end of the file, and what it hands
over depends on the bytes and on the size of a chunk, on nothing else.

The source is any that gives its bytes sooner or later
(`LogCourier.Transfer.Delivers`): in pieces of any size, and interrupted as often as it
likes, though not for ever. Three things have to be seen.

* **The transfer comes to an end.** With every step that is not an interrupted reading there
  is less left to do (`LogCourier.Transfer.effort`), and an interrupted reading leaves the
  source with fewer interruptions before it. So a run is an induction on the first and, within
  that, on the second (`LogCourier.Transfer.exists_run_leaves`).
* **The packets are the pieces of the file**, which is the invariant of
  `LogCourier.Transfer.Streamed`, and there is a number for each of them: if numbers ran out,
  there would be more pieces than the file has.
* **A source that breaks off leaves no short chunk behind.** Such a source never says that there
  is no more, and nothing else ends a chunk before it is full
  (`LogCourier.Transfer.Whole`).

The main statement, `LogCourier.Transfer.streaming_exact`, is about sources that do not break
off. What comes of the others begins where a run leaves the middle of their file
(`LogCourier.Transfer.Leaves.breaks`).
-/

namespace LogCourier

/-- A packet without its time. -/
def Packet.untimed (p : Packet) : Packet :=
  { p with timestamp := 0 }

namespace Transfer

variable {σ : Type}

/-! ### Sources that deliver -/

/-- A reading leaves the surroundings so, having been interrupted. -/
def Surroundings.Interrupts (around : Surroundings σ) (s' s : σ) : Prop :=
  ∃ limit, 0 < limit ∧ around.read limit s = (.interrupted, s')

/-- **Surroundings that deliver**: the source gives the bytes it has left, and then no more or
an error; it is not interrupted for ever; and whoever takes the packets takes them all and
leaves the source alone. -/
structure Delivers (around : Surroundings σ) (left : σ → Bytes) (ending : Option IoError) :
    Prop where
  /-- A reading gives some of what is left. -/
  reads : ∀ limit s, 0 < limit →
    Gives ending limit (left s) (around.read limit s).1 (left (around.read limit s).2)
  /-- No source is interrupted for ever. -/
  patient : WellFounded around.Interrupts
  /-- Every packet is taken. -/
  takes : ∀ p s, (around.take p s).1 = true
  /-- Taking a packet reads nothing. -/
  takesApart : ∀ p s, left (around.take p s).2 = left s

/-! ### Pieces of a file -/

/-- The pieces of that size into which so many bytes are cut, the last one being as long as it
is. -/
def pieceCount (length size : Nat) : Nat :=
  (length + size - 1) / size

/-- The packet of the piece at a place, without its time. -/
def pieceAt (entry : Entry) (size : Nat) (file : Bytes) (k : Nat) : Packet where
  payload := file.extract (k * size) (min ((k + 1) * size) file.length)
  content := .info
  appid := entry.appid
  ctxid := entry.ctxid
  sequence := UInt32.ofNat k
  timestamp := 0

/-- If a file is used up by some pieces, and each of these begins before its end, there are as
many as there should be. -/
theorem eq_pieceCount {length size k : Nat} (hsize : 0 < size) (hle : length ≤ k * size)
    (hlt : ∀ j, k = j + 1 → j * size < length) : k = pieceCount length size := by
  rw [pieceCount, eq_comm, Nat.div_eq_iff hsize]
  cases k with
  | zero => omega
  | succ j =>
    have hj := hlt j rfl
    rw [Nat.succ_mul] at hle ⊢
    omega

/-- A piece that begins before the end of a file is one of those there are. -/
theorem lt_pieceCount {length size k : Nat} (hsize : 0 < size) (hlt : k * size < length) :
    k < pieceCount length size := by
  rw [pieceCount, Nat.lt_div_iff_mul_lt hsize]
  omega

/-- The chunks to be had from a source with so many bytes: all the pieces, or, if it breaks off,
those that are full. -/
def chunkCount (ending : Option IoError) (length size : Nat) : Nat :=
  match ending with
  | none => pieceCount length size
  | some _ => length / size

/-- A chunk that is filled is one of these. -/
theorem lt_chunkCount {ending : Option IoError} {file chunk rest : Bytes} {size k : Nat}
    (hsize : 0 < size) (hcut : file.drop (k * size) = chunk ++ rest) (hsome : chunk ≠ [])
    (hfull : ending = none ∨ size ≤ chunk.length) :
    k < chunkCount ending file.length size := by
  have hlength := congrArg List.length hcut
  have hpositive : 0 < chunk.length := List.length_pos_iff.mpr hsome
  rw [List.length_drop, List.length_append] at hlength
  cases ending with
  | none => exact lt_pieceCount hsize (by omega)
  | some e =>
    have hchunk := hfull.resolve_left (by simp)
    refine Nat.lt_of_succ_le ((Nat.le_div_iff_mul_le hsize).mpr ?_)
    rw [Nat.succ_mul]
    omega

/-- The bytes of a piece, by where it begins and how long it may be. -/
theorem extract_piece (file : Bytes) (k size : Nat) :
    file.extract (k * size) (min ((k + 1) * size) file.length) =
      (file.drop (k * size)).take size := by
  rw [List.extract_eq_take_drop, List.take_eq_take_iff, List.length_drop, Nat.succ_mul]
  omega

/-! ### Less and less to do -/

/-- Whether a transfer is in the middle of its file. -/
def isStreaming (t : Transfer) : Bool :=
  match t.phase with
  | .reading | .handing _ | .closing => true
  | _ => false

/-- What there is still to do, so that it gets less with every step but an interrupted
reading. A byte counts for more than all that its chunk can still need. -/
def effort (t : Transfer) (left : Bytes) : Nat :=
  4 * left.length +
    match t.phase with
    | .handing _ => 2
    | .reading => if t.reader.got = [] then 1 else 3
    | _ => 0

theorem isOver_eq_false_of_isStreaming {t : Transfer} (h : t.isStreaming = true) :
    t.isOver = false := by
  cases hphase : t.phase <;> simp_all [isStreaming, isOver]

theorem effort_reading {t : Transfer} (h : t.phase = .reading) (left : Bytes) :
    effort t left = 4 * left.length + if t.reader.got = [] then 1 else 3 := by
  simp only [effort, h]

theorem effort_handing {t : Transfer} {chunk : Bytes} (h : t.phase = .handing chunk)
    (left : Bytes) : effort t left = 4 * left.length + 2 := by
  simp only [effort, h]

theorem effort_closing {t : Transfer} (h : t.phase = .closing) (left : Bytes) :
    effort t left = 4 * left.length := by
  simp only [effort, h, Nat.add_zero]

section Steps

variable {around : Surroundings σ} {left : σ → Bytes} {file : Bytes} {t : Transfer} {s : σ}
  {deeds : List Deed} {ending : Option IoError}

/-- **A source that breaks off has given full chunks only**, as far as they were handed on, and
has not said that there is no more. -/
def Whole (ending : Option IoError) (file : Bytes) (t : Transfer) : Prop :=
  ending ≠ none →
    match t.phase with
    | .reading => t.packets * t.reader.size ≤ file.length
    | .handing chunk => chunk.length = t.reader.size
    | .closing => False
    | _ => True

/-- A transfer that has just opened its file. -/
def opened (entry : Entry) (chunkSize : Nat) : Transfer :=
  ((fresh entry chunkSize).enter .streaming).go .reading

@[simp] theorem opened_phase (entry : Entry) (chunkSize : Nat) :
    (opened entry chunkSize).phase = .reading := rfl

/-- Then no chunk has been handed on. -/
theorem whole_begin (ending : Option IoError) (file : Bytes) (entry : Entry) (chunkSize : Nat) :
    Whole ending file (opened entry chunkSize) := by
  intro _
  change 0 * _ ≤ file.length
  rw [Nat.zero_mul]
  exact Nat.zero_le _

/-- **How a transfer leaves the middle of its file.** -/
inductive Leaves (ending : Option IoError) (file : Bytes) (t : Transfer) : Prop
  /-- It is over, and completed. -/
  | completes {r : Report} (hending : ending = none) (hphase : t.phase = .over r)
      (hnone : r.failure = none)
  /-- The source broke off when all full chunks had been handed on. -/
  | breaks {e : IoError} (hending : ending = some e)
      (hphase : t.phase = .notifying (.reading t.bytes e))
      (hcount : t.packets = file.length / t.reader.size)
      (hbytes : t.bytes = t.packets * t.reader.size)

/-- **How a step goes on**: out of the middle of the file, with less to do, or interrupted. -/
inductive Advances (around : Surroundings σ) (left : σ → Bytes) (ending : Option IoError)
    (file : Bytes) (t : Transfer) (s : σ) (t' : Transfer) (s' : σ) (deeds : List Deed) : Prop
  /-- The transfer is not in the middle of the file any more. -/
  | leaves (hleaves : Leaves ending file t') (hfaithful : Faithful file t' deeds [])
  /-- There is less to do. -/
  | lessens (hstreaming : t'.isStreaming = true) (hfaithful : Faithful file t' deeds (left s'))
      (hwhole : Whole ending file t') (hless : effort t' (left s') < effort t (left s))
  /-- There is as much to do as before. -/
  | waits (hfaithful : Faithful file t deeds (left s')) (hsame : t' = t)
      (hleft : left s' = left s) (hinterrupts : around.Interrupts s' s)

/-- A chunk that is filled gets a number, as long as there are few. -/
theorem sequence_ne_lastSequence {count : Nat} (haccount : Account t deeds)
    (hlive : t.isOver = false) (hlt : t.packets < count) (hfew : count ≤ 4294967295) :
    t.sequence ≠ lastSequence := by
  intro hlast
  have hpackets := haccount.sequence hlive
  rw [hlast, show lastSequence.toNat = 4294967295 from rfl] at hpackets
  omega

/-- **Where a source breaks off**: all full chunks have been handed on, and the bytes gathered since
belong to none. -/
theorem Leaves.stumble {e : IoError} (hfaithful : Faithful file t deeds [])
    (hwhole : Whole (some e) file t) (hphase : t.phase = .reading) :
    Leaves (some e) file (t.stumble e) := by
  obtain ⟨-, hreceived, hroom⟩ : Smooth deeds ∧
      received deeds = content (taken deeds) ++ t.reader.got ∧
      t.reader.got.length < t.reader.size := by
    simpa only [Standing, hphase] using hfaithful.standing
  have hcut : file.drop (t.packets * t.reader.size) = t.reader.got ++ [] := by
    simpa only [Cut, hphase] using hfaithful.streamed.cut
  have hle : t.packets * t.reader.size ≤ file.length := by
    simpa only [Whole, hphase] using hwhole (by simp)
  have hgot := congrArg List.length hcut
  rw [List.length_drop, List.append_nil] at hgot
  have hall := congrArg List.length hfaithful.streamed.supply
  rw [List.append_nil, hreceived, List.length_append, ← hfaithful.account.bytes] at hall
  refine .breaks rfl rfl ?_ (show t.bytes = t.packets * t.reader.size by omega)
  refine (Nat.div_eq_of_lt_le hle ?_).symm
  rw [Nat.succ_mul]
  omega

/-- A step in the phase `reading`. -/
theorem advances_reading (hdelivers : Delivers around left ending)
    (hfaithful : Faithful file t deeds (left s)) (hwhole : Whole ending file t)
    (hfew : chunkCount ending file.length t.reader.size ≤ 4294967295)
    (hphase : t.phase = .reading) :
    ∃ t' s' new, t.step around.recorded (s, deeds) = (t', s', deeds ++ new) ∧
      Advances around left ending file t s t' s' (deeds ++ new) := by
  have hlive : t.isOver = false := by simp [isOver, hphase]
  obtain ⟨-, -, hroom⟩ : Smooth deeds ∧ received deeds = content (taken deeds) ++ t.reader.got ∧
      t.reader.got.length < t.reader.size := by
    have hstanding := hfaithful.standing
    simpa only [Standing, hphase] using hstanding
  have hcut : file.drop (t.packets * t.reader.size) = t.reader.got ++ left s := by
    have hstreamed := hfaithful.streamed.cut
    simpa only [Cut, hphase] using hstreamed
  have hwanted : 0 < t.reader.wanted := by
    rw [ChunkReader.wanted]
    omega
  rcases hread : around.read t.reader.wanted s with ⟨reading, s'⟩
  have hgives := hdelivers.reads t.reader.wanted s hwanted
  rw [hread] at hgives
  have hnext := hfaithful.does (.reads hphase reading) (.reading hgives)
  refine ⟨t.accept reading, s', [.read t.reader.wanted reading], ?_, ?_⟩
  · simp only [step, hphase, Surroundings.recorded, hread]
  rcases accept_cases t reading with ⟨rfl, haccept⟩ | ⟨e, rfl, haccept⟩ | ⟨rfl, hgot, haccept⟩ |
    ⟨bs, rfl, ⟨hbs, -, haccept⟩ | ⟨hsome, hcause, haccept⟩⟩ <;> rw [haccept] at hnext ⊢
  -- interrupted: only the source has changed
  · exact .waits hnext rfl hgives.received_append ⟨_, hwanted, hread⟩
  -- an error: the source breaks off
  · obtain ⟨hleft, hleft'⟩ := hgives.nil_of_failed
    obtain rfl := hgives.of_failed
    rw [hleft] at hfaithful
    rw [hleft'] at hnext
    exact .leaves (.stumble hfaithful hwhole hphase) hnext
  -- the end of the file
  · obtain ⟨hnone, hleft, hleft'⟩ := hgives.of_end
    refine .lessens rfl hnext (fun hsome => absurd hnone hsome) ?_
    rw [effort_reading hphase, if_pos hgot, effort_closing rfl, hleft, hleft']
    decide
  -- more bytes for the chunk
  · have hlength := congrArg List.length hgives.received_append
    have hpositive : 0 < bs.length := List.length_pos_iff.mpr hbs
    have hstill : (t.gather (t.reader.got ++ bs)).phase = .reading := hphase
    rw [List.length_append] at hlength
    change bs.length + (left s').length = (left s).length at hlength
    refine .lessens (by simp [isStreaming, hstill]) hnext ?_ ?_
    · simp only [Whole, hphase] at hwhole
      simp only [Whole, hstill]
      exact hwhole
    · rw [effort_reading hphase, effort_reading hstill]
      split <;> split <;> omega
  -- a full chunk, or the last one
  · have hlength := congrArg List.length hgives.received_append
    rw [List.length_append] at hlength
    change bs.length + (left s').length = (left s).length at hlength
    have hdrop : file.drop (t.packets * t.reader.size) = t.reader.got ++ bs ++ left s' := by
      rw [hcut, ← hgives.received_append, ← List.append_assoc]
      rfl
    have hlt : t.packets < chunkCount ending file.length t.reader.size :=
      lt_chunkCount t.reader.size_pos hdrop hsome
        (hcause.imp_left fun hnone => (hnone ▸ hgives).of_end.1)
    have hafter : (t.offer (t.reader.got ++ bs)).phase = .handing (t.reader.got ++ bs) :=
      if_neg (sequence_ne_lastSequence hfaithful.account hlive hlt hfew)
    refine .lessens (by simp [isStreaming, hafter]) hnext ?_ ?_
    · have hcut' := hnext.streamed.cut
      simp only [Cut, hafter] at hcut'
      simp only [Whole, hafter]
      intro hbreaks
      have hfull := hcause.resolve_left fun hnone => hbreaks (hnone ▸ hgives).of_end.1
      exact Nat.le_antisymm hcut'.2.2.1 hfull
    · rw [effort_reading hphase, effort_handing hafter]
      by_cases hbs : bs = []
      · rw [hbs, List.append_nil] at hsome
        rw [if_neg hsome]
        omega
      · have hpositive : 0 < bs.length := List.length_pos_iff.mpr hbs
        split <;> omega

/-- A step in the phase `handing`. -/
theorem advances_handing (hdelivers : Delivers around left ending)
    (hfaithful : Faithful file t deeds (left s)) (hwhole : Whole ending file t) {chunk : Bytes}
    (hphase : t.phase = .handing chunk) :
    ∃ t' s' new, t.step around.recorded (s, deeds) = (t', s', deeds ++ new) ∧
      Advances around left ending file t s t' s' (deeds ++ new) := by
  have hgot : t.reader.got = [] := by
    have hstanding := hfaithful.standing
    simp only [Standing, hphase] at hstanding
    exact hstanding.2.1
  rcases htake : around.take (t.packet .info chunk (around.ticks s)) s with ⟨back, s'⟩
  have hback := hdelivers.takes (t.packet .info chunk (around.ticks s)) s
  have hleft := hdelivers.takesApart (t.packet .info chunk (around.ticks s)) s
  rw [htake] at hback hleft
  obtain rfl : back = true := hback
  change left s' = left s at hleft
  have hnext := hfaithful.does (.hands hphase (around.ticks s))
    (@Draws.others none _ _ fun limit reading hmem => absurd hmem (by simp))
  refine ⟨t.handed chunk, s', [.handed (t.packet .info chunk (around.ticks s)) true], ?_, ?_⟩
  · simp only [step, hphase, Surroundings.recorded, htake]
  · rw [← hleft] at hnext
    refine .lessens rfl hnext (fun hbreaks => ?_) ?_
    -- a full chunk reaches to where the next one begins
    · have hlength : chunk.length = t.reader.size := by
        simpa only [Whole, hphase] using hwhole hbreaks
      have hcut := hfaithful.streamed.cut
      simp only [Cut, hphase] at hcut
      have hdrop := congrArg List.length hcut.1
      rw [List.length_drop, List.length_append] at hdrop
      change (t.packets + 1) * t.reader.size ≤ file.length
      rw [Nat.succ_mul]
      have hpositive := t.reader.size_pos
      omega
    · have hreader : (t.handed chunk).reader.got = [] := hgot
      rw [effort_handing hphase, effort_reading rfl, if_pos hreader, hleft]
      omega

/-- A step in the phase `closing`. -/
theorem advances_closing (hfaithful : Faithful file t deeds (left s))
    (hwhole : Whole ending file t) (hphase : t.phase = .closing) :
    ∃ t' s' new, t.step around.recorded (s, deeds) = (t', s', deeds ++ new) ∧
      Advances around left ending file t s t' s' (deeds ++ new) := by
  have hending : ending = none := by
    refine Decidable.byContradiction fun hsome => ?_
    simpa only [Whole, hphase] using hwhole hsome
  have hleft : left s = [] := by
    have hcut := hfaithful.streamed.cut
    simp only [Cut, hphase] at hcut
    exact hcut.2
  rw [hleft] at hfaithful
  cases hwanted : t.entry.deleteFile with
  | true =>
    rcases hremove : around.remove t.entry.fileName s with ⟨answer, s'⟩
    have hnext := hfaithful.does (.removes hphase hwanted answer)
      (@Draws.others none _ _ fun limit reading hmem => absurd hmem (by simp))
    refine ⟨_, around.tell t.completedEvent (around.tell (t.removalEvent answer) s'),
      [.removed t.entry.fileName answer], ?_, .leaves (.completes hending rfl rfl) hnext⟩
    simp only [step, hphase, removeSource, hwanted, if_true, Surroundings.recorded, hremove]
  | false =>
    have hnext := hfaithful.does (.keeps hphase hwanted)
      (@Draws.others none _ _ fun limit reading hmem => absurd hmem (by simp))
    refine ⟨_, around.tell t.completedEvent s, [], ?_, .leaves (.completes hending rfl rfl) hnext⟩
    simp only [step, hphase, removeSource, hwanted, Bool.false_eq_true, if_false,
      Surroundings.recorded, List.append_nil]

/-- **Every step in the middle of a file goes on.** -/
theorem advances (hdelivers : Delivers around left ending)
    (hfaithful : Faithful file t deeds (left s)) (hwhole : Whole ending file t)
    (hfew : chunkCount ending file.length t.reader.size ≤ 4294967295)
    (hstreaming : t.isStreaming = true) :
    ∃ t' s' new, t.step around.recorded (s, deeds) = (t', s', deeds ++ new) ∧
      Advances around left ending file t s t' s' (deeds ++ new) := by
  cases hphase : t.phase with
  | reading => exact advances_reading hdelivers hfaithful hwhole hfew hphase
  | handing chunk => exact advances_handing hdelivers hfaithful hwhole hphase
  | closing => exact advances_closing hfaithful hwhole hphase
  | _ => simp [isStreaming, hphase] at hstreaming

/-- **A run through the file**, by induction on what there is to do and then on how often the
source is still interrupted. -/
theorem exists_run_leaves (hdelivers : Delivers around left ending)
    (hfaithful : Faithful file t deeds (left s)) (hwhole : Whole ending file t)
    (hfew : chunkCount ending file.length t.reader.size ≤ 4294967295)
    (hstreaming : t.isStreaming = true) :
    ∃ n t' s' deeds', t.run around.recorded n (s, deeds) = (t', s', deeds') ∧
      Leaves ending file t' ∧ t'.entry = t.entry ∧ t'.reader.size = t.reader.size ∧
      Faithful file t' deeds' [] := by
  induction heffort : effort t (left s) using Nat.strongRecOn generalizing t s deeds with
  | _ todo ihEffort =>
    induction s using hdelivers.patient.induction generalizing deeds with
    | _ s ihPatience =>
      obtain ⟨t', s', new, hstep, hadvances⟩ :=
        advances hdelivers hfaithful hwhole hfew hstreaming
      have hrun (n : Nat) : t.run around.recorded (n + 1) (s, deeds) =
          t'.run around.recorded n (s', deeds ++ new) := by
        simp only [run, isOver_eq_false_of_isStreaming hstreaming, Bool.false_eq_true, if_false,
          hstep]
      obtain ⟨hentry, hsize⟩ := step_keepsEntry around.recorded t (s, deeds)
      rw [hstep] at hentry hsize
      cases hadvances with
      | leaves hleaves hnext =>
        exact ⟨1, t', s', deeds ++ new, hrun 0, hleaves, hentry, hsize, hnext⟩
      | lessens hgoes hnext hwhole' hless =>
        rw [heffort] at hless
        obtain ⟨n, t'', s'', deeds'', hrest, hleaves, hentry', hsize', hlast⟩ :=
          ihEffort _ hless hnext hwhole' (hsize ▸ hfew) hgoes rfl
        exact ⟨n + 1, t'', s'', deeds'', (hrun n).trans hrest, hleaves, hentry'.trans hentry,
          hsize'.trans hsize, hlast⟩
      | waits hnext hsame hleft hinterrupts =>
        subst hsame
        obtain ⟨n, t'', s'', deeds'', hrest, hend⟩ :=
          ihPatience s' hinterrupts hnext (hleft ▸ heffort)
        exact ⟨n + 1, t'', s'', deeds'', (hrun n).trans hrest, hend⟩

/-- **A run to the end of the file**, if the source does not break off. -/
theorem exists_run_completed (hdelivers : Delivers around left none)
    (hfaithful : Faithful file t deeds (left s))
    (hfew : pieceCount file.length t.reader.size ≤ 4294967295) (hstreaming : t.isStreaming = true) :
    ∃ n t' s' deeds' r, t.run around.recorded n (s, deeds) = (t', s', deeds') ∧
      t'.phase = .over r ∧ r.failure = none ∧ t'.entry = t.entry ∧
      t'.reader.size = t.reader.size ∧ Faithful file t' deeds' [] := by
  obtain ⟨n, t', s', deeds', hrun, hleaves, hentry, hsize, hlast⟩ :=
    exists_run_leaves hdelivers hfaithful (fun hsome => absurd rfl hsome) hfew hstreaming
  cases hleaves with
  | completes _ hphase hnone =>
    exact ⟨n, t', s', deeds', _, hrun, hphase, hnone, hentry, hsize, hlast⟩
  | breaks hending => exact absurd hending (by simp)

end Steps

/-! ### What has been streamed -/

/-- The packets of a completed transfer are as many as the file has pieces. -/
theorem Faithful.packets_eq {file : Bytes} {t : Transfer} {deeds : List Deed} {r : Report}
    (h : Faithful file t deeds []) (hphase : t.phase = .over r) (hnone : r.failure = none) :
    t.packets = pieceCount file.length t.reader.size := by
  have hcut := h.streamed.cut
  simp only [Cut, hphase] at hcut
  refine eq_pieceCount t.reader.size_pos (List.drop_eq_nil_iff.mp (hcut hnone).1) ?_
  intro j hj
  have hlt : j < (taken deeds).length := by
    rw [← h.account.packets, hj]
    exact Nat.lt_succ_self j
  obtain ⟨-, -, hall⟩ := h.standing.completed hphase hnone
  have hmem : (taken deeds)[j] ∈ taken deeds := List.getElem_mem hlt
  exact (h.streamed.pieces j _ (List.getElem?_eq_getElem hlt)
    (hall _ _ (mem_taken.mp hmem)).1).1

/-- As long as no notice was handed on, the packets are pieces of the file, in order. -/
theorem Faithful.untimed_taken {file left : Bytes} {t : Transfer} {deeds : List Deed}
    (h : Faithful file t deeds left) (hpieces : ∀ p ∈ taken deeds, p.content = .info) :
    (taken deeds).map Packet.untimed =
      (List.range t.packets).map (pieceAt t.entry t.reader.size file) := by
  rw [h.account.packets]
  refine List.ext_getElem (by simp) fun k hk hk' => ?_
  have hlt : k < (taken deeds).length := by simpa using hk
  have hinfo := hpieces _ (List.getElem_mem hlt)
  obtain ⟨hseq, happ, hctx⟩ := h.account.numbered k _ (List.getElem?_eq_getElem hlt)
  obtain ⟨-, hpayload⟩ := h.streamed.pieces k _ (List.getElem?_eq_getElem hlt) hinfo
  rw [List.getElem_map, List.getElem_map, List.getElem_range]
  simp only [Packet.untimed, pieceAt, extract_piece, Packet.mk.injEq]
  have hnumber := congrArg UInt32.ofNat hseq
  rw [UInt32.ofNat_toNat] at hnumber
  exact ⟨hpayload, hinfo, happ, hctx, hnumber, trivial⟩

/-- The packets of a completed transfer are all the pieces of the file. -/
theorem Faithful.taken_eq {file : Bytes} {t : Transfer} {deeds : List Deed} {r : Report}
    (h : Faithful file t deeds []) (hphase : t.phase = .over r) (hnone : r.failure = none) :
    (taken deeds).map Packet.untimed =
      (List.range (pieceCount file.length t.reader.size)).map
        (pieceAt t.entry t.reader.size file) := by
  obtain ⟨-, -, hall⟩ := h.standing.completed hphase hnone
  rw [← h.packets_eq hphase hnone]
  exact h.untimed_taken fun p hp => (hall p true (mem_taken.mp hp)).1

/-- **A file is streamed exactly.**

Let a transfer be about to read from a source that delivers its bytes and then no more, in
whatever pieces and with whatever interruptions, and let there be a number for each piece
besides the last number. Then the transfer comes to an end and is completed, every packet it
handed over was taken, and the packets, but for their times, are the pieces of the file in
their order, each with its place for a number. So they depend on the bytes and on the size of
a chunk only. The report counts the pieces and the bytes. -/
theorem streaming_exact {around : Surroundings σ} {left : σ → Bytes}
    (hdelivers : Delivers around left none) (entry : Entry) (chunkSize : Nat) (s : σ)
    (hfew : pieceCount (left s).length (ChunkReader.sizeFor chunkSize) ≤ 4294967295) :
    ∃ n t s' deeds r,
      (opened entry chunkSize).run around.recorded n (s, []) = (t, s', deeds) ∧
      t.report? = some r ∧ r.isCompleted = true ∧ r.failure = none ∧
      r.packets = pieceCount (left s).length (ChunkReader.sizeFor chunkSize) ∧
      r.bytes = (left s).length ∧
      (∀ p, .handed p false ∉ deeds) ∧
      (taken deeds).map Packet.untimed =
        (List.range (pieceCount (left s).length (ChunkReader.sizeFor chunkSize))).map
          (pieceAt entry (ChunkReader.sizeFor chunkSize) (left s)) ∧
      ∀ k < pieceCount (left s).length (ChunkReader.sizeFor chunkSize),
        (pieceAt entry (ChunkReader.sizeFor chunkSize) (left s) k).sequence.toNat = k := by
  have hbegin : Faithful (left s) (opened entry chunkSize) [] (left s) :=
    ⟨⟨rfl, rfl, fun _ _ h => absurd h (by simp), fun _ => rfl, fun _ h => absurd h (by simp)⟩,
      ⟨fun _ h => absurd h (by simp), rfl, (fresh entry chunkSize).reader.size_pos⟩, rfl,
      .begin (Or.inr ⟨rfl, rfl, rfl⟩)⟩
  obtain ⟨n, t, s', deeds, r, hrun, hphase, hnone, hentry, hsize, hfaithful⟩ :=
    exists_run_completed hdelivers hbegin hfew rfl
  have hcount := hfaithful.packets_eq hphase hnone
  have hpackets := hfaithful.taken_eq hphase hnone
  obtain ⟨hreport, hreceived, hall⟩ := hfaithful.standing.completed hphase hnone
  have hbytes : t.bytes = (left s).length := by
    rw [hfaithful.account.bytes, ← hreceived, ← hfaithful.streamed.supply, List.append_nil]
  rw [hentry, hsize] at hpackets
  rw [hsize] at hcount
  refine ⟨n, t, s', deeds, r, hrun, ?_, ?_, hnone, ?_, ?_, ?_, hpackets, ?_⟩
  · simp only [report?, hphase]
  · exact (hfaithful.isCompleted_iff hphase).mpr hnone
  · rw [hreport]
    exact hcount
  · rw [hreport]
    exact hbytes
  · intro p hmem
    exact absurd (hall p false hmem).2 (by simp)
  · intro k hk
    change (UInt32.ofNat k).toNat = k
    rw [UInt32.toNat_ofNat']
    omega

/-! ### A source that trickles -/

/-- A source that gives its bytes one at a time, and is interrupted where none stands. -/
abbrev Trickle := List (Option UInt8)

namespace Trickle

/-- The next byte, or an interruption. -/
def read : Trickle → Reading × Trickle
  | [] => (.data [], [])
  | none :: rest => (.interrupted, rest)
  | some b :: rest => (.data [b], rest)

/-- The bytes that are left. -/
def left (s : Trickle) : Bytes :=
  s.filterMap id

/-- Surroundings with such a source, in which everything else goes well. -/
def surroundings : Surroundings Trickle where
  openSource _ _ s := (.opened, s)
  read _ s := s.read
  ticks _ := 0
  take _ s := (true, s)
  remove _ s := (.ok (), s)
  tell _ s := s

theorem delivers : Delivers surroundings left none where
  reads := by
    intro limit s hlimit
    match s with
    | [] => exact .done rfl
    | none :: rest => exact .interrupted
    | some b :: rest => exact .bytes (List.cons_ne_nil b []) hlimit
  patient := by
    refine Subrelation.wf ?_ (measure List.length).wf
    rintro s' s ⟨limit, -, hread⟩
    match s with
    | [] => exact absurd hread (by simp [surroundings, read])
    | none :: rest =>
      obtain rfl : rest = s' := congrArg Prod.snd hread
      exact Nat.lt_succ_self _
    | some b :: rest => exact absurd hread (by simp [surroundings, read])
  takes := fun _ _ => rfl
  takesApart := fun _ _ => rfl

end Trickle

/-- Three bytes that trickle in make two packets of at most two bytes. -/
theorem streaming_exact_trickle :
    Delivers Trickle.surroundings Trickle.left none ∧
    pieceCount (Trickle.left [none, some 7, some 8, none, none, some 9]).length
      (ChunkReader.sizeFor 2) ≤ 4294967295 ∧
    ∃ n t s' deeds r,
      (opened ⟨Id.ft, Id.ecu1, "/f", false⟩ 2).run Trickle.surroundings.recorded n
        ([none, some 7, some 8, none, none, some 9], []) = (t, s', deeds) ∧
      t.report? = some r ∧ r.isCompleted = true ∧ r.packets = 2 ∧ r.bytes = 3 ∧
      (taken deeds).map Packet.untimed =
        [⟨[7, 8], .info, Id.ft, Id.ecu1, 0, 0⟩, ⟨[9], .info, Id.ft, Id.ecu1, 1, 0⟩] := by
  have hfew : pieceCount (Trickle.left [none, some 7, some 8, none, none, some 9]).length
      (ChunkReader.sizeFor 2) ≤ 4294967295 := by decide
  obtain ⟨n, t, s', deeds, r, hrun, hreport, hcompleted, -, hpackets, hbytes, -, htaken, -⟩ :=
    streaming_exact Trickle.delivers ⟨Id.ft, Id.ecu1, "/f", false⟩ 2
      [none, some 7, some 8, none, none, some 9] hfew
  exact ⟨Trickle.delivers, hfew, n, t, s', deeds, r, hrun, hreport, hcompleted, hpackets, hbytes,
    htaken⟩

end Transfer

end LogCourier
