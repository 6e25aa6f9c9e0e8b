import LogCourier.Proofs.ChunkReader
import LogCourier.Proofs.Transfer.Coherence
import LogCourier.Proofs.Transfer.Fitting
import LogCourier.Proofs.Transfer.Streaming
import Mathlib

/-!
# Files that grow

A reading of no bytes means that there is no more, as long as nobody writes behind the end of the
file. If somebody does, there may be bytes behind such a reading. This file says what the packets
of a completed transfer are then.

A reading of no bytes is asked for at two places. At the beginning of a chunk it ends the transfer.
Within a chunk **it ends the chunk only**, and reading goes on: what has come in the meantime
begins a chunk of its own. So the file is carried in **stretches**, which are the bytes between two
readings of none (`LogCourier.stretches`), and each stretch is cut into pieces for itself
(`LogCourier.cutUp`). All packets but the last one are full if there is but one stretch with
anything in it, that is, if no bytes come behind a reading of none (`LogCourier.Resumes`); and
**only then**, for a stretch that is not the last one has been ended within a chunk.

What is known of a transfer in between, phase by phase (`LogCourier.Transfer.Gathered`):

| phase | its readings yield |
| --- | --- |
| `reading` | the pieces handed on |
| `handing` | those, and the one under way |
| `closing`, `over` | the pieces handed on; and there is one reading more, of no bytes |

The main statement is `LogCourier.Transfer.growing_exact`.
-/

namespace LogCourier

/-! ### Stretches -/

/-- **The stretches of a source**: the bytes between its readings of none. -/
def stretches (readings : List Reading) : List Bytes :=
  (readings.splitOn (.data [])).map fun part => part.flatMap Reading.bytes

/-- There are bytes behind a reading of none. -/
def Resumes (readings : List Reading) : Prop :=
  ∃ before after, readings = before ++ .data [] :: after ∧ after.flatMap Reading.bytes ≠ []

@[simp] theorem stretches_nil : stretches [] = [[]] := by
  rw [stretches, List.splitOn_nil]
  rfl

theorem stretches_append (before after : List Reading) :
    stretches (before ++ .data [] :: after) = stretches before ++ stretches after := by
  rw [stretches, List.splitOn_append_cons_self, List.map_append]
  rfl

/-- A reading of no bytes begins another stretch. -/
theorem stretches_cons_end (readings : List Reading) :
    stretches (.data [] :: readings) = [] :: stretches readings :=
  stretches_append [] readings

/-- Any other reading goes on with the first one. -/
theorem stretches_cons {reading : Reading} (h : reading ≠ .data []) (readings : List Reading) :
    stretches (reading :: readings) =
      (stretches readings).modifyHead (reading.bytes ++ ·) := by
  have hsplit : (reading :: readings).splitOn (.data []) =
      (readings.splitOn (.data [])).modifyHead (reading :: ·) := by
    rw [List.splitOn, List.splitOnP_cons_eq_if_modifyHead, if_neg (by simpa using h)]
    rfl
  rw [stretches, stretches, hsplit]
  cases readings.splitOn (.data []) <;> rfl

theorem stretches_ne_nil (readings : List Reading) : stretches readings ≠ [] := by
  rw [stretches, ne_eq, List.map_eq_nil_iff]
  exact List.splitOn_ne_nil _ _

/-- Their bytes are all there are. -/
theorem flatten_stretches (readings : List Reading) :
    (stretches readings).flatten = readings.flatMap Reading.bytes := by
  induction readings with
  | nil => rfl
  | cons reading rest ih =>
    obtain ⟨first, others, hrest⟩ := List.exists_cons_of_ne_nil (stretches_ne_nil rest)
    rw [hrest] at ih
    by_cases hend : reading = .data []
    · rw [hend, stretches_cons_end, hrest, List.flatMap_cons, ← ih]
      rfl
    · rw [stretches_cons hend, hrest, List.flatMap_cons, ← ih, List.modifyHead_cons,
        List.flatten_cons, List.flatten_cons, List.append_assoc]

/-! ### Pieces -/

open Transfer (pieceCount)

/-- **Some bytes cut into pieces** of that size, the last one being as long as it is. -/
def cutUp (size : Nat) (bs : Bytes) : List Bytes :=
  (List.range (pieceCount bs.length size)).map fun k => (bs.drop (k * size)).take size

/-- All pieces but the last one are of that size. -/
def FullButLast (size : Nat) (pieces : List Bytes) : Prop :=
  ∀ piece ∈ pieces.dropLast, piece.length = size

section Pieces

variable {size : Nat} {bs : Bytes}

@[simp] theorem length_cutUp : (cutUp size bs).length = pieceCount bs.length size := by
  rw [cutUp, List.length_map, List.length_range]

theorem cutUp_nil (hsize : 0 < size) : cutUp size [] = [] := by
  have hnone : pieceCount 0 size = 0 := Nat.div_eq_of_lt (by omega)
  rw [cutUp, List.length_nil, hnone]
  rfl

/-- What is not longer than a piece is one. -/
theorem cutUp_short (hsome : bs ≠ []) (hle : bs.length ≤ size) : cutUp size bs = [bs] := by
  have hpositive := List.length_pos_iff.mpr hsome
  have hone : pieceCount bs.length size = 1 := by
    rw [pieceCount, Nat.div_eq_iff (by omega)]
    omega
  rw [cutUp, hone, List.range_one, List.map_singleton, Nat.zero_mul, List.drop_zero,
    List.take_of_length_le hle]

/-- A piece is cut off in front. -/
theorem cutUp_append {piece : Bytes} (hsize : 0 < size) (hpiece : piece.length = size)
    (bs : Bytes) : cutUp size (piece ++ bs) = piece :: cutUp size bs := by
  have hcount : pieceCount (piece ++ bs).length size = pieceCount bs.length size + 1 := by
    rw [List.length_append, hpiece, pieceCount, pieceCount,
      ← Nat.add_div_right _ hsize]
    congr 1
    omega
  rw [cutUp, hcount, List.range_succ_eq_map, List.map_cons, List.map_map, Nat.zero_mul,
    List.drop_zero, List.take_left' hpiece, cutUp]
  refine congrArg (piece :: ·) (List.map_congr_left fun k _ => ?_)
  change ((piece ++ bs).drop ((k + 1) * size)).take size = _
  rw [Nat.succ_mul, Nat.add_comm, ← List.drop_drop, List.drop_left' hpiece]

/-- **Only the last piece is short.** -/
theorem fullButLast_cutUp (hsize : 0 < size) : FullButLast size (cutUp size bs) := by
  intro piece hmem
  rw [cutUp, ← List.map_dropLast, List.dropLast_eq_take, List.length_range, List.take_range,
    List.mem_map] at hmem
  obtain ⟨k, hk, rfl⟩ := hmem
  -- another piece begins where this one ends
  have hnext : (k + 1) * size + 1 ≤ bs.length := by
    have hlt : k + 1 < pieceCount bs.length size := by
      have := List.mem_range.mp hk
      omega
    rw [pieceCount, Nat.lt_div_iff_mul_lt hsize] at hlt
    omega
  rw [Nat.succ_mul] at hnext
  rw [List.length_take, List.length_drop]
  omega

end Pieces

/-! ### Sources that do not resume -/

/-- A last reading of no bytes has nothing behind it. -/
theorem resumes_concat (readings : List Reading) :
    Resumes (readings ++ [.data []]) ↔ Resumes readings := by
  constructor
  · rintro ⟨before, after, heq, hsome⟩
    rcases List.eq_nil_or_concat after with rfl | ⟨after, last, rfl⟩
    · exact absurd rfl hsome
    · have hlast : readings ++ [.data []] = before ++ .data [] :: after ++ [last] := by
        rw [heq, List.concat_eq_append, List.append_assoc]
        rfl
      obtain ⟨rfl, hend⟩ := List.append_inj' hlast rfl
      obtain rfl : last = .data [] := (List.cons.inj hend).1.symm
      refine ⟨before, after, rfl, ?_⟩
      rw [List.concat_eq_append, List.flatMap_append] at hsome
      exact fun hnone => hsome (by rw [hnone]; rfl)
  · rintro ⟨before, after, rfl, hsome⟩
    refine ⟨before, after ++ [.data []], by simp, ?_⟩
    rw [List.flatMap_append]
    exact List.append_ne_nil_of_left_ne_nil hsome _

/-- Without a reading of none there is one stretch. -/
theorem stretches_of_not_mem {readings : List Reading} (h : .data [] ∉ readings) :
    stretches readings = [readings.flatMap Reading.bytes] := by
  induction readings with
  | nil => exact stretches_nil
  | cons reading rest ih =>
    rw [List.mem_cons, not_or] at h
    rw [stretches_cons (Ne.symm h.1), ih h.2]
    rfl

/-- **A source that does not resume is cut up as a whole.** -/
theorem flatMap_cutUp_stretches {size : Nat} (hsize : 0 < size) {readings : List Reading}
    (h : ¬ Resumes readings) :
    (stretches readings).flatMap (cutUp size) = cutUp size (readings.flatMap Reading.bytes) := by
  by_cases hend : Reading.data [] ∈ readings
  · obtain ⟨before, after, rfl, hnot⟩ := List.eq_append_cons_of_mem hend
    have hnone : after.flatMap Reading.bytes = [] :=
      Classical.not_not.mp fun hsome => h ⟨before, after, rfl, hsome⟩
    -- so the stretches behind the first reading of none are empty
    have hempty : (stretches after).flatMap (cutUp size) = [] := by
      refine List.flatMap_eq_nil_iff.mpr fun stretch hmem => ?_
      rw [← flatten_stretches, List.flatten_eq_nil_iff] at hnone
      rw [hnone stretch hmem, cutUp_nil hsize]
    rw [stretches_append, List.flatMap_append, hempty, stretches_of_not_mem hnot,
      List.flatMap_singleton, List.flatMap_append, List.flatMap_cons, hnone]
    simp [Reading.bytes]
  · rw [stretches_of_not_mem hend, List.flatMap_singleton]

/-! ### Readings in the middle of a file -/

namespace ChunkReader

/-- **Some readings in the middle of a file**, the chunks that they yield, and the reader
afterwards. None of them ends the file, and none fails. -/
inductive Yields : ChunkReader → List Reading → List Bytes → ChunkReader → Prop
  /-- No reading. -/
  | nothing {r : ChunkReader} : Yields r [] [] r
  /-- A reading that completes nothing, and some more. -/
  | still {r r' r'' : ChunkReader} {reading : Reading} {rest : List Reading} {chunks : List Bytes}
      (h : Feeds r reading r' none) (hrest : Yields r' rest chunks r'') :
      Yields r (reading :: rest) chunks r''
  /-- A reading that completes a chunk, and some more. -/
  | chunk {r r' r'' : ChunkReader} {reading : Reading} {rest : List Reading} {chunk : Bytes}
      {chunks : List Bytes} (h : Feeds r reading r' (some (.chunk chunk)))
      (hrest : Yields r' rest chunks r'') : Yields r (reading :: rest) (chunk :: chunks) r''

namespace Yields

variable {r r' r'' : ChunkReader} {readings more : List Reading} {chunks others : List Bytes}

/-- Some readings, and some more. -/
theorem append (h : Yields r readings chunks r') (hmore : Yields r' more others r'') :
    Yields r (readings ++ more) (chunks ++ others) r'' := by
  induction h with
  | nothing => exact hmore
  | still hfeeds _ ih => exact .still hfeeds (ih hmore)
  | chunk hfeeds _ ih => exact .chunk hfeeds (ih hmore)

/-- Readings can be parted anywhere. -/
theorem split (h : Yields r (readings ++ more) chunks r'') :
    ∃ former latter r', chunks = former ++ latter ∧ Yields r readings former r' ∧
      Yields r' more latter r'' := by
  induction readings generalizing r chunks with
  | nil => exact ⟨[], chunks, r, rfl, .nothing, h⟩
  | cons reading rest ih =>
    cases h with
    | still hfeeds hrest =>
      obtain ⟨former, latter, r', rfl, hformer, hlatter⟩ := ih hrest
      exact ⟨former, latter, r', rfl, .still hfeeds hformer, hlatter⟩
    | chunk hfeeds hrest =>
      obtain ⟨former, latter, r', rfl, hformer, hlatter⟩ := ih hrest
      exact ⟨_ :: former, latter, r', rfl, .chunk hfeeds hformer, hlatter⟩

theorem size_eq (h : Yields r readings chunks r') : r'.size = r.size := by
  induction h with
  | nothing => rfl
  | still hfeeds _ ih | chunk hfeeds _ ih => exact ih.trans hfeeds.size_eq

/-- There is always room for another byte. -/
theorem room (h : Yields r readings chunks r') (hroom : r.got.length < r.size) :
    r'.got.length < r'.size := by
  induction h with
  | nothing => exact hroom
  | still hfeeds _ ih | chunk hfeeds _ ih => exact ih (hfeeds.room hroom)

/-- The bytes of the chunks, and those gathered, are the bytes read. -/
theorem flatten_append (h : Yields r readings chunks r') :
    chunks.flatten ++ r'.got = r.got ++ readings.flatMap Reading.bytes := by
  induction h with
  | nothing => exact (List.append_nil _).symm
  | still hfeeds _ ih =>
    rw [ih]
    cases hfeeds with
    | interrupted => rfl
    | gathers => exact List.append_assoc _ _ _
  | chunk hfeeds _ ih =>
    rw [List.flatten_cons, List.append_assoc, ih]
    cases hfeeds with
    | fills => exact List.append_assoc _ _ _
    | cuts => rfl

/-- **Each stretch is cut up for itself**, the first one behind what was gathered before. -/
theorem append_cutUp (h : Yields r readings chunks r') (hroom : r.got.length < r.size) :
    chunks ++ cutUp r.size r'.got =
      ((stretches readings).modifyHead (r.got ++ ·)).flatMap (cutUp r.size) := by
  induction h with
  | nothing => simp
  | @still r r' r'' reading rest chunks hfeeds _ ih =>
    have hrest := ih (hfeeds.room hroom)
    rw [hfeeds.size_eq] at hrest
    obtain ⟨first, others, hstretches⟩ := List.exists_cons_of_ne_nil (stretches_ne_nil rest)
    rw [hrest]
    cases hfeeds with
    | interrupted =>
      rw [stretches_cons (by simp), hstretches]
      rfl
    | gathers hsome =>
      rw [stretches_cons (by simpa using hsome), hstretches]
      simp [gathering, Reading.bytes]
  | @chunk r r' r'' reading rest chunk chunks hfeeds _ ih =>
    have hrest := ih (hfeeds.room hroom)
    rw [hfeeds.size_eq] at hrest
    obtain ⟨first, others, hstretches⟩ := List.exists_cons_of_ne_nil (stretches_ne_nil rest)
    rw [List.cons_append, hrest]
    cases hfeeds with
    | fills hsome hfull =>
      rw [stretches_cons (by simpa using hsome), hstretches, List.modifyHead_cons,
        List.modifyHead_cons, List.modifyHead_cons, List.flatMap_cons, List.flatMap_cons,
        ← List.append_assoc r.got, Reading.bytes, cutUp_append r.size_pos hfull]
      rfl
    | cuts hgot =>
      simp only [stretches_cons_end, hstretches, List.modifyHead_cons, List.append_nil,
        List.flatMap_cons, cutUp_short hgot (Nat.le_of_lt hroom)]
      rfl

/-- From one chunk boundary to another the chunks are the pieces of the stretches. -/
theorem chunks_eq (h : Yields r readings chunks r') (hgot : r.got = []) (hgot' : r'.got = []) :
    chunks = (stretches readings).flatMap (cutUp r.size) := by
  have hcut := h.append_cutUp (hgot ▸ r.size_pos)
  obtain ⟨first, others, hstretches⟩ := List.exists_cons_of_ne_nil (stretches_ne_nil readings)
  rwa [hgot', cutUp_nil r.size_pos, List.append_nil, hgot, hstretches, List.modifyHead_cons,
    List.nil_append, ← hstretches] at hcut

/-- **All chunks but the last one are full if the source does not resume**, and only then: what
comes behind a reading of none comes behind a chunk that was cut short. -/
theorem fullButLast_iff (h : Yields r readings chunks r') (hgot : r.got = [])
    (hgot' : r'.got = []) : FullButLast r.size chunks ↔ ¬ Resumes readings := by
  have hroom : r.got.length < r.size := hgot ▸ r.size_pos
  constructor
  · rintro hfull ⟨before, after, rfl, hsome⟩
    obtain ⟨former, latter, r₁, rfl, hformer, hlatter⟩ := h.split
    have hshort := hformer.room hroom
    rw [hformer.size_eq] at hshort
    cases hlatter with
    | still hfeeds =>
      cases hfeeds with
      | gathers hnot => exact hnot rfl
    | @chunk _ _ _ _ _ chunk chunks hfeeds hrest =>
      cases hfeeds with
      | fills hnot => exact hnot rfl
      | cuts =>
        have hflatten := hrest.flatten_append
        rw [hgot', List.append_nil] at hflatten
        have hmore : chunks ≠ [] := by
          rintro rfl
          exact hsome hflatten.symm
        refine Nat.ne_of_lt hshort (hfull _ ?_)
        rw [List.dropLast_append_of_ne_nil (List.cons_ne_nil _ _),
          List.dropLast_cons_of_ne_nil hmore]
        exact List.mem_append_right _ List.mem_cons_self
  · intro hnot
    rw [h.chunks_eq hgot hgot', flatMap_cutUp_stretches r.size_pos hnot]
    exact fullButLast_cutUp r.size_pos

end Yields

end ChunkReader

namespace Transfer

open ChunkReader (Yields)

/-! ### What a transfer has gathered -/

/-- The file has been ended: by a reading of no bytes, with nothing gathered before it. -/
def Ended (chunkSize : Nat) (t : Transfer) (deeds : List Deed) : Prop :=
  ∃ earlier, readings deeds = earlier ++ [.data []] ∧
    Yields (.fresh chunkSize) earlier (pieces (taken deeds)) t.reader ∧ t.reader.got = []

/-- **What the readings of a transfer yield**, phase by phase. -/
def Gathered (chunkSize : Nat) (t : Transfer) (deeds : List Deed) : Prop :=
  match t.phase with
  | .opening | .reading =>
    Yields (.fresh chunkSize) (readings deeds) (pieces (taken deeds)) t.reader
  | .handing chunk =>
    Yields (.fresh chunkSize) (readings deeds) (pieces (taken deeds) ++ [chunk]) t.reader
  | .closing => Ended chunkSize t deeds
  | .over r => r.failure = none → Ended chunkSize t deeds
  | .notifying _ | .crashed => True

theorem readings_idle {d : Deed} (h : d.reading? = none) (deeds : List Deed) :
    readings (deeds ++ [d]) = readings deeds := by
  rw [readings_concat, h, Option.toList_none, List.append_nil]

theorem pieces_idle {d : Deed} (h : d.packet? = none) (deeds : List Deed) :
    pieces (taken (deeds ++ [d])) = pieces (taken deeds) :=
  congrArg pieces (taken_idle h deeds)

namespace Gathered

variable {chunkSize : Nat} {t t' : Transfer} {deeds new : List Deed}

/-- A reading. -/
theorem reading (h : Gathered chunkSize t deeds) (hphase : t.phase = .reading)
    {reading : Reading} (hfit : reading.bytes.length ≤ t.reader.wanted) (limit : Nat) :
    Gathered chunkSize (t.accept reading) (deeds ++ [.read limit reading]) := by
  simp only [Gathered, hphase] at h
  have hreadings : readings (deeds ++ [.read limit reading]) = readings deeds ++ [reading] :=
    readings_concat _ _
  have hpieces : pieces (taken (deeds ++ [.read limit reading])) = pieces (taken deeds) :=
    pieces_idle rfl deeds
  have hfeeds := ChunkReader.feeds_feed (h.room (ChunkReader.size_pos _)) hfit
  rcases hfeed : t.reader.feed reading with ⟨reader, _ | outcome⟩ <;> rw [hfeed] at hfeeds
  -- nothing is completed
  · have haccept : t.accept reading = { t with reader } := by simp only [accept, hfeed]
    rw [haccept]
    simp only [Gathered, hphase, hreadings, hpieces]
    simpa using h.append (.still hfeeds .nothing)
  have haccept : t.accept reading = { t with reader, phase := t.phaseAfter outcome } := by
    simp only [accept, hfeed]
  rw [haccept]
  cases outcome with
  | chunk bs =>
    by_cases hlast : t.sequence = lastSequence
    · have hnext : t.phaseAfter (.chunk bs) = .notifying (.sequenceExhausted t.bytes) :=
        if_pos hlast
      simp only [Gathered, hnext]
    · have hnext : t.phaseAfter (.chunk bs) = .handing bs := if_neg hlast
      simp only [Gathered, hnext, hreadings, hpieces]
      exact h.append (.chunk hfeeds .nothing)
  | finished =>
    cases hfeeds with
    | ends hgot =>
      simp only [Gathered, phaseAfter, Ended, hreadings, hpieces]
      exact ⟨_, rfl, h, hgot⟩
  | failed e => simp only [Gathered, phaseAfter]

/-- **Every step knows what the readings yield.** -/
theorem does (h : Gathered chunkSize t deeds) {told : List Event} (hdoes : Does t new told t')
    (hmeasured : Measured new) : Gathered chunkSize t' (deeds ++ new) := by
  cases hdoes with
  | opens hphase =>
    simp only [Gathered, hphase] at h
    simp only [Gathered, go_phase]
    rw [readings_idle rfl, pieces_idle rfl]
    exact h
  | reads hphase reading =>
    refine h.reading hphase ?_ _
    cases reading with
    | data bs => exact hmeasured _ _ List.mem_cons_self
    | interrupted | failed e => exact Nat.zero_le _
  | hands hphase ticks =>
    simp only [Gathered, hphase] at h
    simp only [Gathered, handed]
    rw [readings_idle rfl, taken_append, pieces_append]
    exact h
  | removes hphase wanted answer =>
    simp only [Gathered, hphase] at h
    intro hnone
    rw [Ended, readings_idle rfl, pieces_idle rfl]
    exact h
  | keeps hphase unwanted =>
    simp only [Gathered, hphase] at h
    rw [List.append_nil]
    exact fun _ => h
  | rests hover =>
    rw [List.append_nil]
    exact h
  | notifies hphase ticks => exact fun hnone => absurd hnone (by simp [reportWith])
  | opensNot | lacksRoom | handsNot | notifiesNot => trivial

end Gathered

theorem Course.gathered {entry : Entry} {chunkSize : Nat} {t : Transfer} {deeds : List Deed}
    (h : Course (fresh entry chunkSize) deeds t) (hmeasured : Measured deeds) :
    Gathered chunkSize t deeds := by
  induction h with
  | start => exact .nothing
  | step _ hdoes ih => exact (ih hmeasured.of_append.1).does hdoes hmeasured.of_append.2

/-! ### What is carried of a file that grows -/

/-- **What a completed transfer has carried**, whatever the readings were: the file may have grown
under it.

All packets are pieces of the file. Each stretch is cut up for itself, and the report counts the
pieces of all stretches. All packets but the last one are full if no bytes came behind a reading of
none, and only then. If so, there are as many packets as the bytes call for. -/
theorem growing_exact {σ : Type} {around : Surroundings σ} (hmeasures : around.Measures)
    (entry : Entry) (chunkSize n : Nat) (s : σ) (r : Report)
    (hreport : ((fresh entry chunkSize).run around n s).1.report? = some r)
    (hnone : r.failure = none) :
    let deeds := ((fresh entry chunkSize).run around.recorded n (s, [])).2.2
    let size := ChunkReader.sizeFor chunkSize
    (∀ p ∈ taken deeds, p.content = .info) ∧
      pieces (taken deeds) = (stretches (readings deeds)).flatMap (cutUp size) ∧
      r.packets = ((stretches (readings deeds)).map fun bs => pieceCount bs.length size).sum ∧
      r.bytes = ((readings deeds).flatMap Reading.bytes).length ∧
      (FullButLast size (pieces (taken deeds)) ↔ ¬ Resumes (readings deeds)) ∧
      (¬ Resumes (readings deeds) → r.packets = pieceCount r.bytes size) := by
  intro deeds size
  have hcourse := course_run around n (fresh entry chunkSize) s
  rw [(run_recorded around n (fresh entry chunkSize) s []).1] at hcourse
  have hmeasured : Measured deeds :=
    hmeasures.run n (fresh entry chunkSize) s fun _ _ h => absurd h (by simp)
  change Course _ deeds _ at hcourse
  generalize ((fresh entry chunkSize).run around n s).1 = t at hcourse hreport
  have hphase := report?_eq_some_iff.mp hreport
  obtain ⟨haccount, hstanding⟩ := hcourse.sound_fresh
  have hgathered := hcourse.gathered hmeasured
  simp only [Gathered, hphase] at hgathered
  obtain ⟨earlier, hreadings, hyields, hgot⟩ := hgathered hnone
  obtain ⟨hreport', -, hall⟩ := hstanding.completed hphase hnone
  have hinfo : ∀ p ∈ taken deeds, p.content = .info := fun p hp => (hall p true (mem_taken.mp hp)).1
  have hsize : 0 < size := (ChunkReader.fresh chunkSize).size_pos
  -- the last reading adds an empty stretch
  have hpieces : pieces (taken deeds) = (stretches (readings deeds)).flatMap (cutUp size) := by
    rw [hreadings, stretches_append, List.flatMap_append, stretches_nil, List.flatMap_singleton,
      cutUp_nil hsize, List.append_nil]
    exact hyields.chunks_eq rfl hgot
  have hbytes : r.bytes = ((readings deeds).flatMap Reading.bytes).length := by
    have hflatten := hyields.flatten_append
    rw [hgot, List.append_nil] at hflatten
    rw [hreport', hreadings, List.flatMap_append]
    change t.bytes = _
    rw [haccount.bytes, length_content, ← List.length_flatten, hflatten]
    simp [ChunkReader.fresh, Reading.bytes]
  have hpackets : r.packets = (pieces (taken deeds)).length := by
    rw [hreport', length_pieces hinfo]
    exact haccount.packets
  refine ⟨hinfo, hpieces, ?_, hbytes, ?_, fun hnot => ?_⟩
  · rw [hpackets, hpieces, List.length_flatMap]
    simp only [length_cutUp]
  · rw [hreadings, resumes_concat]
    exact hyields.fullButLast_iff rfl hgot
  · rw [hpackets, hpieces, flatMap_cutUp_stretches hsize hnot, length_cutUp, hbytes]

/-! ### A file that somebody writes to -/

end Transfer

namespace Emitter

variable {ε : Type}

/-- **A site where somebody writes to a file**: before each reading the next of some bytes, behind
the end of the file of that name. -/
def growing (e : Emitter ε) (name : String) : Transfer.Surroundings (Desk ε × List Bytes) where
  openSource path size := fun (d, coming) =>
    match openSource path size d with
    | (answer, d) => (answer, d, coming)
  read limit := fun (d, coming) =>
    let files := (d.files.appendFile name (coming.headD [])).toOption.getD d.files
    match readSource limit { d with files } with
    | (reading, d) => (reading, d, coming.tail)
  ticks := fun (d, _) => e.ticks d.output
  take p := fun (d, coming) =>
    match e.handOver p d with
    | (back, d) => (back, d, coming)
  remove path := fun (d, coming) =>
    match removeSource path d with
    | (answer, d) => (answer, d, coming)
  tell event := fun (d, coming) => ({ d with log := d.log ++ [event] }, coming)

theorem measures_growing (e : Emitter ε) (name : String) : (e.growing name).Measures :=
  fun limit s bs hread => Transfer.measures_site e limit
    { s.1 with files := (s.1.files.appendFile name (s.2.headD [])).toOption.getD s.1.files } bs
    hread

end Emitter

namespace Transfer

/-- The file has two bytes at first; when these have been read, and there was no more, another one
comes. The packets are `[1, 2]` and `[3]`, though a packet may have four bytes. -/
theorem growing_cut_short :
    let e : Emitter Unit := ⟨fun _ => 0, fun _ _ => (true, [], ())⟩
    let s : Desk Unit := ⟨⟨FileTree.empty.insertFile ["f"] [1, 2], (), [], .sound⟩, none⟩
    let coming : List Bytes := [[], [], [3]]
    let run := (fresh ⟨Id.ft, Id.ecu1, "/f", false⟩ 4).run (e.growing "/f").recorded 9
      ((s, coming), [])
    ∃ r, run.1.report? = some r ∧ r.failure = none ∧
      pieces (taken run.2.2) = [[1, 2], [3]] ∧ ¬ FullButLast 4 (pieces (taken run.2.2)) ∧
      r.packets ≠ pieceCount r.bytes 4 := by
  intro e s coming run
  have hreport : run.1.report? =
      some ⟨Id.ft, Id.ecu1, "/f", .completed, 2, 3, none, .notRequested⟩ := by
    unfold run
    cbv
  have hpieces : pieces (taken run.2.2) = [[1, 2], [3]] := by
    unfold run
    cbv
  refine ⟨_, hreport, rfl, hpieces, ?_, by decide⟩
  rw [hpieces, FullButLast]
  decide

/-- The source of that transfer has resumed, and its stretches have a packet each. -/
theorem growing_exact_resumed :
    let e : Emitter Unit := ⟨fun _ => 0, fun _ _ => (true, [], ())⟩
    let s : Desk Unit := ⟨⟨FileTree.empty.insertFile ["f"] [1, 2], (), [], .sound⟩, none⟩
    let coming : List Bytes := [[], [], [3]]
    let entry : Entry := ⟨Id.ft, Id.ecu1, "/f", false⟩
    let deeds := ((fresh entry 4).run (e.growing "/f").recorded 9 ((s, coming), [])).2.2
    let r : Report := ⟨Id.ft, Id.ecu1, "/f", .completed, 2, 3, none, .notRequested⟩
    (e.growing "/f").Measures ∧
      ((fresh entry 4).run (e.growing "/f") 9 (s, coming)).1.report? = some r ∧ r.failure = none ∧
      Resumes (readings deeds) ∧
      2 = ((stretches (readings deeds)).map fun bs => pieceCount bs.length 4).sum := by
  intro e s coming entry deeds r
  have hreport : ((fresh entry 4).run (e.growing "/f") 9 (s, coming)).1.report? = some r := by cbv
  have hpieces : pieces (taken deeds) = [[1, 2], [3]] := by
    unfold deeds
    cbv
  obtain ⟨-, -, hpackets, -, hfull, -⟩ :=
    growing_exact (e.measures_growing "/f") entry 4 9 (s, coming) r hreport rfl
  refine ⟨e.measures_growing "/f", hreport, rfl, Classical.not_not.mp fun hnot => ?_, hpackets⟩
  have hshort : FullButLast 4 (pieces (taken deeds)) := hfull.mpr hnot
  rw [hpieces, FullButLast] at hshort
  exact absurd hshort (by decide)

end Transfer

end LogCourier
