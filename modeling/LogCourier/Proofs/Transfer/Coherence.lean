import LogCourier.Proofs.Transfer.Account
import Mathlib.Algebra.GroupWithZero.Nat

/-!
# Reports and packets

A report says how a transfer went, and so do the packets that were handed over. They say the same,
for any run that comes to a report, whatever the source answered
(`LogCourier.Transfer.report_coherent`).

Most of it is in the counters (`LogCourier.Transfer.Account`) and in how a transfer settles
(`LogCourier.Transfer.Settled`). What is left is **the last number**: it is kept back for a notice,
and a transfer that fails because it has come to that number has to have had a chunk for it. So
the chunks are counted that the source yielded, which is what a chunk reader makes of the readings
alone (`LogCourier.Transfer.yielded`); how many there are does not depend on the transfer. Phase by
phase, then (`LogCourier.Transfer.Tally`):

| phase | the chunks yielded are |
| --- | --- |
| `opening`, `reading`, `closing` | those handed on |
| `handing` | those handed on, and the one under way |
| `notifying`, `over` | those handed on, and one more if numbers ran out |

If numbers ran out, `2 ^ 32 - 1` chunks have been handed on and there was one more, which makes
`2 ^ 32`; if not, all chunks have been handed on, and there were numbers for them.
-/

namespace LogCourier

/-! ### Chunks -/

namespace ChunkReader

variable {r : ChunkReader}

/-- The reader after some readings. -/
def after (r : ChunkReader) (readings : List Reading) : ChunkReader :=
  readings.foldl (fun r reading => (r.feed reading).1) r

/-- The chunk that was completed, if it was one. -/
def Outcome.chunk? : Outcome → Option Bytes
  | .chunk bs => some bs
  | .finished | .failed _ => none

/-- **The chunks that a reader makes of some readings.** -/
def chunks (r : ChunkReader) : List Reading → List Bytes
  | [] => []
  | reading :: rest =>
    ((r.feed reading).2.bind Outcome.chunk?).toList ++ (r.feed reading).1.chunks rest

theorem after_concat (r : ChunkReader) (readings : List Reading) (reading : Reading) :
    r.after (readings ++ [reading]) = ((r.after readings).feed reading).1 := by
  simp [after]

theorem chunks_concat (r : ChunkReader) (readings : List Reading) (reading : Reading) :
    r.chunks (readings ++ [reading]) =
      r.chunks readings ++ (((r.after readings).feed reading).2.bind Outcome.chunk?).toList := by
  -- on the readings before, for every reader: the first of them makes another one
  induction readings generalizing r with
  | nil => simp [chunks, after]
  | cons first rest ih =>
    rw [List.cons_append, chunks, chunks, ih, List.append_assoc]
    rfl

theorem giveOut_chunk_ne_nil {bs : Bytes} (h : r.giveOut.2 = .chunk bs) : bs ≠ [] := by
  rw [giveOut] at h
  split at h
  · exact absurd h (by simp)
  · rename_i hsome
    rw [← Outcome.chunk.inj h]
    exact hsome

theorem feed_chunk_ne_nil {reading : Reading} {bs : Bytes}
    (h : (r.feed reading).2 = some (.chunk bs)) : bs ≠ [] := by
  cases reading with
  | interrupted => exact absurd h (by simp [feed])
  | failed e => exact absurd h (by simp [feed])
  | data got =>
    rw [feed] at h
    split at h
    · exact giveOut_chunk_ne_nil (Option.some.inj h)
    · dsimp only at h
      split at h
      · exact absurd h (by simp)
      · exact giveOut_chunk_ne_nil (Option.some.inj h)

/-- **No chunk is empty.** -/
theorem ne_nil_of_mem_chunks {readings : List Reading} {chunk : Bytes}
    (h : chunk ∈ r.chunks readings) : chunk ≠ [] := by
  induction readings generalizing r with
  | nil => exact absurd h (by simp [chunks])
  | cons reading rest ih =>
    rw [chunks, List.mem_append] at h
    rcases h with hfirst | hrest
    · rw [Option.mem_toList] at hfirst
      obtain ⟨outcome, houtcome, hchunk⟩ := Option.bind_eq_some_iff.mp hfirst
      cases outcome with
      | chunk bs =>
        obtain rfl : bs = chunk := Option.some.inj hchunk
        exact feed_chunk_ne_nil houtcome
      | _ => exact absurd hchunk (by simp [Outcome.chunk?])
    · exact ih hrest

end ChunkReader

namespace Transfer

/-- The answer of a deed that was to read. -/
def Deed.reading? : Deed → Option Reading
  | .read _ answer => some answer
  | _ => none

/-- All answers of the source, in order. -/
def readings (deeds : List Deed) : List Reading :=
  deeds.filterMap Deed.reading?

/-- **The chunks that a source yielded**, if so many bytes make a full chunk. -/
def yielded (chunkSize : Nat) (deeds : List Deed) : List Bytes :=
  (ChunkReader.fresh chunkSize).chunks (readings deeds)

/-- The pieces of the file in some packets. -/
def pieces (ps : List Packet) : List Bytes :=
  (ps.filter (·.content = .info)).map Packet.payload

theorem readings_concat (deeds : List Deed) (d : Deed) :
    readings (deeds ++ [d]) = readings deeds ++ d.reading?.toList := by
  cases h : d.reading? <;> simp [readings, h]

theorem pieces_append (ps qs : List Packet) : pieces (ps ++ qs) = pieces ps ++ pieces qs := by
  simp [pieces]

theorem length_pieces {ps : List Packet} (h : ∀ p ∈ ps, p.content = .info) :
    (pieces ps).length = ps.length := by
  rw [pieces, List.length_map, List.filter_eq_self.mpr (by simpa using h)]

theorem pieces_concat_notice {before : List Packet} {notice : Packet}
    (h : notice.content = .error) : pieces (before ++ [notice]) = pieces before := by
  simp [pieces, h]

/-! ### What has become of the chunks -/

/-- What has become of the chunks when a transfer fails so, or does not fail. -/
def Spent (handedOn chunks : List Bytes) : Option Failure → Prop
  | none | some (.reading ..) => chunks = handedOn
  | some (.opening _) => handedOn = [] ∧ chunks = []
  | some (.sequenceExhausted _) =>
    handedOn.length = 4294967295 ∧ ∃ chunk, chunks = handedOn ++ [chunk]

/-- **What has become of the chunks**, phase by phase. -/
def Allotted (t : Transfer) (handedOn chunks : List Bytes) : Prop :=
  match t.phase with
  | .opening | .reading | .closing => chunks = handedOn
  | .handing chunk => chunks = handedOn ++ [chunk]
  | .notifying failure => Spent handedOn chunks (some failure)
  | .over r => Spent handedOn chunks r.failure
  | .crashed => True

/-- **Every chunk that the source yielded is accounted for.** -/
structure Tally (chunkSize : Nat) (t : Transfer) (deeds : List Deed) : Prop where
  /-- The transfer has the reader that the readings lead to. -/
  reader : t.reader = (ChunkReader.fresh chunkSize).after (readings deeds)
  /-- Each chunk has been handed on, is under way, or was one too many. -/
  allotted : Allotted t (pieces (taken deeds)) (yielded chunkSize deeds)
  /-- No piece has the last number. -/
  few : (pieces (taken deeds)).length ≤ 4294967295

namespace Tally

variable {chunkSize : Nat} {t t' : Transfer} {deeds new : List Deed}

theorem begin (entry : Entry) : Tally chunkSize (fresh entry chunkSize) [] :=
  ⟨rfl, rfl, Nat.zero_le _⟩

/-- A step that neither reads nor has a piece taken. -/
theorem idle (h : Tally chunkSize t deeds) {d : Deed} (hreading : d.reading? = none)
    (hnew : pieces (taken [d]) = []) (hreader : t'.reader = t.reader)
    (hallotted : ∀ handedOn chunks, Allotted t handedOn chunks → Allotted t' handedOn chunks) :
    Tally chunkSize t' (deeds ++ [d]) where
  reader := by
    rw [hreader, readings_concat, hreading, Option.toList_none, List.append_nil]
    exact h.reader
  allotted := by
    rw [yielded, readings_concat, hreading, Option.toList_none, List.append_nil, taken_append,
      pieces_append, hnew, List.append_nil]
    exact hallotted _ _ h.allotted
  few := by
    rw [taken_append, pieces_append, hnew, List.append_nil]
    exact h.few

/-- A reading: the chunk that it completes, if it does, gets the next number or is one too many. -/
theorem reading (h : Tally chunkSize t deeds) (haccount : Account t deeds)
    (hstanding : Standing t deeds) (hphase : t.phase = .reading) (limit : Nat)
    (reading : Reading) :
    Tally chunkSize (t.accept reading) (deeds ++ [.read limit reading]) := by
  have hreadings : readings (deeds ++ [.read limit reading]) = readings deeds ++ [reading] :=
    readings_concat _ _
  have hsame : taken (deeds ++ [.read limit reading]) = taken deeds := taken_idle rfl deeds
  have hyielded : yielded chunkSize (deeds ++ [.read limit reading]) = yielded chunkSize deeds ++
      ((t.reader.feed reading).2.bind ChunkReader.Outcome.chunk?).toList := by
    rw [yielded, hreadings, ChunkReader.chunks_concat, ← h.reader]
    rfl
  have hbefore : yielded chunkSize deeds = pieces (taken deeds) := by
    have hallotted := h.allotted
    simpa only [Allotted, hphase] using hallotted
  have hreader : (t.reader.feed reading).1 =
      (ChunkReader.fresh chunkSize).after (readings (deeds ++ [.read limit reading])) := by
    rw [hreadings, ChunkReader.after_concat, ← h.reader]
  have hfew := h.few
  rw [← hsame] at hfew
  rcases hfeed : t.reader.feed reading with ⟨reader, _ | outcome⟩ <;> rw [hfeed] at hyielded hreader
  -- nothing is completed
  · have haccept : t.accept reading = { t with reader } := by simp only [accept, hfeed]
    rw [haccept]
    refine ⟨hreader, ?_, hfew⟩
    simp only [Allotted, hphase, hsame, hyielded, hbefore]
    exact List.append_nil _
  have haccept : t.accept reading = { t with reader, phase := t.phaseAfter outcome } := by
    simp only [accept, hfeed]
  rw [haccept]
  refine ⟨hreader, ?_, hfew⟩
  rw [hsame, hyielded, hbefore]
  cases outcome with
  | finished => exact List.append_nil _
  | failed e => exact List.append_nil _
  | chunk bs =>
    by_cases hlast : t.sequence = lastSequence
    -- the chunk that there is no number for: each number before the last has its piece
    · have hnext : t.phaseAfter (.chunk bs) = .notifying (.sequenceExhausted t.bytes) :=
        if_pos hlast
      have hsmooth : Smooth deeds := by
        simp only [Standing, hphase] at hstanding
        exact hstanding.1
      have hcount := haccount.sequence (by simp [isOver, hphase])
      rw [haccount.packets, hlast, ← length_pieces hsmooth.pieces] at hcount
      simp only [Allotted, hnext]
      exact ⟨hcount.symm, bs, rfl⟩
    · have hnext : t.phaseAfter (.chunk bs) = .handing bs := if_neg hlast
      simp only [Allotted, hnext]
      rfl

/-- A piece is taken: what was under way has been handed on. -/
theorem hand (h : Tally chunkSize t deeds) (haccount : Account t deeds) {chunk : Bytes}
    (hphase : t.phase = .handing chunk) (ticks : UInt32) :
    Tally chunkSize (t.handed chunk) (deeds ++ [.handed (t.packet .info chunk ticks) true]) := by
  have hreadings : readings (deeds ++ [.handed (t.packet .info chunk ticks) true]) =
      readings deeds := by
    rw [readings_concat]
    exact List.append_nil _
  have hpieces : pieces (taken (deeds ++ [.handed (t.packet .info chunk ticks) true])) =
      pieces (taken deeds) ++ [chunk] := by
    rw [taken_append, pieces_append]
    rfl
  refine ⟨?_, ?_, ?_⟩
  · rw [hreadings]
    exact h.reader
  · have hallotted := h.allotted
    simp only [Allotted, hphase] at hallotted
    rw [yielded, hreadings, hpieces]
    exact hallotted
  -- the number of the piece is not the last one, and no piece before it has a greater number
  · have hnumber := toNat_countPacket_sequence (haccount.spare chunk hphase)
    have hcount := haccount.sequence (by simp [isOver, hphase])
    have hlt := t.countPacket.sequence.toNat_lt
    have hle : (pieces (taken deeds)).length ≤ (taken deeds).length := by
      rw [pieces, List.length_map]
      exact List.length_filter_le _ _
    rw [← haccount.packets, ← hcount] at hle
    rw [hpieces, List.length_append, List.length_singleton]
    omega

/-- **Every step accounts for the chunks.** -/
theorem does (h : Tally chunkSize t deeds) (haccount : Account t deeds)
    (hstanding : Standing t deeds) {told : List Event} (hdoes : Does t new told t') :
    Tally chunkSize t' (deeds ++ new) := by
  cases hdoes with
  | opens hphase =>
    refine h.idle rfl rfl rfl fun handedOn chunks hall => ?_
    simpa only [Allotted, hphase, go_phase] using hall
  | opensNot hphase e =>
    -- nothing has been read before the file was to be opened
    simp only [Standing, hphase] at hstanding
    obtain ⟨rfl, -⟩ := hstanding
    exact ⟨h.reader, ⟨rfl, rfl⟩, h.few⟩
  | lacksRoom hphase => exact h.idle rfl rfl rfl fun _ _ _ => trivial
  | reads hphase reading => exact h.reading haccount hstanding hphase _ reading
  | hands hphase ticks => exact h.hand haccount hphase ticks
  | handsNot hphase ticks => exact h.idle rfl rfl rfl fun _ _ _ => trivial
  | notifies hphase ticks =>
    -- a notice is no piece, and the report tells of the failure it was about
    refine h.idle rfl rfl rfl fun handedOn chunks hall => ?_
    simp only [Allotted, hphase] at hall
    exact hall
  | notifiesNot hphase ticks => exact h.idle rfl rfl rfl fun _ _ _ => trivial
  | removes hphase wanted answer =>
    refine h.idle rfl rfl rfl fun handedOn chunks hall => ?_
    simp only [Allotted, hphase] at hall
    exact hall
  | keeps hphase unwanted =>
    rw [List.append_nil]
    refine ⟨h.reader, ?_, h.few⟩
    have hall := h.allotted
    simp only [Allotted, hphase] at hall
    exact hall
  | rests hover =>
    rw [List.append_nil]
    exact h

end Tally

/-! ### What a run comes to -/

/-- A step that does not crash had its packet taken. -/
theorem Does.back {t t' : Transfer} {new : List Deed} {told : List Event}
    (h : Does t new told t') (hphase : t'.phase ≠ .crashed) :
    t.phase ≠ .crashed ∧ ∀ p, .handed p false ∉ new := by
  cases h with
  | lacksRoom | handsNot | notifiesNot => exact absurd rfl hphase
  | rests => exact ⟨hphase, by simp⟩
  | opens hbefore | opensNot hbefore | reads hbefore | hands hbefore | notifies hbefore
  | removes hbefore | keeps hbefore => exact ⟨by simp [hbefore], by simp⟩

namespace Course

variable {entry : Entry} {chunkSize : Nat} {t : Transfer} {deeds : List Deed}

/-- **Nobody threw in a run that did not crash.** -/
theorem back (h : Course (fresh entry chunkSize) deeds t) (hphase : t.phase ≠ .crashed)
    {p : Packet} {back : Bool} (hp : .handed p back ∈ deeds) : back = true := by
  induction h with
  | start => exact absurd hp (by simp)
  | step _ hdoes ih =>
    obtain ⟨hbefore, hnew⟩ := hdoes.back hphase
    rcases List.mem_append.mp hp with hold | hlast
    · exact ih hbefore hold
    · cases back with
      | true => rfl
      | false => exact absurd hlast (hnew p)

theorem tally (h : Course (fresh entry chunkSize) deeds t) : Tally chunkSize t deeds := by
  induction h with
  | start => exact .begin entry
  | step hcourse hdoes ih => exact ih.does hcourse.sound_fresh.1 hcourse.sound_fresh.2 hdoes

end Course

theorem Account.numbers {t : Transfer} {deeds : List Deed} (h : Account t deeds) :
    (taken deeds).map (·.sequence.toNat) = List.range t.packets := by
  rw [h.packets]
  refine List.ext_getElem (by simp) fun k hk _ => ?_
  rw [List.length_map] at hk
  rw [List.getElem_map, List.getElem_range]
  exact (h.numbered k _ (List.getElem?_eq_getElem hk)).1

/-- The bytes handed on are those of the pieces. -/
theorem length_content (ps : List Packet) :
    (content ps).length = ((pieces ps).map List.length).sum := by
  rw [content, pieces, List.length_flatMap, List.map_map]
  rfl

/-- What became of the file goes with how the transfer ended. -/
theorem Settled.deletion_iff {entry : Entry} {size : Nat} {deeds : List Deed}
    {failure : Option Failure} {deletion : Deletion}
    (h : Settled entry size deeds failure deletion) :
    (deletion = .notRequested ↔ entry.deleteFile = false) ∧
    (deletion = .skipped ↔ entry.deleteFile = true ∧ failure ≠ none) ∧
    ((deletion = .deleted ∨ ∃ e, deletion = .failed e) → failure = none) := by
  cases h with
  | failed hunfinished f notice hcontent hpayload =>
    cases hwanted : entry.deleteFile <;> simp
  | removed hfinished wanted answer =>
    cases answer <;> simp [wanted, Deletion.ofRemoval]
  | kept hfinished unwanted => simp [unwanted]

namespace Spent

variable {handedOn chunks : List Bytes} {failure : Option Failure}

/-- **Numbers ran out if there was a chunk too many**, and only then. -/
theorem exhausted_iff (h : Spent handedOn chunks failure) (hfew : handedOn.length ≤ 4294967295) :
    (∃ offset, failure = some (.sequenceExhausted offset)) ↔ 4294967296 ≤ chunks.length := by
  rcases failure with _ | ⟨e⟩ | ⟨offset, e⟩ | ⟨offset⟩
  · obtain rfl : chunks = handedOn := h
    simp only [reduceCtorEq, exists_false, false_iff]
    omega
  · obtain ⟨-, rfl⟩ := h
    simp
  · obtain rfl : chunks = handedOn := h
    simp only [Option.some.injEq, reduceCtorEq, exists_false, false_iff]
    omega
  · obtain ⟨hlength, chunk, rfl⟩ := h
    simp [hlength]

/-- The chunks handed on are the first ones, as many as there are numbers for. -/
theorem eq_take (h : Spent handedOn chunks failure) (hfew : handedOn.length ≤ 4294967295) :
    handedOn = chunks.take 4294967295 := by
  rcases failure with _ | ⟨e⟩ | ⟨offset, e⟩ | ⟨offset⟩
  · obtain rfl : chunks = handedOn := h
    rw [List.take_of_length_le hfew]
  · obtain ⟨rfl, rfl⟩ := h
    rfl
  · obtain rfl : chunks = handedOn := h
    rw [List.take_of_length_le hfew]
  · obtain ⟨hlength, chunk, rfl⟩ := h
    rw [List.take_left' hlength]

end Spent

/-! ### Reports -/

/-- **How the packets of a transfer are made up**, by how it ended: pieces, or pieces and a notice
behind them. -/
inductive Row (ps : List Packet) : Option Failure → Prop
  /-- There are only pieces. -/
  | pieces (h : ∀ p ∈ ps, p.content = .info) : Row ps none
  /-- There are pieces, and a notice. -/
  | notice (failure : Failure) {before : List Packet} {notice : Packet}
      (hrow : ps = before ++ [notice]) (hbefore : ∀ p ∈ before, p.content = .info)
      (hnotice : notice.content = .error) : Row ps failure

theorem Standing.row {t : Transfer} {deeds : List Deed} {r : Report} (h : Standing t deeds)
    (hphase : t.phase = .over r) : Row (taken deeds) r.failure := by
  rcases h.pieces_or_notice with
    ⟨hpieces, hnone⟩ | ⟨r', failure, before, notice, hr', hfailure, hrow, hbefore, hnotice, -⟩
  · rw [hnone r hphase]
    exact .pieces hpieces
  · obtain rfl : r' = r := Phase.over.inj (hr'.symm.trans hphase)
    rw [hfailure]
    exact .notice failure hrow hbefore hnotice

namespace Row

variable {ps : List Packet} {failure : Option Failure}

/-- A notice is one packet besides the pieces. -/
theorem length_eq (h : Row ps failure) :
    ps.length = (Transfer.pieces ps).length + if failure = none then 0 else 1 := by
  cases h with
  | pieces hpieces => simp [length_pieces hpieces]
  | @notice f before notice hrow hbefore hnotice =>
    rw [hrow, pieces_concat_notice hnotice, length_pieces hbefore]
    simp

theorem exists_notice_iff (h : Row ps failure) :
    (∃ p ∈ ps, p.content = .error) ↔ failure ≠ none := by
  cases h with
  | pieces hpieces =>
    simp only [ne_eq, not_true, iff_false]
    rintro ⟨p, hp, herror⟩
    rw [hpieces p hp] at herror
    exact absurd herror (by simp)
  | notice f hrow hbefore hnotice =>
    subst hrow
    exact ⟨fun _ => by simp, fun _ => ⟨_, by simp, hnotice⟩⟩

theorem notice_last (h : Row ps failure) {k : Nat} {p : Packet} (hk : ps[k]? = some p)
    (herror : p.content = .error) : k + 1 = ps.length := by
  cases h with
  | pieces hpieces =>
    rw [hpieces p (List.mem_of_getElem? hk)] at herror
    exact absurd herror (by simp)
  | notice f hrow hbefore hnotice =>
    subst hrow
    rcases getElem?_concat_cases hk with hold | ⟨rfl, -⟩
    · rw [hbefore p (List.mem_of_getElem? hold)] at herror
      exact absurd herror (by simp)
    · simp

end Row

/-- **A report and the packets agree**, for a transfer of that entry with chunks of that size. -/
structure Coherent (entry : Entry) (chunkSize : Nat) (deeds : List Deed) (r : Report) : Prop where
  /-- Every packet handed over was taken. -/
  back : ∀ p back, .handed p back ∈ deeds → back = true
  /-- The packets have the numbers from zero on, each once and in order. -/
  numbers : (taken deeds).map (·.sequence.toNat) = List.range r.packets
  /-- There are not more packets than numbers. -/
  packets_le : r.packets ≤ 4294967296
  /-- A notice is the last packet. -/
  notice_last : ∀ k p, (taken deeds)[k]? = some p → p.content = .error → k + 1 = r.packets
  /-- The transfer was completed or failed. -/
  state : r.state = .completed ∨ r.state = .failed
  /-- It failed if there is a notice. -/
  failed_iff_notice : r.state = .failed ↔ ∃ p ∈ taken deeds, p.content = .error
  /-- It failed if the report tells of a failure. -/
  failed_iff_failure : r.state = .failed ↔ r.failure ≠ none
  /-- The bytes are those of the pieces. -/
  bytes : r.bytes = ((pieces (taken deeds)).map List.length).sum
  /-- A failure that tells of bytes tells of as many. -/
  offset : ∀ offset, ((∃ e, r.failure = some (.reading offset e)) ∨
    r.failure = some (.sequenceExhausted offset)) → offset = r.bytes
  /-- If the file was not opened there is the notice only. -/
  opening : ∀ e, r.failure = some (.opening e) → r.packets = 1 ∧ r.bytes = 0
  /-- Removing the file was not requested if the entry does not ask for it. -/
  notRequested_iff : r.deletion = .notRequested ↔ entry.deleteFile = false
  /-- It is skipped if the entry asks for it and the transfer failed. -/
  skipped_iff : r.deletion = .skipped ↔ entry.deleteFile = true ∧ r.state = .failed
  /-- It is tried only if the transfer was completed. -/
  removal : (r.deletion = .deleted ∨ ∃ e, r.deletion = .failed e) → r.state = .completed
  /-- The pieces are the first chunks that the source yielded, and none of these is empty. -/
  chunks : pieces (taken deeds) = (yielded chunkSize deeds).take 4294967295 ∧
    ∀ chunk ∈ yielded chunkSize deeds, chunk ≠ []
  /-- Numbers ran out if the source yielded one chunk more than there are numbers for. -/
  exhausted_iff : (∃ offset, r.failure = some (.sequenceExhausted offset)) ↔
    4294967296 ≤ (yielded chunkSize deeds).length
  /-- Then every number before the last has its piece, and the last one has the notice. -/
  exhausted : ∀ offset, r.failure = some (.sequenceExhausted offset) →
    ∃ before notice, taken deeds = before ++ [notice] ∧ before.length = 4294967295 ∧
      (∀ p ∈ before, p.content = .info) ∧ notice.content = .error ∧ notice.sequence = 4294967295

/-- **A report and the packets agree**, for every run of a transfer that comes to a report, in any
surroundings: whatever opening the file answers, and whatever each reading. -/
theorem report_coherent {σ : Type} (around : Surroundings σ) (entry : Entry) (chunkSize n : Nat)
    (s : σ) (r : Report)
    (hreport : ((fresh entry chunkSize).run around n s).1.report? = some r) :
    Coherent entry chunkSize ((fresh entry chunkSize).run around.recorded n (s, [])).2.2 r := by
  have hcourse := course_run around n (fresh entry chunkSize) s
  rw [(run_recorded around n (fresh entry chunkSize) s []).1] at hcourse
  generalize ((fresh entry chunkSize).run around.recorded n (s, [])).2.2 = deeds at hcourse ⊢
  generalize ((fresh entry chunkSize).run around n s).1 = t at hcourse hreport
  have hphase := report?_eq_some_iff.mp hreport
  obtain ⟨haccount, hstanding⟩ := hcourse.sound_fresh
  obtain ⟨-, hallotted, hfew⟩ := hcourse.tally
  have hrow := hstanding.row hphase
  -- what has become of the chunks says whether numbers ran out, and what the row of the packets
  -- is made of says how many there are
  have hspent : Spent (pieces (taken deeds)) (yielded chunkSize deeds) r.failure := by
    simpa only [Allotted, hphase] using hallotted
  simp only [Standing, hphase] at hstanding
  obtain ⟨failure, deletion, rfl, hoffset, hsettled⟩ := hstanding
  rw [hcourse.keepsEntry.1] at hsettled
  obtain ⟨hkept, hskipped, hremoved⟩ := hsettled.deletion_iff
  have hpackets : t.packets = (pieces (taken deeds)).length + if failure = none then 0 else 1 :=
    haccount.packets.trans hrow.length_eq
  have hbytes : t.bytes = ((pieces (taken deeds)).map List.length).sum :=
    haccount.bytes.trans (length_content _)
  -- the state is that of the transfer, and the run has brought it to where it goes with the failure
  have hstate : t.state = if failure = none then .completed else .failed :=
    hcourse.state_eq rfl hphase
  have hfailed : t.state = .failed ↔ failure ≠ none := by
    rw [hstate]
    split <;> simp_all
  have hcompleted : t.state = .completed ↔ failure = none := by
    rw [hstate]
    split <;> simp_all
  exact {
    back := fun p back hp => hcourse.back (by simp [hphase]) hp
    numbers := haccount.numbers
    packets_le := by
      change t.packets ≤ _
      rw [hpackets]
      split <;> omega
    notice_last := by
      intro k p hk herror
      rw [hrow.notice_last hk herror]
      exact haccount.packets.symm
    state := by
      change t.state = .completed ∨ t.state = .failed
      rw [hfailed, hcompleted]
      exact Decidable.em _
    failed_iff_notice := hfailed.trans hrow.exists_notice_iff.symm
    failed_iff_failure := hfailed
    bytes := hbytes
    offset := by
      rintro offset (⟨e, he⟩ | he)
      · exact hoffset _ he
      · exact hoffset _ he
    opening := by
      rintro e he
      obtain rfl : failure = some (.opening e) := he
      obtain ⟨hnone, -⟩ := hspent
      constructor
      · change t.packets = 1
        rw [hpackets, hnone]
        rfl
      · change t.bytes = 0
        rw [hbytes, hnone]
        rfl
    notRequested_iff := hkept
    skipped_iff := hskipped.trans (and_congr_right fun _ => hfailed.symm)
    removal := fun h => hcompleted.mpr (hremoved h)
    chunks := ⟨hspent.eq_take hfew, fun chunk => ChunkReader.ne_nil_of_mem_chunks⟩
    exhausted_iff := hspent.exhausted_iff hfew
    exhausted := by
      intro offset hexhausted
      obtain rfl : failure = some (.sequenceExhausted offset) := hexhausted
      obtain ⟨hmany, -⟩ := hspent
      cases hrow with
      | @notice _ before notice hparts hbefore hnotice =>
        rw [hparts, pieces_concat_notice hnotice, length_pieces hbefore] at hmany
        have hlast : (taken deeds)[before.length]? = some notice := by
          rw [hparts, List.getElem?_concat_length]
        have hnumber := (haccount.numbered _ _ hlast).1
        rw [hmany] at hnumber
        exact ⟨before, notice, hparts, hmany, hbefore, hnotice, UInt32.toNat_inj.mp hnumber⟩ }

/-- A byte is read, and then reading fails: there are two packets, and one byte was carried. -/
theorem report_coherent_broken :
    let entry : Entry := ⟨Id.ecu1, Id.ft, "/f", true⟩
    let s : Script := [.data [7], .data [], .failed (.refused "gone")]
    let r : Report :=
      ⟨Id.ecu1, Id.ft, "/f", .failed, 2, 1, some (.reading 1 (.refused "gone")), .skipped⟩
    ((fresh entry 1024).run Surroundings.scripted 6 s).1.report? = some r ∧
      Coherent entry 1024
        ((fresh entry 1024).run Surroundings.scripted.recorded 6 (s, [])).2.2 r := by
  intro entry s r
  have hreport : ((fresh entry 1024).run Surroundings.scripted 6 s).1.report? = some r := rfl
  exact ⟨hreport, report_coherent Surroundings.scripted entry 1024 6 s r hreport⟩

end Transfer

end LogCourier
