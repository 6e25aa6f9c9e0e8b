import LogCourier.Dlt.Argument
import LogCourier.Proofs.Bytes
import LogCourier.Proofs.Transfer.Supply
import LogCourier.Proofs.Transfer.Disk

/-!
# Every packet fits

No packet of a transfer is too long for a message, if chunks are not, names are not longer than
an entry allows, no reading gives more than it was asked for, and the system is brief about its
errors. For a piece of the file that is the size of a chunk (`LogCourier.Transfer.Portioned`). For
a notice it is a matter of adding up: the name has at most 4096 bytes, the text of the error at
most `LogCourier.Transfer.maxErrorLength`, and the words around them leave more than enough room
for a number of bytes. **How large that number may become** is the one thing to see: a transfer
that is not over has taken fewer packets than there are numbers, so it has handed on fewer than
`2 ^ 32` chunks.

Nothing is asked of the source but that: it may fail at any time, and what it gives need not be a
file. The main statements are `LogCourier.Transfer.Portioned.payload_le`, for one step, and
`LogCourier.Transfer.Course.payload_le`, for any number of them.
-/

namespace LogCourier

namespace Transfer

/-- The most bytes that the system needs to name an error. -/
def maxErrorLength : Nat := 60000

/-- An error that is named in a few bytes. -/
def IsBrief (e : IoError) : Prop :=
  (Bytes.ofText e.message).length ≤ maxErrorLength

/-- Deeds that met with no errors but such. -/
def Brief (deeds : List Deed) : Prop :=
  ∀ d ∈ deeds, ∀ e, d.error? = some e → IsBrief e

/-- Deeds that brought in no more than they asked for. -/
def Measured (deeds : List Deed) : Prop :=
  ∀ limit bs, .read limit (.data bs) ∈ deeds → bs.length ≤ limit

theorem Brief.of_append {deeds new : List Deed} (h : Brief (deeds ++ new)) : Brief deeds :=
  fun d hd => h d (List.mem_append_left new hd)

theorem Measured.of_append {deeds new : List Deed} (h : Measured (deeds ++ new)) :
    Measured deeds ∧ Measured new :=
  ⟨fun limit bs hmem => h limit bs (List.mem_append_left new hmem),
    fun limit bs hmem => h limit bs (List.mem_append_right deeds hmem)⟩

/-! ### Sources that give no more than they are asked for -/

/-- Surroundings with such a source. -/
def Surroundings.Measures {σ : Type} (around : Surroundings σ) : Prop :=
  ∀ limit s bs, (around.read limit s).1 = .data bs → bs.length ≤ limit

/-- **A run in such surroundings brings in no more than it asks for.** -/
theorem Surroundings.Measures.run {σ : Type} {around : Surroundings σ} (h : around.Measures)
    (n : Nat) (t : Transfer) (s : σ) {written : List Deed} (hwritten : Measured written) :
    Measured (t.run around.recorded n (s, written)).2.2 := by
  have hone : ∀ s new s', Performs around s new s' →
      ∀ d ∈ new, ∀ limit bs, d = .read limit (.data bs) → bs.length ≤ limit := by
    rintro s new s' hperforms d hd limit bs rfl
    cases hperforms with
    | read asked =>
      obtain ⟨rfl, hanswer⟩ := Deed.read.inj (List.mem_singleton.mp hd)
      exact h limit s bs hanswer.symm
    | _ => exact absurd hd (by simp)
  intro limit bs hmem
  exact forall_deeds_run hone n t s
    (fun d hd limit bs hread => hwritten limit bs (hread ▸ hd)) _ hmem limit bs rfl

/-- Files give no more than they are asked for, on any disk. -/
theorem measures_site {ε : Type} (e : Emitter ε) : e.surroundings.Measures := by
  intro limit d bs hread
  simp only [Emitter.surroundings, Emitter.readSource] at hread
  split at hread
  · rename_i f _
    rcases d.disk.read_cases d.files limit f with ⟨error, hbroken⟩ | ⟨fewer, hle, hfile⟩
    · rw [hbroken] at hread
      exact absurd hread (by simp)
    · simp only [hfile, FileTree.read] at hread
      split at hread
      · exact absurd hread (by simp)
      · rw [← Reading.data.inj hread]
        exact Nat.le_trans (List.length_take_le _ _) hle
  · exact absurd hread (by simp)

theorem measures_scripted : Surroundings.scripted.Measures := by
  intro limit s bs hread
  match s with
  | [] =>
    rw [← Reading.data.inj hread]
    exact Nat.zero_le _
  | .data given :: rest =>
    simp only [Surroundings.scripted, Script.read] at hread
    split at hread
    · rw [← Reading.data.inj hread]
      assumption
    · rw [← Reading.data.inj hread]
      exact List.length_take_le _ _
  | .interrupted :: rest => exact absurd hread (by simp [Surroundings.scripted, Script.read])
  | .failed e :: rest => exact absurd hread (by simp [Surroundings.scripted, Script.read])

/-! ### Notices -/

/-- **The notice of a failure fits a packet.** -/
theorem Failure.length_notice_le {file : String} {failure : Failure}
    (hfile : (Bytes.ofText file).length ≤ Entry.maxNameLength)
    (hsource : ∀ e, failure.source? = some e → IsBrief e)
    (hoffset : failure.offset.repr.length ≤ 100) :
    (Bytes.ofText (failure.notice file)).length ≤ Packet.maxPayload := by
  have hmax : Packet.maxPayload = 65470 := rfl
  have hname : Entry.maxNameLength = 4096 := rfl
  have herror : maxErrorLength = 60000 := rfl
  cases failure with
  | opening e =>
    have hbrief : (Bytes.ofText e.message).length ≤ maxErrorLength := hsource e rfl
    have hnotice : Failure.notice file (.opening e) =
        "file transfer failed: " ++ ("cannot open " ++ file ++ ": " ++
          ("I/O error: " ++ e.message)) := rfl
    have hwords : (Bytes.ofText "file transfer failed: ").length = 22 ∧
        (Bytes.ofText "cannot open ").length = 12 ∧ (Bytes.ofText ": ").length = 2 ∧
        (Bytes.ofText "I/O error: ").length = 11 := ⟨rfl, rfl, rfl, rfl⟩
    rw [hnotice]
    simp only [Bytes.length_ofText_append]
    omega
  | reading offset e =>
    have hbrief : (Bytes.ofText e.message).length ≤ maxErrorLength := hsource e rfl
    have hdigits := Bytes.length_ofText_le offset.repr
    change offset.repr.length ≤ 100 at hoffset
    have hnotice : Failure.notice file (.reading offset e) =
        "file transfer of " ++ file ++ " aborted after " ++ offset.repr ++ " bytes: " ++
          ("I/O error: " ++ e.message) := rfl
    have hwords : (Bytes.ofText "file transfer of ").length = 17 ∧
        (Bytes.ofText " aborted after ").length = 15 ∧ (Bytes.ofText " bytes: ").length = 8 ∧
        (Bytes.ofText "I/O error: ").length = 11 := ⟨rfl, rfl, rfl, rfl⟩
    rw [hnotice]
    simp only [Bytes.length_ofText_append]
    omega
  | sequenceExhausted offset =>
    have hdigits := Bytes.length_ofText_le offset.repr
    change offset.repr.length ≤ 100 at hoffset
    have hnotice : Failure.notice file (.sequenceExhausted offset) =
        "file transfer of " ++ file ++ " aborted after " ++ offset.repr ++
          " bytes: too many packets" := rfl
    have hwords : (Bytes.ofText "file transfer of ").length = 17 ∧
        (Bytes.ofText " aborted after ").length = 15 ∧
        (Bytes.ofText " bytes: too many packets").length = 24 := ⟨rfl, rfl, rfl⟩
    rw [hnotice]
    simp only [Bytes.length_ofText_append]
    omega

/-! ### Pieces -/

/-- Packets of at most so many bytes each. -/
theorem length_content_le {ps : List Packet} {n : Nat}
    (h : ∀ p ∈ ps, p.content = .info → p.payload.length ≤ n) :
    (content ps).length ≤ ps.length * n := by
  induction ps with
  | nil => exact Nat.zero_le _
  | cons p ps ih =>
    have hrest := ih fun q hq => h q (List.mem_cons_of_mem p hq)
    rw [List.length_cons, Nat.succ_mul]
    change (content ([p] ++ ps)).length ≤ _
    rw [content_append, List.length_append]
    by_cases hinfo : p.content = .info
    · have hp := h p List.mem_cons_self hinfo
      have hone : content [p] = p.payload := by simp [content, hinfo]
      rw [hone]
      omega
    · have hnone : content [p] = [] := by simp [content, hinfo]
      rw [hnone, List.length_nil]
      omega

/-- **No piece is longer than a chunk**, neither those handed on nor the one that is about to
be. -/
structure Portioned (t : Transfer) (deeds : List Deed) : Prop where
  /-- The pieces handed on. -/
  pieces : ∀ p ∈ taken deeds, p.content = .info → p.payload.length ≤ t.reader.size
  /-- The next one. -/
  chunk : ∀ chunk, t.phase = .handing chunk → chunk.length ≤ t.reader.size

namespace Portioned

variable {t t' : Transfer} {deeds new : List Deed}

/-- A step that has no piece taken, and offers none that is too long. -/
theorem idle (h : Portioned t deeds) (hnew : ∀ p ∈ taken new, p.content ≠ .info)
    (hsize : t'.reader.size = t.reader.size)
    (hchunk : ∀ chunk, t'.phase = .handing chunk → chunk.length ≤ t.reader.size) :
    Portioned t' (deeds ++ new) where
  pieces := by
    intro p hp hinfo
    rw [taken_append, List.mem_append] at hp
    rw [hsize]
    rcases hp with hold | hlast
    · exact h.pieces p hold hinfo
    · exact absurd hinfo (hnew p hlast)
  chunk := by
    rw [hsize]
    exact hchunk

/-- A reading fills up a chunk, and no more than that. -/
theorem reading (h : Portioned t deeds) (hphase : t.phase = .reading)
    (hroom : t.reader.got.length < t.reader.size) {reading : Reading}
    (hmeasured : Measured [.read t.reader.wanted reading]) :
    Portioned (t.accept reading) (deeds ++ [.read t.reader.wanted reading]) := by
  have hnew : ∀ p ∈ taken [.read t.reader.wanted reading], p.content ≠ .info :=
    fun p hp => absurd hp (by simp [taken, Deed.packet?])
  rcases accept_cases t reading with ⟨-, haccept⟩ | ⟨e, -, haccept⟩ | ⟨-, -, haccept⟩ |
    ⟨bs, rfl, ⟨-, -, haccept⟩ | ⟨-, -, haccept⟩⟩ <;> rw [haccept]
  · exact h.idle hnew rfl fun _ hchunk => absurd hchunk (by simp [hphase])
  · exact h.idle hnew rfl fun _ hchunk => absurd hchunk (by simp [stumble])
  · exact h.idle hnew rfl fun _ hchunk => absurd hchunk (by simp)
  · exact h.idle hnew rfl fun _ hchunk => absurd hchunk (by simp [gather, hphase])
  · refine h.idle hnew rfl fun chunk hchunk => ?_
    -- what is offered is what was gathered, and what there was still room for
    have hlimit := hmeasured _ bs (List.mem_singleton.mpr rfl)
    rw [ChunkReader.wanted] at hlimit
    have hoffer : t.reader.got ++ bs = chunk := by
      simp only [offer, phaseAfter] at hchunk
      split at hchunk
      · exact absurd hchunk (by simp)
      · exact Phase.handing.inj hchunk
    rw [← hoffer, List.length_append]
    omega

/-- A chunk is taken. -/
theorem hand (h : Portioned t deeds) {chunk : Bytes} (hphase : t.phase = .handing chunk)
    (ticks : UInt32) :
    Portioned (t.handed chunk) (deeds ++ [.handed (t.packet .info chunk ticks) true]) where
  pieces := by
    intro p hp hinfo
    rw [taken_append, List.mem_append] at hp
    rcases hp with hold | hlast
    · exact h.pieces p hold hinfo
    · rw [show p = t.packet .info chunk ticks from List.mem_singleton.mp hlast]
      exact h.chunk chunk hphase
  chunk := fun _ hchunk => absurd hchunk (by simp [handed])

/-- **Every step keeps the pieces to the size of a chunk.** -/
theorem does (h : Portioned t deeds) (hstanding : Standing t deeds) {told : List Event}
    (hdoes : Does t new told t') (hmeasured : Measured new) : Portioned t' (deeds ++ new) := by
  have hnone {d : Deed} (hd : d.packet? = none) : ∀ p ∈ taken [d], p.content ≠ .info := by
    rw [taken_singleton, hd]
    exact fun p hp => absurd hp (by simp)
  cases hdoes with
  | reads hphase reading =>
    simp only [Standing, hphase] at hstanding
    exact h.reading hphase hstanding.2.2 hmeasured
  | hands hphase ticks => exact h.hand hphase ticks
  | notifies hphase ticks =>
    refine h.idle ?_ rfl fun _ hchunk => absurd hchunk (by simp [failed])
    intro p hp
    rw [show p = _ from List.mem_singleton.mp hp]
    simp [packet]
  | keeps hphase unwanted =>
    exact h.idle (fun p hp => absurd hp (by simp)) rfl
      fun _ hchunk => absurd hchunk (by simp [completed])
  | rests hover =>
    rw [List.append_nil]
    exact h
  | removes hphase wanted answer =>
    exact h.idle (hnone rfl) rfl fun _ hchunk => absurd hchunk (by simp [completed])
  | _ => exact h.idle (hnone rfl) rfl fun _ hchunk => absurd hchunk (by simp)

/-- A transfer that is not over has handed on less than its numbers allow. -/
theorem bytes_le (h : Portioned t deeds) (haccount : Account t deeds)
    (hlive : t.isOver = false) : t.bytes ≤ 4294967295 * t.reader.size := by
  have hcontent := length_content_le h.pieces
  rw [← haccount.bytes, ← haccount.packets] at hcontent
  -- the next number is the number of packets, so there are fewer than numbers
  have hpackets : t.packets ≤ 4294967295 := by
    rw [← haccount.sequence hlive]
    exact Nat.le_of_lt_succ t.sequence.toNat_lt
  exact Nat.le_trans hcontent (Nat.mul_le_mul_right _ hpackets)

/-- **Every packet that a transfer hands over fits a message.** -/
theorem payload_le (h : Portioned t deeds) (haccount : Account t deeds)
    (hstanding : Standing t deeds)
    (hname : (Bytes.ofText t.entry.fileName).length ≤ Entry.maxNameLength)
    (hsize : t.reader.size ≤ Packet.maxPayload) (hbrief : Brief deeds) {told : List Event}
    (hdoes : Does t new told t') {p : Packet} {back : Bool} (hp : .handed p back ∈ new) :
    p.payload.length ≤ Packet.maxPayload := by
  rcases hdoes.handed_cases hp with ⟨chunk, ticks, hphase, rfl⟩ | ⟨failure, ticks, hphase, rfl⟩
  · exact Nat.le_trans (h.chunk chunk hphase) hsize
  -- what a notice says of errors and bytes has been met with and counted
  · simp only [Standing, hphase] at hstanding
    obtain ⟨-, hoffset, hcause⟩ := hstanding
    refine failure.length_notice_le hname ?_ ?_
    · intro e he
      obtain ⟨d, hd, herror⟩ := hcause e he
      exact hbrief d hd e herror
    · have hbytes := h.bytes_le haccount (by simp [isOver, hphase])
      rw [hoffset, Nat.length_repr_le_iff (by decide)]
      refine Nat.lt_of_le_of_lt (Nat.le_trans hbytes (Nat.mul_le_mul_left _ hsize)) ?_
      decide

end Portioned

/-! ### Runs -/

namespace Course

variable {entry : Entry} {chunkSize : Nat} {t : Transfer} {deeds : List Deed}

theorem portioned (h : Course (fresh entry chunkSize) deeds t) (hmeasured : Measured deeds) :
    Portioned t deeds := by
  induction h with
  | start =>
    exact ⟨fun p hp => absurd hp (by simp), fun chunk hchunk => absurd hchunk (by simp [fresh])⟩
  | step hcourse hdoes ih =>
    obtain ⟨hbefore, hnew⟩ := hmeasured.of_append
    exact (ih hbefore).does hcourse.sound_fresh.2 hdoes hnew

/-- **Every packet that a transfer ever hands over fits a message**, be it taken or not. -/
theorem payload_le (h : Course (fresh entry chunkSize) deeds t)
    (hname : (Bytes.ofText entry.fileName).length ≤ Entry.maxNameLength)
    (hsize : ChunkReader.sizeFor chunkSize ≤ Packet.maxPayload) (hmeasured : Measured deeds)
    (hbrief : Brief deeds) {p : Packet} {back : Bool} (hp : .handed p back ∈ deeds) :
    p.payload.length ≤ Packet.maxPayload := by
  induction h with
  | start => exact absurd hp (by simp)
  | step hcourse hdoes ih =>
    obtain ⟨hbefore, -⟩ := hmeasured.of_append
    rcases List.mem_append.mp hp with hold | hlast
    · exact ih hbefore hbrief.of_append hold
    · obtain ⟨haccount, hstanding⟩ := hcourse.sound_fresh
      obtain ⟨hentry, hreader⟩ := hcourse.keepsEntry
      exact (hcourse.portioned hbefore).payload_le haccount hstanding (hentry ▸ hname)
        (hreader ▸ hsize) hbrief.of_append hdoes hlast

end Course

/-- What is cut from a file is cut into pieces that are no longer than a chunk. -/
theorem Faithful.portioned {file left : Bytes} {t : Transfer} {deeds : List Deed}
    (h : Faithful file t deeds left) : Portioned t deeds where
  pieces := by
    intro p hp hinfo
    obtain ⟨k, hk⟩ := List.mem_iff_getElem?.mp hp
    rw [(h.streamed.pieces k p hk hinfo).2]
    exact List.length_take_le _ _
  chunk := by
    intro chunk hphase
    have hcut := h.streamed.cut
    simp only [Cut, hphase] at hcut
    exact hcut.2.2.1

end Transfer

end LogCourier
