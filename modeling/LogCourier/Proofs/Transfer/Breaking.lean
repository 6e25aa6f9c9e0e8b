import LogCourier.FileTree
import LogCourier.Proofs.Transfer.Streaming

/-!
# When a source breaks off

A source may give some of its bytes and then an error, for good. The transfer fails then, and what
it has handed over by that time does not depend on when exactly the error came: **the full chunks,
and nothing else of the file**. The bytes that were gathered for the next chunk are given up, be
there none or nearly enough, and one more packet says how far the transfer came. All that is said
of this – in the notice, in the failure and in the count of bytes – is the place where the last full
chunk ends.

How a run comes to that point is the matter of `LogCourier.Transfer.exists_run_leaves`. Two things
are left to be seen.

* **The notice is taken, and nothing comes after it** (`LogCourier.Transfer.exists_notice`). Its
  number is that of the next chunk, even if that is the last number of all.
* **Nothing is removed.** What only a removal can change stays as it was
  (`LogCourier.Transfer.Surroundings.Spares`); at a site these are the files
  (`LogCourier.Emitter.spares_files`).

The main statement is `LogCourier.Transfer.breaking_exact`.
-/

namespace LogCourier.Transfer

variable {σ : Type}

/-! ### The last packet -/

/-- The packet, without its time, which says that a file was broken off at a place where so many
chunks had been handed on. -/
def breakAt (entry : Entry) (size k : Nat) (e : IoError) : Packet where
  payload := Bytes.ofText ("file transfer of " ++ entry.fileName ++ " aborted after " ++
    toString (k * size) ++ " bytes: I/O error: " ++ e.message)
  content := .error
  appid := entry.appid
  ctxid := entry.ctxid
  sequence := UInt32.ofNat k
  timestamp := 0

section Steps

variable {around : Surroundings σ} {left : σ → Bytes} {ending : Option IoError} {t : Transfer}
  {s : σ} {deeds : List Deed}

/-- **A step in the phase `notifying`**: the transfer is over. -/
theorem exists_notice (hdelivers : Delivers around left ending) {failure : Failure}
    (hphase : t.phase = .notifying failure) (s : σ) (deeds : List Deed) :
    ∃ s' ticks, t.step around.recorded (s, deeds) = (t.failed failure, s', deeds ++
      [.handed (t.packet .error (Bytes.ofText (failure.notice t.entry.fileName)) ticks) true]) := by
  have hback := hdelivers.takes
    (t.packet .error (Bytes.ofText (failure.notice t.entry.fileName)) (around.ticks s)) s
  rcases htake : around.take
    (t.packet .error (Bytes.ofText (failure.notice t.entry.fileName)) (around.ticks s)) s
    with ⟨back, s'⟩
  rw [htake] at hback
  obtain rfl : back = true := hback
  refine ⟨around.tell ((t.failed failure).failedEvent failure) s', around.ticks s, ?_⟩
  simp only [step, hphase, Surroundings.recorded, htake]

/-- The notice that a source broke off has the next number, and names the end of the last full
chunk. -/
theorem untimed_break {e : IoError} (haccount : Account t deeds) (hlive : t.isOver = false)
    (hbytes : t.bytes = t.packets * t.reader.size) (ticks : UInt32) :
    (t.packet .error (Bytes.ofText ((Failure.reading t.bytes e).notice t.entry.fileName))
      ticks).untimed = breakAt t.entry t.reader.size t.packets e := by
  have hsequence := congrArg UInt32.ofNat (haccount.sequence hlive)
  rw [UInt32.ofNat_toNat] at hsequence
  simp only [Packet.untimed, packet, breakAt, Packet.mk.injEq]
  refine ⟨?_, trivial, trivial, trivial, hsequence, trivial⟩
  have hnotice : Failure.notice t.entry.fileName (.reading t.bytes e) =
      "file transfer of " ++ t.entry.fileName ++ " aborted after " ++ toString t.bytes ++
        " bytes: " ++ ("I/O error: " ++ e.message) := rfl
  have hwords : " bytes: " ++ "I/O error: " = " bytes: I/O error: " := by decide
  rw [hnotice, hbytes, ← hwords]
  simp only [String.append_assoc]

/-- Where every packet is taken, none is recorded that was not. -/
theorem Delivers.handed_false_not_mem (hdelivers : Delivers around left ending) (n : Nat)
    (t : Transfer) (s : σ) (p : Packet) :
    .handed p false ∉ (t.run around.recorded n (s, [])).2.2 := by
  have hone : ∀ s new s', Performs around s new s' → ∀ d ∈ new, d ≠ .handed p false := by
    rintro s new s' hperforms d hd rfl
    cases hperforms with
    | handed q =>
      obtain ⟨-, hback⟩ := Deed.handed.inj (List.mem_singleton.mp hd)
      exact absurd (hback.trans (hdelivers.takes q s)) (by simp)
    | _ => exact absurd hd (by simp)
  exact fun hmem => forall_deeds_run hone n t s (fun d hd => absurd hd (by simp)) _ hmem rfl

/-- **A transfer that has just opened its file** has all of it before it. -/
theorem exists_opened {entry : Entry} {chunkSize : Nat} {s₀ : σ}
    (hopens : (fresh entry chunkSize).step around s₀ = (opened entry chunkSize, s))
    (file : Bytes) :
    ∃ deeds, (∀ n, (fresh entry chunkSize).run around.recorded (n + 1) (s₀, []) =
        (opened entry chunkSize).run around.recorded n (s, deeds)) ∧
      Faithful file (opened entry chunkSize) deeds file := by
  obtain ⟨new, told, s', hdoes, -, -, hrecord⟩ := exists_does around (fresh entry chunkSize) s₀
  rw [hopens] at hdoes hrecord
  have hapart : ∀ limit reading, .read limit reading ∉ new := by
    intro limit reading hmem
    generalize opened entry chunkSize = t at hdoes
    cases hdoes with
    | reads hphase => exact absurd hphase (by simp [fresh])
    | _ => exact absurd hmem (by simp)
  refine ⟨new, fun n => ?_, (Faithful.begin file entry chunkSize).does hdoes
    (@Draws.others none _ _ hapart)⟩
  have hstep := hrecord []
  rw [List.nil_append] at hstep
  have hlive : (fresh entry chunkSize).isOver = false := rfl
  simp only [run, hlive, Bool.false_eq_true, if_false, hstep]

end Steps

/-! ### The whole transfer -/

/-- A full piece of a file has as many bytes as a chunk. -/
theorem pieceAt_full (entry : Entry) {size k : Nat} {file : Bytes} (hsize : 0 < size)
    (hk : k < file.length / size) :
    (pieceAt entry size file k).payload = (file.drop (k * size)).take size ∧
      (pieceAt entry size file k).payload.length = size := by
  have hpayload : (pieceAt entry size file k).payload = (file.drop (k * size)).take size :=
    extract_piece file k size
  have hend := (Nat.le_div_iff_mul_le hsize).mp (Nat.succ_le_of_lt hk)
  rw [Nat.succ_mul] at hend
  refine ⟨hpayload, ?_⟩
  rw [hpayload, List.length_take, List.length_drop]
  omega

/-- **A run to where the source breaks off, and one step more**: what was handed over before the
notice, and what the notice is. -/
theorem exists_run_broken {around : Surroundings σ} {left : σ → Bytes} {e : IoError}
    (hdelivers : Delivers around left (some e)) (entry : Entry) (chunkSize : Nat) {s₀ s : σ}
    (hopens : (fresh entry chunkSize).step around s₀ = (opened entry chunkSize, s))
    (hfew : (left s).length / ChunkReader.sizeFor chunkSize ≤ 4294967295) :
    let size := ChunkReader.sizeFor chunkSize
    let full := (left s).length / size
    ∃ (n : Nat) (t : Transfer) (s' : σ) (deeds : List Deed) (notice : Packet),
      (fresh entry chunkSize).run around.recorded n (s₀, []) =
        (t.failed (.reading t.bytes e), s', deeds ++ [.handed notice true]) ∧
      t.entry = entry ∧ t.packets = full ∧ t.bytes = full * size ∧ Unfinished deeds ∧
      (taken deeds).map Packet.untimed = (List.range full).map (pieceAt entry size (left s)) ∧
      content (taken deeds) = (left s).take (full * size) ∧
      notice.untimed = breakAt entry size full e := by
  intro size full
  obtain ⟨opening, hfirst, hbegin⟩ := exists_opened hopens (left s)
  obtain ⟨n, t, s₁, deeds, hrun, hleaves, hentry, hsize, hfaithful⟩ :=
    exists_run_leaves hdelivers hbegin (whole_begin _ _ entry chunkSize) hfew rfl
  cases hleaves with
  | completes hending => exact absurd hending (by simp)
  | breaks hending hphase hcount hbytes =>
    obtain rfl := Option.some.inj hending
    change t.entry = entry at hentry
    change t.reader.size = size at hsize
    obtain ⟨s', ticks, hnotice⟩ := exists_notice hdelivers hphase s₁ deeds
    have hlast : (fresh entry chunkSize).run around.recorded (n + 1 + 1) (s₀, []) = _ :=
      (run_succ _ _ _ _).trans (by rw [hfirst, hrun, hnotice])
    obtain ⟨hunfinished, -, -⟩ : Unfinished deeds ∧ _ := by
      simpa only [Standing, hphase] using hfaithful.standing
    have hbreak := untimed_break (e := e) hfaithful.account (by simp [isOver, hphase]) hbytes ticks
    have hpieces := hfaithful.untimed_taken hunfinished.pieces
    have htake := hfaithful.content_eq_take
    rw [hsize] at hcount hbytes
    rw [hentry, hsize, hcount] at hpieces
    rw [hsize, hcount, congrArg (breakAt · size full e) hentry] at hbreak
    rw [hcount] at hbytes
    rw [hbytes] at htake
    exact ⟨_, t, s', deeds, _, hlast, hentry, hcount, hbytes, hunfinished, hpieces, htake, hbreak⟩

/-- **A file that breaks off is handed over as far as it has full chunks.**

Let a transfer have opened its file, let the source deliver some bytes, in whatever pieces and with
whatever interruptions, and then an error, and let there be a number for each full chunk besides the
last number. Then the transfer comes to an end and has failed, and every packet that it handed over
was taken. But for their times, these are the full pieces of the file in their order, each with its
place for a number, and then one notice, which has the next number and says where the last full
piece ends and what the error was. No other byte of the file was handed over. The report counts
them and tells of the same place and the same error. No file was removed, so whatever only a
removal changes is as it was, the files among it. -/
theorem breaking_exact {around : Surroundings σ} {left : σ → Bytes} {e : IoError}
    (hdelivers : Delivers around left (some e)) (entry : Entry) (chunkSize : Nat) {s₀ s : σ}
    (hopens : (fresh entry chunkSize).step around s₀ = (opened entry chunkSize, s))
    (hfew : (left s).length / ChunkReader.sizeFor chunkSize ≤ 4294967295) :
    let size := ChunkReader.sizeFor chunkSize
    let full := (left s).length / size
    ∃ n t s' deeds r,
      (fresh entry chunkSize).run around.recorded n (s₀, []) = (t, s', deeds) ∧
      t.report? = some r ∧ r.state = .failed ∧ r.failure = some (.reading (full * size) e) ∧
      r.packets = full + 1 ∧ r.bytes = full * size ∧
      r.deletion = (if entry.deleteFile then .skipped else .notRequested) ∧
      (∀ p, .handed p false ∉ deeds) ∧
      (taken deeds).map Packet.untimed =
        (List.range full).map (pieceAt entry size (left s)) ++ [breakAt entry size full e] ∧
      (∀ k < full,
        (pieceAt entry size (left s) k).payload = ((left s).drop (k * size)).take size ∧
        (pieceAt entry size (left s) k).payload.length = size ∧
        (pieceAt entry size (left s) k).sequence.toNat = k) ∧
      (breakAt entry size full e).sequence.toNat = full ∧
      content (taken deeds) = (left s).take (full * size) ∧
      (∀ d ∈ deeds, d.isRemoval = false) ∧
      ∀ files : σ → FileTree, around.Spares files → files s' = files s₀ := by
  intro size full
  obtain ⟨n, t, s', deeds, notice, hrun, hentry, hcount, hbytes, hunfinished, hpieces, htake,
    hbreak⟩ := exists_run_broken hdelivers entry chunkSize hopens hfew
  have hnumber {k : Nat} (hk : k ≤ full) : (UInt32.ofNat k).toNat = k := by
    rw [UInt32.toNat_ofNat']
    change full ≤ 4294967295 at hfew
    omega
  have hkept : ∀ d ∈ deeds ++ [.handed notice true], d.isRemoval = false := by
    intro d hd
    rcases List.mem_append.mp hd with hbefore | hnow
    · exact hunfinished.kept d hbefore
    · rw [List.mem_singleton.mp hnow]
      rfl
  refine ⟨n, _, s', _, _, hrun, rfl, rfl, ?_, ?_, hbytes, ?_, ?_, ?_, ?_,
    hnumber (Nat.le_refl _), ?_, hkept, ?_⟩
  · exact congrArg (fun offset => some (Failure.reading offset e)) hbytes
  · exact congrArg (· + 1) hcount
  · rw [← hentry]
    rfl
  · intro p
    have hnone := hdelivers.handed_false_not_mem n (fresh entry chunkSize) s₀ p
    rwa [hrun] at hnone
  · rw [taken_append, List.map_append, hpieces, ← hbreak]
    rfl
  · intro k hk
    obtain ⟨hpayload, hlength⟩ := pieceAt_full entry (ChunkReader.fresh chunkSize).size_pos hk
    exact ⟨hpayload, hlength, hnumber (Nat.le_of_lt hk)⟩
  -- the notice is no piece of the file
  · have hcontent : notice.content = .error := congrArg Packet.content hbreak
    have hnone : content [notice] = [] := by simp [content, hcontent]
    rw [taken_append, content_append, htake]
    change _ ++ content [notice] = _
    rw [hnone, List.append_nil]
  · intro files hspares
    have hsame := hspares.run n (fresh entry chunkSize) s₀ []
    rw [hrun] at hsame
    exact hsame hkept

/-! ### A source that trickles and breaks off -/

namespace Trickle

/-- Surroundings with a source that trickles until it breaks off, and with some files. -/
def breaking (e : IoError) : Surroundings (Trickle × FileTree) where
  openSource _ _ s := (.opened, s)
  read _ s :=
    match s with
    | ([], files) => (.failed e, [], files)
    | (none :: rest, files) => (.interrupted, rest, files)
    | (some b :: rest, files) => (.data [b], rest, files)
  ticks _ := 0
  take _ s := (true, s)
  remove name s :=
    match s.2.removeFile name with
    | .ok files => (.ok (), s.1, files)
    | .error refusal => (.error refusal, s)
  tell _ s := s

theorem delivers_breaking (e : IoError) :
    Delivers (breaking e) (fun s => s.1.left) (some e) where
  reads := by
    intro limit s hlimit
    match s with
    | ([], files) => exact .failed rfl
    | (none :: rest, files) => exact .interrupted
    | (some b :: rest, files) => exact .bytes (List.cons_ne_nil b []) hlimit
  patient := by
    refine Subrelation.wf ?_ (measure fun s : Trickle × FileTree => s.1.length).wf
    rintro s' s ⟨limit, -, hread⟩
    match s with
    | ([], files) => exact absurd hread (by simp [breaking])
    | (none :: rest, files) =>
      obtain rfl : (rest, files) = s' := congrArg Prod.snd hread
      exact Nat.lt_succ_self _
    | (some b :: rest, files) => exact absurd hread (by simp [breaking])
  takes := fun _ _ => rfl
  takesApart := fun _ _ => rfl

theorem spares_breaking (e : IoError) : (breaking e).Spares Prod.snd where
  opens := fun _ _ _ => rfl
  reads := by
    intro limit s
    match s with
    | ([], files) => rfl
    | (none :: rest, files) => rfl
    | (some b :: rest, files) => rfl
  takes := fun _ _ => rfl
  tells := fun _ _ => rfl

end Trickle

/-- Five bytes that trickle in before the device goes away make two packets of two bytes and a
notice, and the file is kept although it was to be removed. -/
theorem breaking_exact_trickle :
    let e : IoError := .refused "device went away"
    let entry : Entry := ⟨Id.ft, Id.ecu1, "/f", true⟩
    let files := FileTree.empty.insertFile ["f"] [7, 8, 9, 10, 11]
    let source : Trickle := [none, some 7, some 8, some 9, none, none, some 10, some 11, none]
    Delivers (Trickle.breaking e) (fun s => s.1.left) (some e) ∧
    (fresh entry 2).step (Trickle.breaking e) (source, files) =
      (opened entry 2, source, files) ∧
    source.left.length / ChunkReader.sizeFor 2 ≤ 4294967295 ∧
    ∃ n t s' deeds r,
      (fresh entry 2).run (Trickle.breaking e).recorded n ((source, files), []) = (t, s', deeds) ∧
      t.report? = some r ∧ r.state = .failed ∧ r.failure = some (.reading 4 e) ∧
      r.packets = 3 ∧ r.bytes = 4 ∧ r.deletion = .skipped ∧
      (taken deeds).map Packet.untimed =
        [⟨[7, 8], .info, Id.ft, Id.ecu1, 0, 0⟩, ⟨[9, 10], .info, Id.ft, Id.ecu1, 1, 0⟩,
          ⟨Bytes.ofText "file transfer of /f aborted after 4 bytes: I/O error: device went away",
            .error, Id.ft, Id.ecu1, 2, 0⟩] ∧
      s'.2 = files := by
  intro e entry files source
  have hopens : (fresh entry 2).step (Trickle.breaking e) (source, files) =
      (opened entry 2, source, files) := rfl
  have hfew : source.left.length / ChunkReader.sizeFor 2 ≤ 4294967295 := by decide
  obtain ⟨n, t, s', deeds, r, hrun, hreport, hstate, hfailure, hpackets, hbytes, hdeletion, -,
    htaken, -, -, -, -, hspared⟩ :=
    breaking_exact (Trickle.delivers_breaking e) entry 2 hopens hfew
  have hfull : List.length (source, files).1.left / ChunkReader.sizeFor 2 = 2 := by decide
  rw [hfull] at hfailure hpackets hbytes htaken
  have hexpected : (List.range 2).map (pieceAt entry (ChunkReader.sizeFor 2) source.left) ++
      [breakAt entry (ChunkReader.sizeFor 2) 2 e] =
        [⟨[7, 8], .info, Id.ft, Id.ecu1, 0, 0⟩, ⟨[9, 10], .info, Id.ft, Id.ecu1, 1, 0⟩,
          ⟨Bytes.ofText "file transfer of /f aborted after 4 bytes: I/O error: device went away",
            .error, Id.ft, Id.ecu1, 2, 0⟩] := rfl
  exact ⟨Trickle.delivers_breaking e, hopens, hfew, n, t, s', deeds, r, hrun, hreport, hstate,
    hfailure, hpackets, hbytes, hdeletion, htaken.trans hexpected,
    hspared Prod.snd (Trickle.spares_breaking e)⟩

end LogCourier.Transfer
