import LogCourier.Proofs.Lists
import LogCourier.Proofs.Transfer.Course

/-!
# What a transfer has counted

A transfer keeps counters: packets taken, bytes handed on, the number of the next
packet. Its deeds say what these should be. This file proves that they agree,
whatever the surroundings answer, and says in which phase which bytes are under way.

The invariant has three parts.

* `LogCourier.Transfer.Account` holds in every phase: the packets taken are numbered
  from zero and carry the transfer's identifiers, and the counters count them.
* `LogCourier.Transfer.Standing` depends on the phase. As long as all is well
  (`LogCourier.Transfer.Smooth`), **every byte read has been handed on or is under
  way**: gathered by the chunk reader, or in the chunk that is about to be handed
  over. The phase `closing` follows a reading of no bytes that asked for a whole
  chunk. Once something went wrong, the bytes handed on are the first ones read.

Both are kept by every step, one lemma for each phase, and so by every course
(`LogCourier.Transfer.Course.sound`).
-/

namespace LogCourier

namespace Transfer

/-! ### What a step leaves alone -/

@[simp] theorem go_phase (t : Transfer) (phase : Phase) : (t.go phase).phase = phase := rfl

@[simp] theorem countPacket_packets (t : Transfer) : t.countPacket.packets = t.packets + 1 := rfl

/-- There is a report when a transfer is over, and only then. -/
theorem report?_eq_some_iff {t : Transfer} {r : Report} :
    t.report? = some r ↔ t.phase = .over r := by
  rw [report?]
  cases t.phase <;> simp

/-- Before the last number, counting a packet is counting. -/
theorem toNat_countPacket_sequence {t : Transfer} (h : t.sequence ≠ lastSequence) :
    t.countPacket.sequence.toNat = t.sequence.toNat + 1 := by
  -- below the last number nothing wraps around
  have hlt : t.sequence.toNat < 4294967295 := by
    have hne : t.sequence.toNat ≠ lastSequence.toNat := fun hcon => h (UInt32.toNat_inj.mp hcon)
    have hle := t.sequence.toNat_lt
    simp only [lastSequence, UInt32.reduceToNat] at hne
    omega
  simp only [countPacket, if_neg h, UInt32.toNat_add]
  have hone : (1 : UInt32).toNat = 1 := rfl
  omega

/-! ### What a reading makes of a transfer -/

/-- The transfer when its reader has filled a chunk. -/
def offer (t : Transfer) (chunk : Bytes) : Transfer :=
  { t with
    reader := { t.reader with got := [], offset := t.reader.offset + chunk.length }
    phase := t.phaseAfter (.chunk chunk) }

/-- The transfer when its reader has gathered so much. -/
def gather (t : Transfer) (got : Bytes) : Transfer :=
  { t with reader := { t.reader with got } }

/-- The transfer when its reader has failed. -/
def stumble (t : Transfer) (e : IoError) : Transfer :=
  { t with reader := { t.reader with got := [] }, phase := .notifying (.reading t.bytes e) }

theorem accept_interrupted (t : Transfer) : t.accept .interrupted = t := rfl

theorem accept_failed (t : Transfer) (e : IoError) : t.accept (.failed e) = t.stumble e := rfl

theorem accept_end {t : Transfer} (h : t.reader.got = []) :
    t.accept (.data []) = t.go .closing := by
  simp [accept, ChunkReader.feed, ChunkReader.giveOut, h, go, phaseAfter]

/-- A reading of no bytes within a chunk ends the chunk. -/
theorem accept_short {t : Transfer} (h : t.reader.got ≠ []) :
    t.accept (.data []) = t.offer t.reader.got := by
  simp [accept, ChunkReader.feed, ChunkReader.giveOut, h, offer]

/-- Some bytes are gathered, and make a chunk if they are enough. -/
theorem accept_bytes (t : Transfer) {bs : Bytes} (h : bs ≠ []) :
    t.accept (.data bs) = if (t.reader.got ++ bs).length < t.reader.size
      then t.gather (t.reader.got ++ bs) else t.offer (t.reader.got ++ bs) := by
  by_cases hlt : (t.reader.got ++ bs).length < t.reader.size
  · rw [if_pos hlt]
    rw [List.length_append] at hlt
    simp [accept, ChunkReader.feed, h, hlt, gather]
  · rw [if_neg hlt]
    rw [List.length_append] at hlt
    simp [accept, ChunkReader.feed, ChunkReader.giveOut, h, hlt, offer]

/-- **What a reading can make of a transfer**: nothing, the end of the file, a
failure, more bytes gathered, or a chunk. -/
theorem accept_cases (t : Transfer) (reading : Reading) :
    (reading = .interrupted ∧ t.accept reading = t) ∨
    (∃ e, reading = .failed e ∧ t.accept reading = t.stumble e) ∨
    (reading = .data [] ∧ t.reader.got = [] ∧ t.accept reading = t.go .closing) ∨
    ∃ bs, reading = .data bs ∧
      ((bs ≠ [] ∧ (t.reader.got ++ bs).length < t.reader.size ∧
          t.accept reading = t.gather (t.reader.got ++ bs)) ∨
        (t.reader.got ++ bs ≠ [] ∧ (bs = [] ∨ t.reader.size ≤ (t.reader.got ++ bs).length) ∧
          t.accept reading = t.offer (t.reader.got ++ bs))) := by
  cases reading with
  | interrupted => exact Or.inl ⟨rfl, accept_interrupted t⟩
  | failed e => exact Or.inr (Or.inl ⟨e, rfl, accept_failed t e⟩)
  | data bs =>
    by_cases hbs : bs = []
    · subst hbs
      by_cases hgot : t.reader.got = []
      · exact Or.inr (Or.inr (Or.inl ⟨rfl, hgot, accept_end hgot⟩))
      · refine Or.inr (Or.inr (Or.inr ⟨[], rfl, Or.inr ⟨by simpa using hgot, Or.inl rfl, ?_⟩⟩))
        rw [accept_short hgot, List.append_nil]
    · refine Or.inr (Or.inr (Or.inr ⟨bs, rfl, ?_⟩))
      rw [accept_bytes t hbs]
      by_cases hlt : (t.reader.got ++ bs).length < t.reader.size
      · exact Or.inl ⟨hbs, hlt, if_pos hlt⟩
      · exact Or.inr ⟨by simp [hbs], Or.inr (by omega), if_neg hlt⟩

/-! ### The counters -/

/-- Packets that are numbered from zero and carry the identifiers of an entry. -/
def Numbered (entry : Entry) (ps : List Packet) : Prop :=
  ∀ (k : Nat) (p : Packet), ps[k]? = some p →
    p.sequence.toNat = k ∧ p.appid = entry.appid ∧ p.ctxid = entry.ctxid

/-- One more packet, with the next number. -/
theorem Numbered.concat {entry : Entry} {ps : List Packet} {p : Packet} (h : Numbered entry ps)
    (hseq : p.sequence.toNat = ps.length) (happ : p.appid = entry.appid)
    (hctx : p.ctxid = entry.ctxid) : Numbered entry (ps ++ [p]) :=
  forall_getElem?_concat h ⟨hseq, happ, hctx⟩

/-- **The counters of a transfer agree with its deeds.** -/
structure Account (t : Transfer) (deeds : List Deed) : Prop where
  /-- The packets taken are counted. -/
  packets : t.packets = (taken deeds).length
  /-- Their bytes are counted, but for a notice. -/
  bytes : t.bytes = (content (taken deeds)).length
  /-- They have their numbers. -/
  numbered : Numbered t.entry (taken deeds)
  /-- The next number is the right one. -/
  sequence : t.isOver = false → t.sequence.toNat = t.packets
  /-- A chunk does not get the last number. -/
  spare : ∀ chunk, t.phase = .handing chunk → t.sequence ≠ lastSequence

namespace Account

variable {t t' : Transfer} {deeds new : List Deed}

/-- Nothing is counted before the first step. -/
theorem begin (h : t.phase = .opening) (hs : t.sequence = 0) (hp : t.packets = 0)
    (hb : t.bytes = 0) : Account t [] where
  packets := hp
  bytes := hb
  numbered := by
    intro k p hk
    exact absurd hk (by simp)
  sequence := by
    intro _
    rw [hs, hp]
    rfl
  spare := by
    intro chunk hchunk
    rw [h] at hchunk
    exact absurd hchunk (by simp)

/-- A step that has no packet taken leaves the counters alone. -/
theorem idle (h : Account t deeds) (hlive : t.isOver = false) (hnew : taken new = [])
    (hentry : t'.entry = t.entry) (hpackets : t'.packets = t.packets) (hbytes : t'.bytes = t.bytes)
    (hsequence : t'.sequence = t.sequence)
    (hspare : ∀ chunk, t'.phase = .handing chunk → t.sequence ≠ lastSequence) :
    Account t' (deeds ++ new) where
  packets := by rw [hpackets, taken_append, hnew, List.append_nil, h.packets]
  bytes := by rw [hbytes, taken_append, hnew, List.append_nil, h.bytes]
  numbered := by
    rw [hentry, taken_append, hnew, List.append_nil]
    exact h.numbered
  sequence := by
    intro _
    rw [hsequence, hpackets, h.sequence hlive]
  spare := by
    intro chunk hchunk
    rw [hsequence]
    exact hspare chunk hchunk

/-- A chunk that was taken is counted. -/
theorem hand (h : Account t deeds) {chunk : Bytes} (hphase : t.phase = .handing chunk)
    (ticks : UInt32) :
    Account (t.handed chunk) (deeds ++ [.handed (t.packet .info chunk ticks) true]) := by
  have hlive : t.isOver = false := by simp [isOver, hphase]
  have hnew : taken [.handed (t.packet .info chunk ticks) true] = [t.packet .info chunk ticks] :=
    rfl
  refine ⟨?_, ?_, ?_, ?_, ?_⟩
  · rw [taken_append, hnew, List.length_append, ← h.packets]
    rfl
  · rw [taken_append, hnew, content_append, List.length_append, ← h.bytes]
    simp [content, packet, handed]
  · rw [taken_append, hnew]
    exact h.numbered.concat ((h.sequence hlive).trans h.packets) rfl rfl
  · intro _
    -- a chunk does not get the last number, so there is one after it
    change t.countPacket.sequence.toNat = t.packets + 1
    rw [toNat_countPacket_sequence (h.spare chunk hphase), h.sequence hlive]
  · intro chunk' hchunk'
    exact absurd hchunk' (by simp [handed])

/-- A notice that was taken is counted as a packet. -/
theorem notify (h : Account t deeds) (hlive : t.isOver = false) (failure : Failure)
    (payload : Bytes) (ticks : UInt32) :
    Account (t.failed failure) (deeds ++ [.handed (t.packet .error payload ticks) true]) := by
  have hnew : taken [.handed (t.packet .error payload ticks) true] =
      [t.packet .error payload ticks] := rfl
  refine ⟨?_, ?_, ?_, ?_, ?_⟩
  · rw [taken_append, hnew, List.length_append, ← h.packets]
    rfl
  · rw [taken_append, hnew, content_append, List.length_append, ← h.bytes]
    simp [content, packet, failed, go, enter, countPacket]
  · rw [taken_append, hnew]
    exact h.numbered.concat ((h.sequence hlive).trans h.packets) rfl rfl
  · intro hover
    exact absurd hover (by simp [isOver, failed])
  · intro chunk hchunk
    exact absurd hchunk (by simp [failed])

/-- A chunk that is filled is only handed on if there is a number for it. -/
theorem offer_spare {chunk got : Bytes} (h : (t.offer got).phase = .handing chunk) :
    t.sequence ≠ lastSequence := by
  intro hlast
  simp [offer, phaseAfter, hlast] at h

/-- A reading leaves the counters alone. -/
theorem read (h : Account t deeds) (hphase : t.phase = .reading) (limit : Nat)
    (reading : Reading) : Account (t.accept reading) (deeds ++ [.read limit reading]) := by
  have hlive : t.isOver = false := by simp [isOver, hphase]
  have hnew : taken [.read limit reading] = [] := rfl
  rcases accept_cases t reading with ⟨-, haccept⟩ | ⟨e, -, haccept⟩ | ⟨-, -, haccept⟩ |
    ⟨bs, -, ⟨-, -, haccept⟩ | ⟨-, -, haccept⟩⟩
  · rw [haccept]
    exact h.idle hlive hnew rfl rfl rfl rfl (h.spare ·)
  · rw [haccept]
    exact h.idle hlive hnew rfl rfl rfl rfl fun _ hchunk => absurd hchunk (by simp [stumble])
  · rw [haccept]
    exact h.idle hlive hnew rfl rfl rfl rfl fun _ hchunk => absurd hchunk (by simp)
  · rw [haccept]
    exact h.idle hlive hnew rfl rfl rfl rfl fun _ hchunk => absurd hchunk (by simp [gather, hphase])
  · rw [haccept]
    exact h.idle hlive hnew rfl rfl rfl rfl fun _ hchunk => offer_spare hchunk

/-- **Every step keeps the counters right.** -/
theorem does (h : Account t deeds) {told : List Event} (hdoes : Does t new told t') :
    Account t' (deeds ++ new) := by
  cases hdoes with
  | opens hphase =>
    exact h.idle (by simp [isOver, hphase]) rfl rfl rfl rfl rfl (by simp)
  | opensNot hphase e =>
    exact h.idle (by simp [isOver, hphase]) rfl rfl rfl rfl rfl (by simp)
  | lacksRoom hphase =>
    exact h.idle (by simp [isOver, hphase]) rfl rfl rfl rfl rfl (by simp)
  | reads hphase reading => exact h.read hphase _ reading
  | hands hphase ticks => exact h.hand hphase ticks
  | handsNot hphase ticks =>
    exact h.idle (by simp [isOver, hphase]) rfl rfl rfl rfl rfl (by simp)
  | notifies hphase ticks => exact h.notify (by simp [isOver, hphase]) _ _ ticks
  | notifiesNot hphase ticks =>
    exact h.idle (by simp [isOver, hphase]) rfl rfl rfl rfl rfl (by simp)
  | removes hphase wanted answer =>
    exact h.idle (by simp [isOver, hphase]) rfl rfl rfl rfl rfl (by simp [completed])
  | keeps hphase unwanted =>
    exact h.idle (by simp [isOver, hphase]) rfl rfl rfl rfl rfl (by simp [completed])
  | rests hover =>
    rw [List.append_nil]
    exact h

end Account

/-! ### Where the bytes are -/

/-- A deed with which nothing is wrong. Removing a file is not for the middle of a
transfer. -/
def Deed.IsSmooth : Deed → Prop
  | .opened _ _ answer => answer = .opened
  | .read _ answer => ∀ e, answer ≠ .failed e
  | .handed p back => p.content = .info ∧ back = true
  | .removed .. => False

/-- Deeds with which nothing is wrong. -/
def Smooth (deeds : List Deed) : Prop :=
  ∀ d ∈ deeds, d.IsSmooth

/-- **Everything of the file has been handed on**: nothing went wrong, the last deed
was to ask for a whole chunk and to get no bytes, and the bytes read are those of
the packets taken. -/
structure Finished (size : Nat) (deeds : List Deed) : Prop where
  /-- Nothing went wrong. -/
  smooth : Smooth deeds
  /-- The last reading says that there is no more. -/
  last : ∃ earlier, deeds = earlier ++ [.read size (.data [])]
  /-- Every byte read has been handed on. -/
  received : received deeds = content (taken deeds)

/-- **Some of the file may be missing**: no file was removed, only pieces of the file
were handed on, and these are the first bytes that were read. -/
structure Unfinished (deeds : List Deed) : Prop where
  /-- No file was removed. -/
  kept : ∀ d ∈ deeds, d.isRemoval = false
  /-- The packets taken are pieces of the file. -/
  pieces : ∀ p ∈ taken deeds, p.content = .info
  /-- They are the first bytes read. -/
  handedOn : content (taken deeds) <+: Transfer.received deeds

/-- **How a transfer ends**: with what failure, if any, and with what becoming of the
file. -/
inductive Settled (entry : Entry) (size : Nat) : List Deed → Option Failure → Deletion → Prop
  /-- It failed, and the last deed was to hand on a notice. -/
  | failed {deeds : List Deed} (h : Unfinished deeds) (failure : Failure) (notice : Packet)
      (hcontent : notice.content = .error)
      (hpayload : notice.payload = Bytes.ofText (failure.notice entry.fileName)) :
      Settled entry size (deeds ++ [.handed notice true]) failure
        (if entry.deleteFile then .skipped else .notRequested)
  /-- It is completed, and the last deed was to remove the file. -/
  | removed {deeds : List Deed} (h : Finished size deeds) (wanted : entry.deleteFile = true)
      (answer : Except IoError Unit) :
      Settled entry size (deeds ++ [.removed entry.fileName answer]) none (.ofRemoval answer)
  /-- It is completed, and the file is kept. -/
  | kept {deeds : List Deed} (h : Finished size deeds) (unwanted : entry.deleteFile = false) :
      Settled entry size deeds none .notRequested

/-- The bytes handed on when a failure came, as far as it says so. -/
def Failure.offset : Failure → Nat
  | .opening _ => 0
  | .reading offset _ | .sequenceExhausted offset => offset

/-- The error that a failure tells of. -/
def Failure.source? : Failure → Option IoError
  | .opening e | .reading _ e => some e
  | .sequenceExhausted _ => none

/-- **Where the bytes are**, phase by phase. -/
def Standing (t : Transfer) (deeds : List Deed) : Prop :=
  match t.phase with
  | .opening => deeds = [] ∧ t.reader.got = [] ∧ t.bytes = 0
  | .reading => Smooth deeds ∧ received deeds = content (taken deeds) ++ t.reader.got ∧
      t.reader.got.length < t.reader.size
  | .handing chunk =>
    Smooth deeds ∧ t.reader.got = [] ∧ received deeds = content (taken deeds) ++ chunk
  | .notifying failure => Unfinished deeds ∧ failure.offset = t.bytes ∧
      ∀ e, failure.source? = some e → ∃ d ∈ deeds, d.error? = some e
  | .closing => Finished t.reader.size deeds
  | .over r => ∃ failure deletion, r = t.reportWith failure deletion ∧
      (∀ f, failure = some f → f.offset = t.bytes) ∧
      Settled t.entry t.reader.size deeds failure deletion
  | .crashed => Unfinished deeds

theorem Smooth.concat {deeds : List Deed} {d : Deed} (h : Smooth deeds) (hd : d.IsSmooth) :
    Smooth (deeds ++ [d]) := by
  intro d' hd'
  rcases List.mem_append.mp hd' with hmem | hmem
  · exact h d' hmem
  · rw [List.mem_singleton.mp hmem]
    exact hd

/-- As long as nothing is wrong no file is removed. -/
theorem Smooth.kept {deeds : List Deed} (h : Smooth deeds) :
    ∀ d ∈ deeds, d.isRemoval = false := by
  intro d hd
  cases d with
  | removed name answer => exact absurd (h _ hd) (by simp [Deed.IsSmooth])
  | _ => rfl

/-- A packet taken was handed over. -/
theorem mem_taken {deeds : List Deed} {p : Packet} :
    p ∈ taken deeds ↔ .handed p true ∈ deeds := by
  constructor
  · intro hp
    obtain ⟨d, hd, hpacket⟩ := List.mem_filterMap.mp hp
    cases d with
    | handed q back =>
      cases back with
      | true =>
        rw [Deed.packet?, Option.some.injEq] at hpacket
        rwa [← hpacket]
      | false => exact absurd hpacket (by simp [Deed.packet?])
    | _ => exact absurd hpacket (by simp [Deed.packet?])
  · intro hp
    exact List.mem_filterMap.mpr ⟨_, hp, rfl⟩

/-- Where nothing was handed over nothing was taken. -/
theorem taken_eq_nil {deeds : List Deed} (h : ∀ p back, .handed p back ∉ deeds) :
    taken deeds = [] :=
  List.eq_nil_iff_forall_not_mem.mpr fun p hp => h p true (mem_taken.mp hp)

/-- As long as nothing is wrong the packets are pieces of the file. -/
theorem Smooth.pieces {deeds : List Deed} (h : Smooth deeds) :
    ∀ p ∈ taken deeds, p.content = .info := by
  intro p hp
  exact (h _ (mem_taken.mp hp)).1

/-- Deeds with which nothing is wrong, and then one that handed nothing over and
removed nothing. -/
theorem Smooth.unfinished {deeds : List Deed} (h : Smooth deeds) {rest : Bytes}
    (hreceived : received deeds = content (taken deeds) ++ rest) {d : Deed}
    (htaken : d.packet? = none) (hkept : d.isRemoval = false) : Unfinished (deeds ++ [d]) := by
  have hsame : taken (deeds ++ [d]) = taken deeds := taken_idle htaken deeds
  refine ⟨?_, ?_, ?_⟩
  · intro d' hd'
    rcases List.mem_append.mp hd' with hmem | hmem
    · exact h.kept d' hmem
    · rw [List.mem_singleton.mp hmem]
      exact hkept
  · rw [hsame]
    exact h.pieces
  · rw [hsame, received_append, hreceived, List.append_assoc]
    exact List.prefix_append _ _

/-- A packet that was not taken changes nothing. -/
theorem Unfinished.concat {deeds : List Deed} (h : Unfinished deeds) (p : Packet) :
    Unfinished (deeds ++ [.handed p false]) := by
  have hsame : taken (deeds ++ [.handed p false]) = taken deeds := taken_idle rfl deeds
  refine ⟨?_, ?_, ?_⟩
  · intro d hd
    rcases List.mem_append.mp hd with hmem | hmem
    · exact h.kept d hmem
    · rw [List.mem_singleton.mp hmem]
      rfl
  · rw [hsame]
    exact h.pieces
  · rw [hsame, received_append]
    exact h.handedOn.trans (List.prefix_append _ _)

/-! ### Every step knows where the bytes are -/

namespace Standing

variable {t t' : Transfer} {deeds new : List Deed}

/-- The file is open or not. -/
theorem opening (h : Standing t deeds) (hphase : t.phase = .opening) (answer : Opening)
    (hgo : t' = (t.enter .streaming).go .reading ∧ answer = .opened ∨
      (∃ e, t' = (t.enter .opening).go (.notifying (.opening e)) ∧ answer = .failed e) ∨
      t' = (t.enter .opening).go .crashed) :
    Standing t' (deeds ++ [.opened t.entry.fileName t.reader.size answer]) := by
  simp only [Standing, hphase] at h
  obtain ⟨rfl, hgot, hbytes⟩ := h
  have hunfinished : Unfinished ([] ++ [.opened t.entry.fileName t.reader.size answer]) :=
    @Smooth.unfinished [] (fun _ hd => absurd hd (by simp)) [] rfl _ rfl rfl
  rcases hgo with ⟨rfl, rfl⟩ | ⟨e, rfl, rfl⟩ | rfl
  · simp only [Standing, go_phase]
    have hreader : ((t.enter .streaming).go .reading).reader.got = [] := hgot
    rw [hreader]
    exact ⟨by simp [Smooth, Deed.IsSmooth], rfl, t.reader.size_pos⟩
  · simp only [Standing, go_phase]
    refine ⟨hunfinished, hbytes.symm, ?_⟩
    intro e' he'
    exact ⟨_, List.mem_append_right _ (List.mem_singleton.mpr rfl), he'⟩
  · simp only [Standing, go_phase]
    exact hunfinished

/-- A chunk is handed over, or there is no number for it. -/
theorem offer (h : Smooth deeds) {chunk : Bytes} {d : Deed} (hd : d.IsSmooth)
    (htaken : d.packet? = none)
    (hreceived : received deeds ++ d.received = content (taken deeds) ++ chunk) :
    Standing (t.offer chunk) (deeds ++ [d]) := by
  have hsame : taken (deeds ++ [d]) = taken deeds := taken_idle htaken deeds
  have hsmooth : Smooth (deeds ++ [d]) := h.concat hd
  have hall : received (deeds ++ [d]) = content (taken (deeds ++ [d])) ++ chunk := by
    rw [hsame, received_append, received_singleton, hreceived]
  by_cases hlast : t.sequence = lastSequence
  -- no number is left for the chunk, and it stays behind
  · have hphase : (t.offer chunk).phase = .notifying (.sequenceExhausted t.bytes) :=
      if_pos hlast
    simp only [Standing, hphase]
    refine ⟨⟨hsmooth.kept, hsmooth.pieces, ?_⟩, rfl,
      fun e he => absurd he (by simp [Failure.source?])⟩
    rw [hall]
    exact List.prefix_append _ _
  · have hphase : (t.offer chunk).phase = .handing chunk := if_neg hlast
    simp only [Standing, hphase]
    exact ⟨hsmooth, rfl, hall⟩

/-- A reading. -/
theorem reading (h : Standing t deeds) (hphase : t.phase = .reading) (reading : Reading) :
    Standing (t.accept reading) (deeds ++ [.read t.reader.wanted reading]) := by
  simp only [Standing, hphase] at h
  obtain ⟨hsmooth, hreceived, hroom⟩ := h
  have hsame : taken (deeds ++ [.read t.reader.wanted reading]) = taken deeds :=
    taken_idle rfl deeds
  rcases accept_cases t reading with ⟨rfl, haccept⟩ | ⟨e, rfl, haccept⟩ | ⟨rfl, hgot, haccept⟩ |
    ⟨bs, rfl, ⟨-, hless, haccept⟩ | ⟨-, -, haccept⟩⟩
  -- interrupted
  · rw [haccept]
    simp only [Standing, hphase]
    refine ⟨hsmooth.concat (by simp [Deed.IsSmooth]), ?_, hroom⟩
    rw [hsame, received_append, hreceived]
    exact List.append_nil _
  -- an error: what was gathered is given up, so some bytes read are in no packet
  · rw [haccept]
    refine ⟨hsmooth.unfinished hreceived rfl rfl, rfl, ?_⟩
    intro e' he'
    exact ⟨_, List.mem_append_right _ (List.mem_singleton.mpr rfl), he'⟩
  -- the end of the file: nothing was gathered, so a whole chunk was asked for
  · rw [haccept]
    simp only [Standing, go_phase]
    have hwanted : t.reader.wanted = t.reader.size := by simp [ChunkReader.wanted, hgot]
    refine ⟨hsmooth.concat (by simp [Deed.IsSmooth]), ⟨deeds, ?_⟩, ?_⟩
    · rw [hwanted]
      rfl
    · rw [hsame, received_append, hreceived, hgot]
      simp [Deed.received]
  -- more bytes for the chunk
  · rw [haccept]
    have hstill : (t.gather (t.reader.got ++ bs)).phase = .reading := hphase
    simp only [Standing, hstill]
    refine ⟨hsmooth.concat (by simp [Deed.IsSmooth]), ?_, hless⟩
    rw [hsame, received_append, hreceived, received_singleton, List.append_assoc]
    rfl
  -- a full chunk, or the last one
  · rw [haccept]
    refine Standing.offer hsmooth (by simp [Deed.IsSmooth]) rfl ?_
    rw [hreceived, List.append_assoc]
    rfl

/-- A chunk is taken, or not. -/
theorem handing (h : Standing t deeds) {chunk : Bytes} (hphase : t.phase = .handing chunk)
    (ticks : UInt32) :
    Standing (t.handed chunk) (deeds ++ [.handed (t.packet .info chunk ticks) true]) ∧
      Standing (t.go .crashed) (deeds ++ [.handed (t.packet .info chunk ticks) false]) := by
  simp only [Standing, hphase] at h
  obtain ⟨hsmooth, hgot, hreceived⟩ := h
  constructor
  · have hafter : (t.handed chunk).phase = .reading := rfl
    simp only [Standing, hafter]
    have hreader : (t.handed chunk).reader.got = [] := hgot
    rw [hreader]
    refine ⟨hsmooth.concat ⟨rfl, rfl⟩, ?_, t.reader.size_pos⟩
    rw [received_append, hreceived, taken_append, content_append]
    simp [Deed.received, taken, Deed.packet?, content, packet]
  · simp only [Standing, go_phase]
    exact hsmooth.unfinished hreceived rfl rfl

/-- A notice is taken, or not. -/
theorem notifying (h : Standing t deeds) {failure : Failure}
    (hphase : t.phase = .notifying failure) {notice : Packet} (hcontent : notice.content = .error)
    (hpayload : notice.payload = Bytes.ofText (failure.notice t.entry.fileName)) :
    Standing (t.failed failure) (deeds ++ [.handed notice true]) ∧
      Standing (t.go .crashed) (deeds ++ [.handed notice false]) := by
  simp only [Standing, hphase] at h
  obtain ⟨hunfinished, hoffset, -⟩ := h
  constructor
  · refine ⟨some failure, _, rfl, ?_, .failed hunfinished failure notice hcontent hpayload⟩
    intro f hf
    rw [← Option.some.inj hf, hoffset]
    rfl
  · simp only [Standing, go_phase]
    exact hunfinished.concat notice

/-- The file is removed, or not. -/
theorem closing (h : Standing t deeds) (hphase : t.phase = .closing) {deletion : Deletion}
    (hsettled : Finished t.reader.size deeds →
      Settled t.entry t.reader.size (deeds ++ new) none deletion) :
    Standing (t.completed deletion) (deeds ++ new) := by
  simp only [Standing, hphase] at h
  exact ⟨none, deletion, rfl, by simp, hsettled h⟩

/-- **Every step knows where the bytes are.** -/
theorem does (h : Standing t deeds) {told : List Event} (hdoes : Does t new told t') :
    Standing t' (deeds ++ new) := by
  cases hdoes with
  | opens hphase => exact h.opening hphase _ (Or.inl ⟨rfl, rfl⟩)
  | opensNot hphase e => exact h.opening hphase _ (Or.inr (Or.inl ⟨e, rfl, rfl⟩))
  | lacksRoom hphase => exact h.opening hphase _ (Or.inr (Or.inr rfl))
  | reads hphase reading => exact h.reading hphase reading
  | hands hphase ticks => exact (h.handing hphase ticks).1
  | handsNot hphase ticks => exact (h.handing hphase ticks).2
  | notifies hphase ticks => exact (h.notifying hphase rfl rfl).1
  | notifiesNot hphase ticks => exact (h.notifying hphase rfl rfl).2
  | removes hphase wanted answer =>
    exact h.closing hphase fun hfinished => .removed hfinished wanted answer
  | keeps hphase unwanted =>
    refine h.closing hphase fun hfinished => ?_
    rw [List.append_nil]
    exact .kept hfinished unwanted
  | rests hover =>
    rw [List.append_nil]
    exact h

/-- **What a completed transfer leaves behind**: every byte read has been handed on, in packets
that were all taken. -/
theorem completed (h : Standing t deeds) {r : Report} (hphase : t.phase = .over r)
    (hnone : r.failure = none) :
    r = t.reportWith none r.deletion ∧ received deeds = content (taken deeds) ∧
      ∀ p back, .handed p back ∈ deeds → p.content = .info ∧ back = true := by
  simp only [Standing, hphase] at h
  obtain ⟨failure, deletion, rfl, -, hsettled⟩ := h
  obtain rfl : failure = none := hnone
  refine ⟨rfl, ?_⟩
  cases hsettled with
  | removed hfinished wanted answer =>
    constructor
    · rw [received_append, taken_append, hfinished.received]
      simp [Deed.received, taken_singleton, Deed.packet?]
    · intro p back hmem
      rcases List.mem_append.mp hmem with hbefore | hlast
      · exact hfinished.smooth _ hbefore
      · exact absurd hlast (by simp)
  | kept hfinished unwanted => exact ⟨hfinished.received, fun p back => hfinished.smooth _⟩

/-- **A transfer has not finished with its file, or it has settled.** -/
theorem unfinished_or_settled (h : Standing t deeds) :
    (Unfinished deeds ∧ ∀ r, t.phase ≠ .over r) ∨
      ∃ failure deletion, t.phase = .over (t.reportWith failure deletion) ∧
        Settled t.entry t.reader.size deeds failure deletion := by
  cases hphase : t.phase with
  | opening =>
    simp only [Standing, hphase] at h
    rw [h.1]
    refine Or.inl ⟨⟨?_, ?_, List.prefix_rfl⟩, by simp⟩
    · exact fun d hd => absurd hd (by simp)
    · exact fun p hp => absurd hp (by simp)
  | reading =>
    simp only [Standing, hphase] at h
    exact Or.inl ⟨⟨h.1.kept, h.1.pieces, h.2.1 ▸ List.prefix_append _ _⟩, by simp⟩
  | handing chunk =>
    simp only [Standing, hphase] at h
    exact Or.inl ⟨⟨h.1.kept, h.1.pieces, h.2.2 ▸ List.prefix_append _ _⟩, by simp⟩
  | notifying failure =>
    simp only [Standing, hphase] at h
    exact Or.inl ⟨h.1, by simp⟩
  | closing =>
    simp only [Standing, hphase] at h
    exact Or.inl ⟨⟨h.smooth.kept, h.smooth.pieces, h.received ▸ List.prefix_rfl⟩, by simp⟩
  | crashed =>
    simp only [Standing, hphase] at h
    exact Or.inl ⟨h, by simp⟩
  | «over» r =>
    simp only [Standing, hphase] at h
    obtain ⟨failure, deletion, rfl, -, hsettled⟩ := h
    exact Or.inr ⟨failure, deletion, rfl, hsettled⟩

theorem bytes_of_over (h : Standing t deeds) {r : Report} (hphase : t.phase = .over r) :
    r.bytes = t.bytes := by
  simp only [Standing, hphase] at h
  obtain ⟨failure, deletion, rfl, -⟩ := h
  rfl

/-- The pieces handed on are the first bytes read. -/
theorem content_prefix (h : Standing t deeds) : content (taken deeds) <+: received deeds := by
  rcases h.unfinished_or_settled with ⟨hunfinished, -⟩ | ⟨failure, deletion, -, hsettled⟩
  · exact hunfinished.handedOn
  · cases hsettled with
    | failed hunfinished f notice hcontent hpayload =>
      -- the notice has no bytes of the file
      have hnone : content [notice] = [] := by simp [content, hcontent]
      rw [received_append, taken_append, taken_singleton]
      simp only [Deed.packet?, Option.toList_some, content_append, hnone, List.append_nil]
      exact hunfinished.handedOn.trans (List.prefix_append _ _)
    | removed hfinished wanted answer =>
      rw [received_append, taken_append, taken_singleton]
      simp only [Deed.packet?, Option.toList_none, List.append_nil]
      exact hfinished.received ▸ List.prefix_append _ _
    | kept hfinished unwanted => exact hfinished.received ▸ List.prefix_rfl

/-- **A notice is handed on by a transfer that failed, as its last packet**, and by no other. -/
theorem pieces_or_notice (h : Standing t deeds) :
    ((∀ p ∈ taken deeds, p.content = .info) ∧ ∀ r, t.phase = .over r → r.failure = none) ∨
    ∃ r failure pieces notice, t.phase = .over r ∧ r.failure = some failure ∧
      taken deeds = pieces ++ [notice] ∧ (∀ p ∈ pieces, p.content = .info) ∧
      notice.content = .error ∧
      notice.payload = Bytes.ofText (failure.notice t.entry.fileName) := by
  rcases h.unfinished_or_settled with ⟨hunfinished, hlive⟩ | ⟨failure, deletion, hphase, hsettled⟩
  · exact Or.inl ⟨hunfinished.pieces, fun r hr => absurd hr (hlive r)⟩
  · have hcompleted : failure = none → ∀ r, t.phase = .over r → r.failure = none := by
      rintro rfl r hr
      rw [hphase] at hr
      rw [← Phase.over.inj hr]
      rfl
    cases hsettled with
    | failed hunfinished f notice hcontent hpayload =>
      exact Or.inr ⟨_, f, _, notice, hphase, rfl, taken_append _ _, hunfinished.pieces, hcontent,
        hpayload⟩
    | removed hfinished wanted answer =>
      refine Or.inl ⟨?_, hcompleted rfl⟩
      rw [taken_append, taken_singleton]
      simp only [Deed.packet?, Option.toList_none, List.append_nil]
      exact hfinished.smooth.pieces
    | kept hfinished unwanted => exact Or.inl ⟨hfinished.smooth.pieces, hcompleted rfl⟩

end Standing

/-! ### The state -/

/-- **The states that go with a phase.** A transfer that crashed may have done so when it opened its
file or later. -/
def Phase.InState : Phase → State → Prop
  | .opening, state => state = .idle
  | .reading, state | .handing _, state | .closing, state => state = .streaming
  | .notifying (.opening _), state => state = .opening
  | .notifying (.reading ..), state | .notifying (.sequenceExhausted _), state =>
    state = .streaming
  | .crashed, state => state = .opening ∨ state = .streaming
  | .over r, state => r.state = state ∧ state = if r.failure = none then .completed else .failed

namespace Phase.InState

variable {t t' : Transfer}

/-- A reading leaves the state alone, and so does what comes of it. -/
theorem accept (h : t.phase.InState t.state) (hphase : t.phase = .reading) (reading : Reading) :
    (t.accept reading).phase.InState (t.accept reading).state := by
  have hstate : t.state = .streaming := by
    rw [hphase] at h
    exact h
  rcases accept_cases t reading with ⟨-, haccept⟩ | ⟨e, -, haccept⟩ | ⟨-, -, haccept⟩ |
    ⟨bs, -, ⟨-, -, haccept⟩ | ⟨-, -, haccept⟩⟩ <;> rw [haccept]
  · exact h
  · exact hstate
  · exact hstate
  · exact h
  · simp only [offer, phaseAfter]
    split
    · exact hstate
    · exact hstate

/-- **Every step goes to a state that goes with its phase.** -/
theorem does (h : t.phase.InState t.state) {new : List Deed} {told : List Event}
    (hdoes : Does t new told t') : t'.phase.InState t'.state := by
  cases hdoes with
  | opens | opensNot => rfl
  | lacksRoom => exact Or.inl rfl
  | reads hphase reading => exact h.accept hphase reading
  | hands hphase ticks =>
    rw [hphase] at h
    exact h
  | handsNot hphase ticks =>
    rw [hphase] at h
    exact Or.inr h
  | @notifiesNot failure hphase ticks =>
    rw [hphase] at h
    cases failure with
    | opening e => exact Or.inl h
    | reading offset e => exact Or.inr h
    | sequenceExhausted offset => exact Or.inr h
  | notifies | removes | keeps => exact ⟨rfl, rfl⟩
  | rests => exact h

end Phase.InState

/-! ### Runs -/

/-- A step changes neither what was asked for nor the size of the chunks. -/
theorem Does.keepsEntry {t t' : Transfer} {new : List Deed} {told : List Event}
    (h : Does t new told t') : t'.entry = t.entry ∧ t'.reader.size = t.reader.size := by
  cases h with
  | reads hphase reading =>
    rcases accept_cases t reading with ⟨-, haccept⟩ | ⟨e, -, haccept⟩ | ⟨-, -, haccept⟩ |
      ⟨bs, -, ⟨-, -, haccept⟩ | ⟨-, -, haccept⟩⟩ <;>
    · rw [haccept]
      exact ⟨rfl, rfl⟩
  | _ => exact ⟨rfl, rfl⟩

/-- A reading does not crash a transfer. -/
theorem accept_phase_ne_crashed {t : Transfer} (h : t.phase = .reading) (reading : Reading) :
    (t.accept reading).phase ≠ .crashed := by
  rcases accept_cases t reading with ⟨-, haccept⟩ | ⟨e, -, haccept⟩ | ⟨-, -, haccept⟩ |
    ⟨bs, -, ⟨-, -, haccept⟩ | ⟨-, -, haccept⟩⟩ <;> rw [haccept]
  · simp [h]
  · simp [stumble]
  · simp
  · simp [gather, h]
  · simp only [offer, phaseAfter]
    split <;> simp

/-- **What makes a transfer crash**: there was no room for a chunk, or somebody threw. -/
theorem Does.cause_of_crashed {t t' : Transfer} {new : List Deed} {told : List Event}
    (h : Does t new told t') (hlive : t.isOver = false) (hcrashed : t'.phase = .crashed) :
    (∃ name size, .opened name size .noRoom ∈ new) ∨ ∃ p, .handed p false ∈ new := by
  cases h with
  | lacksRoom hphase => exact Or.inl ⟨_, _, List.mem_singleton.mpr rfl⟩
  | handsNot hphase ticks => exact Or.inr ⟨_, List.mem_singleton.mpr rfl⟩
  | notifiesNot hphase ticks => exact Or.inr ⟨_, List.mem_singleton.mpr rfl⟩
  | reads hphase reading => exact absurd hcrashed (accept_phase_ne_crashed hphase reading)
  | rests hover =>
    rw [hlive] at hover
    exact absurd hover (by simp)
  | _ => exact absurd hcrashed (by simp [go, handed, failed, completed])

/-- Whatever the surroundings. -/
theorem step_keepsEntry {σ : Type} (around : Surroundings σ) (t : Transfer) (s : σ) :
    (t.step around s).1.entry = t.entry ∧
      (t.step around s).1.reader.size = t.reader.size := by
  obtain ⟨new, told, s', hdoes, -⟩ := exists_does around t s
  exact hdoes.keepsEntry

namespace Course

variable {start t : Transfer} {deeds : List Deed}

/-- Nor does any number of them. -/
theorem keepsEntry (h : Course start deeds t) :
    t.entry = start.entry ∧ t.reader.size = start.reader.size := by
  induction h with
  | start => exact ⟨rfl, rfl⟩
  | step _ hdoes ih => exact ⟨hdoes.keepsEntry.1.trans ih.1, hdoes.keepsEntry.2.trans ih.2⟩

/-- **The counters are right at any time, and so is what is said of the bytes**, if they
were in the beginning. -/
theorem sound (h : Course start deeds t) (haccount : Account start [])
    (hstanding : Standing start []) : Account t deeds ∧ Standing t deeds := by
  induction h with
  | start => exact ⟨haccount, hstanding⟩
  | step _ hdoes ih => exact ⟨ih.1.does hdoes, ih.2.does hdoes⟩

/-- **The state of a transfer goes with its phase**, at any time. -/
theorem inState (h : Course start deeds t) (hstart : start.phase.InState start.state) :
    t.phase.InState t.state := by
  induction h with
  | start => exact hstart
  | step _ hdoes ih => exact ih.does hdoes

/-- **What a report says of the state goes with what it says of a failure.** -/
theorem state_eq (h : Course start deeds t) (hstart : start.phase.InState start.state)
    {r : Report} (hphase : t.phase = .over r) :
    r.state = if r.failure = none then .completed else .failed := by
  have hstate := h.inState hstart
  rw [hphase] at hstate
  exact hstate.1.trans hstate.2

/-- A transfer that has not begun has nothing wrong with it. -/
theorem sound_fresh {entry : Entry} {chunkSize : Nat}
    (h : Course (fresh entry chunkSize) deeds t) : Account t deeds ∧ Standing t deeds :=
  h.sound (.begin rfl rfl rfl rfl) ⟨rfl, rfl, rfl⟩

end Course

end Transfer

end LogCourier
