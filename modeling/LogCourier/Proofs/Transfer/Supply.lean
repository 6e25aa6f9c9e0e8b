import LogCourier.Proofs.Transfer.Account

/-!
# What a source has left

A source has some bytes left and gives them in its own time: a few of them, or none
yet, and in the end either no bytes or an error. This file follows the bytes of such a
source through a transfer.

`LogCourier.Transfer.Gives` says what one reading may answer. Nothing is said of how
the bytes are cut into readings, or of how often the source is interrupted; and
that is why nothing of it shows. **The packets are cut where the size of a chunk says**,
however the readings were (`LogCourier.Transfer.Streamed`): packet number `k` has the
bytes from `k` times that size on. The bytes of the file that are in no packet yet are
those gathered and those left, in this order.

Why a reading of no bytes cannot cut a chunk short: it comes only when nothing is left, so
the chunk that it ends is the last one.
-/

namespace LogCourier.Transfer

/-! ### Sources -/

/-- **What a source may answer** when it has so many bytes left and is asked for at most
so many, and what it has left then. It gives bytes as long as there are some; after that, no
bytes, or an error if there is one at its end. -/
inductive Gives (ending : Option IoError) (limit : Nat) : Bytes → Reading → Bytes → Prop
  /-- Some bytes. -/
  | bytes {bs left : Bytes} (hsome : bs ≠ []) (hlimit : bs.length ≤ limit) :
      Gives ending limit (bs ++ left) (.data bs) left
  /-- Nothing yet. -/
  | interrupted {left : Bytes} : Gives ending limit left .interrupted left
  /-- No more. -/
  | done (h : ending = none) : Gives ending limit [] (.data []) []
  /-- An error. -/
  | failed {e : IoError} (h : ending = some e) : Gives ending limit [] (.failed e) []

/-- What some deeds make of what is left. -/
inductive Draws (ending : Option IoError) (left : Bytes) : List Deed → Bytes → Prop
  /-- A reading takes away what it gives. -/
  | reading {limit : Nat} {reading : Reading} {rest : Bytes}
      (h : Gives ending limit left reading rest) : Draws ending left [.read limit reading] rest
  /-- Anything else takes nothing away. -/
  | others {deeds : List Deed} (h : ∀ limit reading, .read limit reading ∉ deeds) :
      Draws ending left deeds left

/-- The bytes that were left are those brought in and those left now. -/
theorem Gives.received_append {ending : Option IoError} {limit : Nat} {left rest : Bytes}
    {reading : Reading} (h : Gives ending limit left reading rest) :
    (Deed.read limit reading).received ++ rest = left := by
  cases h with
  | bytes => rfl
  | interrupted => rfl
  | done => rfl
  | failed => rfl

/-- No bytes are given only when none are left. -/
theorem Gives.of_end {ending : Option IoError} {limit : Nat} {left rest : Bytes}
    (h : Gives ending limit left (.data []) rest) : ending = none ∧ left = [] ∧ rest = [] := by
  cases h with
  | bytes hsome => exact absurd rfl hsome
  | done hnone => exact ⟨hnone, rfl, rfl⟩

theorem Gives.of_failed {ending : Option IoError} {limit : Nat} {left rest : Bytes} {e : IoError}
    (h : Gives ending limit left (.failed e) rest) : ending = some e := by
  cases h with
  | failed hsome => exact hsome

/-- An error is given only when none are left, too. -/
theorem Gives.nil_of_failed {ending : Option IoError} {limit : Nat} {left rest : Bytes}
    {e : IoError} (h : Gives ending limit left (.failed e) rest) : left = [] ∧ rest = [] := by
  cases h with
  | failed => exact ⟨rfl, rfl⟩

/-- No more bytes are given than were asked for. -/
theorem Gives.length_le {ending : Option IoError} {limit : Nat} {left rest bs : Bytes}
    (h : Gives ending limit left (.data bs) rest) : bs.length ≤ limit := by
  cases h with
  | bytes _ hlimit => exact hlimit
  | done => exact Nat.zero_le _

/-- Deeds without a reading bring nothing in. -/
theorem received_eq_nil {deeds : List Deed} (h : ∀ limit reading, .read limit reading ∉ deeds) :
    received deeds = [] := by
  refine List.flatMap_eq_nil_iff.mpr fun d hd => ?_
  cases d with
  | read limit reading => exact absurd hd (h limit reading)
  | _ => rfl

theorem Draws.received_append {ending : Option IoError} {left rest : Bytes} {deeds : List Deed}
    (h : Draws ending left deeds rest) : received deeds ++ rest = left := by
  cases h with
  | reading hgives => rw [received_singleton, hgives.received_append]
  | others hnone => rw [received_eq_nil hnone, List.nil_append]

/-! ### Where a file is cut -/

/-- Where a transfer is in a file, phase by phase. -/
def Cut (file : Bytes) (t : Transfer) (left : Bytes) : Prop :=
  match t.phase with
  | .reading => file.drop (t.packets * t.reader.size) = t.reader.got ++ left
  | .handing chunk => file.drop (t.packets * t.reader.size) = chunk ++ left ∧ chunk ≠ [] ∧
      chunk.length ≤ t.reader.size ∧ (chunk.length = t.reader.size ∨ left = [])
  | .closing => file.drop (t.packets * t.reader.size) = [] ∧ left = []
  | .over r => r.failure = none → file.drop (t.packets * t.reader.size) = [] ∧ left = []
  | _ => True

/-- **A file is carried piece by piece**: what was read and what is left make the file, and
each packet taken, but for a notice, has the bytes of the file that belong at its place. -/
structure Streamed (file : Bytes) (t : Transfer) (deeds : List Deed) (left : Bytes) : Prop where
  /-- Nothing gets lost on the way in. -/
  supply : received deeds ++ left = file
  /-- Each packet is a piece of the file, and not an empty one. -/
  pieces : ∀ (k : Nat) (p : Packet), (taken deeds)[k]? = some p → p.content = .info →
    k * t.reader.size < file.length ∧
      p.payload = (file.drop (k * t.reader.size)).take t.reader.size
  /-- The next piece is cut at the right place. -/
  cut : Cut file t left

namespace Streamed

variable {file left rest : Bytes} {t t' : Transfer} {deeds new : List Deed}

/-- A transfer that has not begun has the whole file before it. -/
theorem begin (h : t.phase = .opening ∨ t.phase = .reading ∧ t.reader.got = [] ∧ t.packets = 0) :
    Streamed file t [] file where
  supply := rfl
  pieces := by
    intro k p hk
    exact absurd hk (by simp)
  cut := by
    rcases h with hphase | ⟨hphase, hgot, hpackets⟩
    · simp only [Cut, hphase]
    · simp only [Cut, hphase]
      rw [hgot, hpackets, Nat.zero_mul]
      rfl

/-- A step that has no packet taken. -/
theorem idle {ending : Option IoError} (h : Streamed file t deeds left)
    (hdraws : Draws ending left new rest) (hnew : taken new = [])
    (hsize : t'.reader.size = t.reader.size) (hcut : Cut file t' rest) :
    Streamed file t' (deeds ++ new) rest where
  supply := by rw [received_append, List.append_assoc, hdraws.received_append, h.supply]
  pieces := by
    rw [taken_append, hnew, List.append_nil, hsize]
    exact h.pieces
  cut := hcut

/-- A chunk that is filled is the next piece, and not an empty one. -/
theorem cut_offer {chunk : Bytes}
    (hcut : file.drop (t.packets * t.reader.size) = chunk ++ rest) (hsome : chunk ≠ [])
    (hle : chunk.length ≤ t.reader.size) (hfull : chunk.length = t.reader.size ∨ rest = []) :
    Cut file (t.offer chunk) rest := by
  by_cases hlast : t.sequence = lastSequence
  · have hphase : (t.offer chunk).phase = .notifying (.sequenceExhausted t.bytes) :=
      if_pos hlast
    simp only [Cut, hphase]
  · have hphase : (t.offer chunk).phase = .handing chunk := if_neg hlast
    simp only [Cut, hphase]
    exact ⟨hcut, hsome, hle, hfull⟩

/-- A reading. -/
theorem reading {ending : Option IoError} (h : Streamed file t deeds left)
    (hphase : t.phase = .reading) (hroom : t.reader.got.length < t.reader.size)
    {reading : Reading} (hgives : Gives ending t.reader.wanted left reading rest) :
    Streamed file (t.accept reading) (deeds ++ [.read t.reader.wanted reading]) rest := by
  have hcut := h.cut
  simp only [Cut, hphase] at hcut
  have hdraws : Draws ending left [.read t.reader.wanted reading] rest := .reading hgives
  rcases accept_cases t reading with ⟨rfl, haccept⟩ | ⟨e, rfl, haccept⟩ | ⟨rfl, hgot, haccept⟩ |
    ⟨bs, rfl, ⟨hbs, -, haccept⟩ | ⟨hsome, hcause, haccept⟩⟩
  -- interrupted
  · rw [haccept]
    cases hgives
    refine h.idle hdraws rfl rfl ?_
    simp only [Cut, hphase]
    exact hcut
  -- an error: the file will not be cut any more
  · rw [haccept]
    exact h.idle hdraws rfl rfl trivial
  -- the end of the file: nothing is left, and nothing was gathered
  · rw [haccept]
    refine h.idle hdraws rfl rfl ?_
    obtain ⟨-, rfl, rfl⟩ := hgives.of_end
    rw [hgot] at hcut
    exact ⟨hcut, rfl⟩
  -- more bytes for the chunk: they go from what is left to what is gathered
  · rw [haccept]
    refine h.idle hdraws rfl rfl ?_
    have hstill : (t.gather (t.reader.got ++ bs)).phase = .reading := hphase
    simp only [Cut, hstill]
    change file.drop (t.packets * t.reader.size) = t.reader.got ++ bs ++ rest
    rw [hcut, ← hgives.received_append, ← List.append_assoc]
    rfl
  -- a full chunk, or one cut short because nothing is left
  · rw [haccept]
    refine h.idle hdraws rfl rfl ?_
    have hle : (t.reader.got ++ bs).length ≤ t.reader.size := by
      have hlimit := hgives.length_le
      rw [ChunkReader.wanted] at hlimit
      rw [List.length_append]
      omega
    refine cut_offer ?_ hsome hle ?_
    · rw [hcut, ← hgives.received_append, ← List.append_assoc]
      rfl
    · rcases hcause with rfl | hfull
      · exact Or.inr hgives.of_end.2.2
      · exact Or.inl (Nat.le_antisymm hle hfull)

/-- A chunk is taken. -/
theorem hand (h : Streamed file t deeds left) (haccount : Account t deeds) {chunk : Bytes}
    (hphase : t.phase = .handing chunk) (hgot : t.reader.got = []) (ticks : UInt32) :
    Streamed file (t.handed chunk) (deeds ++ [.handed (t.packet .info chunk ticks) true]) left := by
  have hcut := h.cut
  simp only [Cut, hphase] at hcut
  obtain ⟨hdrop, hsome, hle, hfull⟩ := hcut
  have hlength := congrArg List.length hdrop
  have hpositive : 0 < chunk.length := List.length_pos_iff.mpr hsome
  rw [List.length_drop, List.length_append] at hlength
  have hbegins : t.packets * t.reader.size < file.length := by omega
  have hpiece : chunk = (file.drop (t.packets * t.reader.size)).take t.reader.size := by
    rcases hfull with hlen | rfl
    · rw [hdrop, List.take_left' hlen]
    · rw [hdrop, List.append_nil, List.take_of_length_le hle]
  -- the next piece begins where this one ends; after a shorter one there is none
  have hnext : file.drop ((t.packets + 1) * t.reader.size) = left := by
    rw [Nat.succ_mul, ← List.drop_drop, hdrop]
    rcases hfull with hlen | rfl
    · rw [List.drop_left' hlen]
    · rw [List.append_nil, List.drop_of_length_le hle]
  refine ⟨?_, ?_, ?_⟩
  · rw [received_append, List.append_assoc]
    exact h.supply
  · rw [taken_append]
    refine forall_getElem?_concat h.pieces fun _ => ?_
    rw [← haccount.packets]
    exact ⟨hbegins, hpiece⟩
  · have hafter : (t.handed chunk).phase = .reading := rfl
    have hreader : (t.handed chunk).reader.got = [] := hgot
    simp only [Cut, hafter]
    rw [hreader]
    exact hnext

/-- A notice is no piece of the file. -/
theorem notify (h : Streamed file t deeds left) {notice : Packet}
    (hcontent : notice.content = .error) (hsize : t'.reader.size = t.reader.size)
    (hcut : Cut file t' left) : Streamed file t' (deeds ++ [.handed notice true]) left where
  supply := by
    rw [received_append, List.append_assoc]
    exact h.supply
  pieces := by
    rw [taken_append, hsize]
    refine forall_getElem?_concat h.pieces fun hinfo => ?_
    rw [hcontent] at hinfo
    exact absurd hinfo (by simp)
  cut := hcut

/-- **Every step carries the file on**, piece by piece. -/
theorem does {ending : Option IoError} (h : Streamed file t deeds left)
    (haccount : Account t deeds) (hstanding : Standing t deeds) {told : List Event}
    (hdoes : Does t new told t') (hdraws : Draws ending left new rest) :
    Streamed file t' (deeds ++ new) rest := by
  cases hdoes with
  | opens hphase =>
    simp only [Standing, hphase] at hstanding
    obtain ⟨rfl, hgot, -⟩ := hstanding
    have hsupply : left = file := h.supply
    have hpackets : t.packets = 0 := haccount.packets
    refine h.idle hdraws rfl rfl ?_
    cases hdraws
    simp only [Cut, go_phase]
    change file.drop (t.packets * t.reader.size) = t.reader.got ++ left
    rw [hpackets, hgot, Nat.zero_mul, hsupply]
    rfl
  | opensNot hphase e => exact h.idle hdraws rfl rfl trivial
  | lacksRoom hphase => exact h.idle hdraws rfl rfl trivial
  | reads hphase reading =>
    simp only [Standing, hphase] at hstanding
    cases hdraws with
    | reading hgives => exact h.reading hphase hstanding.2.2 hgives
    | others hnone => exact absurd (List.mem_singleton.mpr rfl) (hnone _ _)
  | hands hphase ticks =>
    simp only [Standing, hphase] at hstanding
    cases hdraws
    exact h.hand haccount hphase hstanding.2.1 ticks
  | handsNot hphase ticks => exact h.idle hdraws rfl rfl trivial
  | notifies hphase ticks =>
    cases hdraws
    refine h.notify rfl rfl fun hnone => ?_
    exact absurd hnone (by simp [reportWith])
  | notifiesNot hphase ticks => exact h.idle hdraws rfl rfl trivial
  | removes hphase wanted answer =>
    have hcut := h.cut
    simp only [Cut, hphase] at hcut
    refine h.idle hdraws rfl rfl ?_
    cases hdraws
    exact fun _ => hcut
  | keeps hphase unwanted =>
    have hcut := h.cut
    simp only [Cut, hphase] at hcut
    refine h.idle hdraws rfl rfl ?_
    cases hdraws
    exact fun _ => hcut
  | rests hover =>
    cases hdraws
    rw [List.append_nil]
    exact h

end Streamed

/-! ### All that is known of a transfer -/

/-- **A transfer does its work as it should**: its counters are right, its bytes are where
they ought to be, and it carries the file piece by piece. -/
structure Faithful (file : Bytes) (t : Transfer) (deeds : List Deed) (left : Bytes) : Prop where
  /-- Its counters agree with its deeds. -/
  account : Account t deeds
  /-- Its bytes are where its phase says. -/
  standing : Standing t deeds
  /-- Its state goes with its phase. -/
  inState : t.phase.InState t.state
  /-- It carries the file. -/
  streamed : Streamed file t deeds left

namespace Faithful

variable {file left rest : Bytes} {t t' : Transfer} {deeds new : List Deed}

/-- So does one that has not begun. -/
theorem begin (file : Bytes) (entry : Entry) (chunkSize : Nat) :
    Faithful file (fresh entry chunkSize) [] file :=
  ⟨.begin rfl rfl rfl rfl, ⟨rfl, rfl, rfl⟩, rfl, .begin (Or.inl rfl)⟩

/-- **And so it does after every step.** -/
theorem does {ending : Option IoError} (h : Faithful file t deeds left) {told : List Event}
    (hdoes : Does t new told t') (hdraws : Draws ending left new rest) :
    Faithful file t' (deeds ++ new) rest :=
  ⟨h.account.does hdoes, h.standing.does hdoes, h.inState.does hdoes,
    h.streamed.does h.account h.standing hdoes hdraws⟩

/-- **The pieces handed on are the first bytes of the file**, as many as are counted. -/
theorem content_eq_take (h : Faithful file t deeds left) :
    content (taken deeds) = file.take t.bytes := by
  have hprefix : content (taken deeds) <+: file := by
    rw [← h.streamed.supply]
    exact h.standing.content_prefix.trans (List.prefix_append _ _)
  rw [h.account.bytes]
  exact List.prefix_iff_eq_take.mp hprefix

/-- The report says that the transfer is completed exactly if it tells of no failure. -/
theorem isCompleted_iff (h : Faithful file t deeds left) {r : Report} (hphase : t.phase = .over r) :
    r.isCompleted = true ↔ r.failure = none := by
  have hstate := h.inState
  rw [hphase] at hstate
  rw [Report.isCompleted, decide_eq_true_iff, hstate.1, hstate.2]
  by_cases hnone : r.failure = none <;> simp [hnone]

/-- **They are the whole file if the transfer is completed.** -/
theorem content_eq_file (h : Faithful file t deeds left) {r : Report} (hphase : t.phase = .over r)
    (hnone : r.failure = none) : content (taken deeds) = file := by
  have hcut := h.streamed.cut
  simp only [Cut, hphase] at hcut
  rw [← (h.standing.completed hphase hnone).2.1, ← h.streamed.supply, (hcut hnone).2,
    List.append_nil]

end Faithful

end LogCourier.Transfer
