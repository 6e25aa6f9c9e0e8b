import LogCourier.ChunkReader

/-!
# What a chunk reader makes of its readings

A chunk reader is called again and again. Each **call** makes readings until one of them completes
something, and then answers with that: a chunk, the end of the file, or an error. This file says
what a call answers, and that no byte gets lost between two calls.

* One reading does one of six things to a reader (`LogCourier.ChunkReader.Feeds`), of which two
  complete nothing.
* A call is some readings of which the last one completes something
  (`LogCourier.ChunkReader.Completes`). What it answers can be told from the readings alone
  (`LogCourier.ChunkReader.Answers`), and **it leaves nothing gathered behind**: so a call knows
  nothing of those before it, an error or the end of the file not excepted.
* A script runs down by what is read from it. Bytes that were not asked for stay in front, so a
  piece may go into several readings; taken apart into single bytes
  (`LogCourier.Reading.parts`), **the readings are the script**, in its order, and behind it there
  are only readings of no bytes.

That a call ends has one reason: a reading that is not cut off a longer piece makes the script
shorter, and one that is fills the chunk.

The main statement is `LogCourier.Script.calls_exact`.
-/

namespace LogCourier

/-! ### Readings -/

namespace Reading

/-- The bytes that a reading gave. -/
def bytes : Reading → Bytes
  | .data bs => bs
  | .interrupted | .failed _ => []

/-- Whether a reading failed. -/
def isFailed : Reading → Bool
  | .failed _ => true
  | .data _ | .interrupted => false

/-- Whether a reading leaves something to read: it was interrupted, or gave some bytes. -/
def goesOn : Reading → Bool
  | .data bs => bs ≠ []
  | .interrupted => true
  | .failed _ => false

/-- **A reading taken apart**: one reading for each of its bytes, and itself if it gave none. -/
def parts : Reading → List Reading
  | .data (b :: bs) => (b :: bs).map fun b => .data [b]
  | reading => [reading]

theorem parts_of_ne_nil {bs : Bytes} (h : bs ≠ []) :
    (Reading.data bs).parts = bs.map fun b => .data [b] := by
  obtain ⟨b, rest, rfl⟩ := List.exists_cons_of_ne_nil h
  rfl

/-- Taking apart keeps the bytes. -/
theorem flatMap_bytes_parts (reading : Reading) : reading.parts.flatMap bytes = reading.bytes := by
  match reading with
  | .data [] => rfl
  | .data (b :: bs) =>
    rw [parts, List.flatMap_map]
    exact List.flatMap_singleton' (b :: bs)
  | .interrupted => rfl
  | .failed e => rfl

theorem flatMap_bytes_flatMap_parts (readings : List Reading) :
    (readings.flatMap parts).flatMap bytes = readings.flatMap bytes := by
  rw [List.flatMap_assoc]
  simp only [flatMap_bytes_parts]

end Reading

namespace ChunkReader

/-! ### One reading -/

/-- The reader when what it had gathered has been given out. -/
def emptied (r : ChunkReader) : ChunkReader :=
  { r with got := [], offset := r.offset + r.got.length }

/-- The reader with so many bytes gathered. -/
def gathering (r : ChunkReader) (bs : Bytes) : ChunkReader :=
  { r with got := bs }

/-- **What a reading does to a reader**: the reader afterwards, and what the reading completed. -/
inductive Feeds (r : ChunkReader) : Reading → ChunkReader → Option Outcome → Prop
  /-- Nothing was read yet. -/
  | interrupted : Feeds r .interrupted r none
  /-- There are more bytes for the chunk, and it is not full yet. -/
  | gathers {bs : Bytes} (hsome : bs ≠ []) (hless : (r.got ++ bs).length < r.size) :
      Feeds r (.data bs) (r.gathering (r.got ++ bs)) none
  /-- The chunk is full. -/
  | fills {bs : Bytes} (hsome : bs ≠ []) (hfull : (r.got ++ bs).length = r.size) :
      Feeds r (.data bs) (r.gathering (r.got ++ bs)).emptied (some (.chunk (r.got ++ bs)))
  /-- There are no more bytes for the chunk, which is cut short. -/
  | cuts (hgot : r.got ≠ []) : Feeds r (.data []) r.emptied (some (.chunk r.got))
  /-- There are no more bytes, and no chunk was begun. -/
  | ends (hgot : r.got = []) : Feeds r (.data []) r (some .finished)
  /-- Reading failed, and what was gathered is given up. -/
  | fails (e : IoError) : Feeds r (.failed e) (r.gathering []) (some (.failed e))

/-- **A reading does one of these**, if it gives no more than was asked for. -/
theorem feeds_feed {r : ChunkReader} {reading : Reading} (hroom : r.got.length < r.size)
    (hfit : reading.bytes.length ≤ r.wanted) :
    Feeds r reading (r.feed reading).1 (r.feed reading).2 := by
  cases reading with
  | interrupted => exact .interrupted
  | failed e => exact .fails e
  | data bs =>
    by_cases hbs : bs = []
    · subst hbs
      by_cases hgot : r.got = []
      · simp only [feed, giveOut, hgot, if_true]
        exact .ends hgot
      · simp only [feed, giveOut, hgot, if_true, if_false]
        exact .cuts hgot
    · have hle : (r.got ++ bs).length ≤ r.size := by
        change bs.length ≤ r.size - r.got.length at hfit
        rw [List.length_append]
        omega
      by_cases hless : (r.got ++ bs).length < r.size
      · simp only [feed, hbs, hless, if_true, if_false]
        exact .gathers hbs hless
      · have hne : r.got ++ bs ≠ [] := by simp [hbs]
        simp only [feed, giveOut, hbs, hless, hne, if_false]
        exact .fills hbs (Nat.le_antisymm hle (Nat.le_of_not_lt hless))

theorem Feeds.size_eq {r r' : ChunkReader} {reading : Reading} {outcome : Option Outcome}
    (h : Feeds r reading r' outcome) : r'.size = r.size := by
  cases h <;> rfl

/-- There is always room for another byte. -/
theorem Feeds.room {r r' : ChunkReader} {reading : Reading} {outcome : Option Outcome}
    (h : Feeds r reading r' outcome) (hroom : r.got.length < r.size) :
    r'.got.length < r'.size := by
  cases h with
  | interrupted | ends => exact hroom
  | gathers hsome hless => exact hless
  | fills | cuts | fails => exact r.size_pos

/-! ### One call -/

/-- The bytes that an answer has in it. -/
def Outcome.given : Outcome → Bytes
  | .chunk bs => bs
  | .finished | .failed _ => []

/-- **The readings of a call**, of which only the last one completes something; what that is; and
the reader afterwards. -/
inductive Completes : ChunkReader → List Reading → Outcome → ChunkReader → Prop
  /-- A reading completes something. -/
  | last {r r' : ChunkReader} {reading : Reading} {outcome : Outcome}
      (h : Feeds r reading r' (some outcome)) : Completes r [reading] outcome r'
  /-- A reading completes nothing, and there is another one. -/
  | more {r r' r'' : ChunkReader} {reading : Reading} {rest : List Reading} {outcome : Outcome}
      (h : Feeds r reading r' none) (hrest : Completes r' rest outcome r'') :
      Completes r (reading :: rest) outcome r''

/-- **What a call answers**, by its readings and the bytes that were gathered before them. -/
inductive Answers (size : Nat) (got : Bytes) : List Reading → Outcome → Prop
  /-- The readings fill the chunk. -/
  | full {readings : List Reading} {chunk : Bytes} (hgoes : ∀ x ∈ readings, x.goesOn = true)
      (hchunk : chunk = got ++ readings.flatMap Reading.bytes) (hfull : chunk.length = size) :
      Answers size got readings (.chunk chunk)
  /-- A reading of no bytes cuts it short. -/
  | short {before : List Reading} {chunk : Bytes} (hgoes : ∀ x ∈ before, x.goesOn = true)
      (hchunk : chunk = got ++ before.flatMap Reading.bytes) (hsome : chunk ≠ [])
      (hless : chunk.length < size) : Answers size got (before ++ [.data []]) (.chunk chunk)
  /-- A reading of no bytes comes before any other. -/
  | finished {before : List Reading} (hgot : got = [])
      (hnothing : ∀ x ∈ before, x = .interrupted) :
      Answers size got (before ++ [.data []]) .finished
  /-- A reading fails. -/
  | failed {before : List Reading} (hgoes : ∀ x ∈ before, x.goesOn = true) (e : IoError) :
      Answers size got (before ++ [.failed e]) (.failed e)

namespace Answers

variable {size : Nat} {got bs : Bytes} {readings : List Reading} {outcome : Outcome}

/-- Being interrupted first makes no difference. -/
theorem cons_interrupted (h : Answers size got readings outcome) :
    Answers size got (.interrupted :: readings) outcome := by
  cases h with
  | full hgoes hchunk hfull =>
    exact .full (List.forall_mem_cons.mpr ⟨rfl, hgoes⟩) hchunk hfull
  | short hgoes hchunk hsome hless =>
    exact .short (List.forall_mem_cons.mpr ⟨rfl, hgoes⟩) hchunk hsome hless
  | finished hgot hnothing => exact .finished hgot (List.forall_mem_cons.mpr ⟨rfl, hnothing⟩)
  | failed hgoes e => exact .failed (List.forall_mem_cons.mpr ⟨rfl, hgoes⟩) e

/-- Bytes that are read first are as good as gathered. -/
theorem cons_data (h : Answers size (got ++ bs) readings outcome) (hsome : bs ≠ []) :
    Answers size got (.data bs :: readings) outcome := by
  have hdata : (Reading.data bs).goesOn = true := decide_eq_true hsome
  cases h with
  | full hgoes hchunk hfull =>
    rw [List.append_assoc] at hchunk
    exact .full (List.forall_mem_cons.mpr ⟨hdata, hgoes⟩) hchunk hfull
  | short hgoes hchunk hne hless =>
    rw [List.append_assoc] at hchunk
    exact .short (List.forall_mem_cons.mpr ⟨hdata, hgoes⟩) hchunk hne hless
  -- with bytes gathered a reading of no bytes does not say that the file is finished
  | finished hgot => exact absurd hgot (by simp [hsome])
  | failed hgoes e => exact .failed (List.forall_mem_cons.mpr ⟨hdata, hgoes⟩) e

end Answers

namespace Completes

variable {r r' : ChunkReader} {readings : List Reading} {outcome : Outcome}

/-- **A call answers what its readings tell.** -/
theorem answers (h : Completes r readings outcome r') (hroom : r.got.length < r.size) :
    Answers r.size r.got readings outcome := by
  induction h with
  | last hfeeds =>
    cases hfeeds with
    | fills hsome hfull =>
      exact .full (List.forall_mem_singleton.mpr (decide_eq_true hsome)) (by simp [Reading.bytes])
        hfull
    | cuts hgot => exact .short (List.forall_mem_nil _) (List.append_nil _).symm hgot hroom
    | ends hgot => exact .finished hgot (List.forall_mem_nil _)
    | fails e => exact .failed (List.forall_mem_nil _) e
  | more hfeeds hrest ih =>
    have hanswers := ih (hfeeds.room hroom)
    rw [hfeeds.size_eq] at hanswers
    cases hfeeds with
    | interrupted => exact hanswers.cons_interrupted
    | gathers hsome hless => exact hanswers.cons_data hsome

/-- **It leaves nothing gathered behind**, and has counted what it gave out. -/
theorem leaves (h : Completes r readings outcome r') :
    r'.got = [] ∧ r'.size = r.size ∧ r'.offset = r.offset + outcome.given.length := by
  induction h with
  | last hfeeds =>
    cases hfeeds with
    | ends hgot => exact ⟨hgot, rfl, rfl⟩
    | fills | cuts | fails => exact ⟨rfl, rfl, rfl⟩
  | more hfeeds hrest ih =>
    cases hfeeds with
    | interrupted | gathers => exact ih

end Completes

/-! ### Many calls -/

/-- What is known of a call when it is over. -/
structure Call where
  /-- The readings that were made. -/
  readings : List Reading
  /-- What was answered, if the call came to an end. -/
  outcome : Option Outcome
  /-- The bytes that the reader has given out then. -/
  offset : Nat

namespace Call

/-- The bytes that a call read. -/
def bytes (c : Call) : Bytes :=
  c.readings.flatMap Reading.bytes

/-- The bytes that it gave out. -/
def given (c : Call) : Bytes :=
  match c.outcome with
  | some outcome => outcome.given
  | none => []

/-- The bytes that it gave up: what it had read when an error came. -/
def lost (c : Call) : Bytes :=
  match c.outcome with
  | some (.failed _) => c.bytes
  | some (.chunk _) | some .finished | none => []

/-- **A call is as it should be**, with full chunks of that size. -/
structure Exact (size : Nat) (c : Call) : Prop where
  /-- It ends. -/
  ends : ∃ outcome, c.outcome = some outcome
  /-- It goes on only as long as a reading was interrupted or gave some bytes. -/
  goesOn : ∀ x ∈ c.readings.dropLast, x.goesOn = true
  /-- A chunk is not empty and not too long, and only a reading of no bytes cuts it short. -/
  chunk : ∀ bs, c.outcome = some (.chunk bs) → 0 < bs.length ∧ bs.length ≤ size ∧
    (bs.length < size ↔ c.readings.getLast? = some (.data []))
  /-- The file is finished if the first reading that was not interrupted gave no bytes. -/
  finished_iff : c.outcome = some .finished ↔
    c.readings.find? (· ≠ .interrupted) = some (.data [])
  /-- An error is the first that was met with. -/
  failed_iff : ∀ e, c.outcome = some (.failed e) ↔
    c.readings.find? Reading.isFailed = some (.failed e)
  /-- What was read is given out, or given up because of an error. -/
  bytes_eq : c.bytes = c.given ++ c.lost

end Call

/-! ### What the readings of a call tell -/

/-- No reading that leaves something to read has failed. -/
theorem find?_isFailed_append {readings : List Reading} (h : ∀ x ∈ readings, x.goesOn = true)
    (rest : List Reading) :
    (readings ++ rest).find? Reading.isFailed = rest.find? Reading.isFailed := by
  have hnone : readings.find? Reading.isFailed = none := by
    refine List.find?_eq_none.mpr fun x hx => ?_
    have hgoes := h x hx
    cases x with
    | failed e => exact absurd hgoes (by simp [Reading.goesOn])
    | _ => simp [Reading.isFailed]
  rw [List.find?_append, hnone, Option.none_or]

/-- If such readings gave some bytes, so did the first of them that was not interrupted; if not,
they were all interrupted. -/
theorem find?_ne_interrupted_append {readings : List Reading}
    (h : ∀ x ∈ readings, x.goesOn = true) (rest : List Reading) :
    (∃ bs, bs ≠ [] ∧ (readings ++ rest).find? (· ≠ .interrupted) = some (.data bs)) ∨
    (readings.flatMap Reading.bytes = [] ∧
      (readings ++ rest).find? (· ≠ .interrupted) = rest.find? (· ≠ .interrupted)) := by
  induction readings with
  | nil => exact Or.inr ⟨rfl, rfl⟩
  | cons x xs ih =>
    obtain ⟨hx, hxs⟩ := List.forall_mem_cons.mp h
    cases x with
    | interrupted => exact ih hxs
    | failed e => exact absurd hx (by simp [Reading.goesOn])
    | data bs => exact Or.inl ⟨bs, of_decide_eq_true hx, rfl⟩

namespace Answers

variable {size : Nat} {readings : List Reading} {outcome : Outcome}

/-- All readings but the last one leave something to read. -/
theorem goesOn_dropLast (h : Answers size [] readings outcome) :
    ∀ x ∈ readings.dropLast, x.goesOn = true := by
  cases h with
  | full hgoes => exact fun x hx => hgoes x (List.dropLast_subset _ hx)
  | short hgoes | failed hgoes =>
    rw [List.dropLast_concat]
    exact hgoes
  | finished hgot hnothing =>
    rw [List.dropLast_concat]
    intro x hx
    rw [hnothing x hx]
    rfl

/-- A chunk is not empty and not too long, and it is short if the last reading gave no bytes. -/
theorem chunk_bounds {bs : Bytes} (h : Answers size [] readings (.chunk bs)) (hsize : 0 < size) :
    0 < bs.length ∧ bs.length ≤ size ∧
      (bs.length < size ↔ readings.getLast? = some (.data [])) := by
  cases h with
  | full hgoes hchunk hfull =>
    refine ⟨hfull ▸ hsize, Nat.le_of_eq hfull, fun hless => absurd hfull (Nat.ne_of_lt hless),
      fun hlast => ?_⟩
    have hgoesLast := hgoes _ (List.mem_of_getLast? hlast)
    exact absurd hgoesLast (by simp [Reading.goesOn])
  | short hgoes hchunk hsome hless =>
    exact ⟨List.length_pos_iff.mpr hsome, Nat.le_of_lt hless, fun _ => List.getLast?_concat,
      fun _ => hless⟩

/-- **The file is finished if the first reading that was not interrupted gave no bytes.** -/
theorem finished_iff (h : Answers size [] readings outcome) (hsize : 0 < size) :
    outcome = .finished ↔ readings.find? (· ≠ .interrupted) = some (.data []) := by
  -- unless the file is finished, that reading gave some bytes, or failed
  have hother {first : Reading} (hfind : readings.find? (· ≠ .interrupted) = some first)
      (hfirst : first ≠ .data []) (houtcome : outcome ≠ .finished) :
      outcome = .finished ↔ readings.find? (· ≠ .interrupted) = some (.data []) := by
    rw [hfind, Option.some.injEq]
    exact iff_of_false houtcome hfirst
  cases h with
  | full hgoes hchunk hfull =>
    rcases find?_ne_interrupted_append hgoes [] with ⟨bs, hbs, hfind⟩ | ⟨hnone, -⟩
    · rw [List.append_nil] at hfind
      exact hother hfind (by simpa using hbs) (by simp)
    · rw [hchunk, hnone] at hfull
      exact absurd hfull (Nat.ne_of_lt hsize)
  | short hgoes hchunk hsome hless =>
    rcases find?_ne_interrupted_append hgoes [.data []] with ⟨bs, hbs, hfind⟩ | ⟨hnone, -⟩
    · exact hother hfind (by simpa using hbs) (by simp)
    · exact absurd (hchunk.trans hnone) hsome
  | finished hgot hnothing =>
    refine iff_of_true rfl ?_
    rw [List.find?_append, List.find?_eq_none.mpr (by simpa using hnothing)]
    rfl
  | failed hgoes e =>
    rcases find?_ne_interrupted_append hgoes [.failed e] with ⟨bs, hbs, hfind⟩ | ⟨-, hfind⟩
    · exact hother hfind (by simpa using hbs) (by simp)
    · exact hother hfind (by simp) (by simp)

/-- **An error is the first that was met with.** -/
theorem failed_iff (h : Answers size [] readings outcome) (e : IoError) :
    outcome = .failed e ↔ readings.find? Reading.isFailed = some (.failed e) := by
  cases h with
  | full hgoes hchunk hfull =>
    have hfind := find?_isFailed_append hgoes []
    rw [List.append_nil] at hfind
    rw [hfind]
    exact iff_of_false (by simp) (by simp)
  | short hgoes | failed hgoes =>
    rw [find?_isFailed_append hgoes]
    simp [Reading.isFailed, List.find?_cons, eq_comm]
  | finished hgot hnothing =>
    rw [find?_isFailed_append fun x hx => hnothing x hx ▸ rfl]
    simp [Reading.isFailed]

end Answers

/-- **A call that answers what its readings tell is as it should be.** -/
theorem Answers.exact {size : Nat} {c : Call} {outcome : Outcome}
    (h : Answers size [] c.readings outcome) (hsize : 0 < size)
    (houtcome : c.outcome = some outcome) : c.Exact size where
  ends := ⟨outcome, houtcome⟩
  goesOn := h.goesOn_dropLast
  chunk := by
    intro bs hbs
    rw [houtcome, Option.some.injEq] at hbs
    exact (hbs ▸ h).chunk_bounds hsize
  finished_iff := by
    rw [houtcome, Option.some.injEq]
    exact h.finished_iff hsize
  failed_iff := by
    intro e
    rw [houtcome, Option.some.injEq]
    exact h.failed_iff e
  bytes_eq := by
    rw [Call.given, Call.lost, Call.bytes, houtcome]
    generalize c.readings = readings at h
    cases h with
    | full hgoes hchunk => simp [hchunk, Outcome.given]
    | short hgoes hchunk => simp [hchunk, Outcome.given, Reading.bytes]
    | failed hgoes e => rfl
    | finished hgot hnothing =>
      refine List.flatMap_eq_nil_iff.mpr fun x hx => ?_
      rcases List.mem_append.mp hx with hbefore | hlast
      · rw [hnothing x hbefore]
        rfl
      · rw [List.mem_singleton.mp hlast]
        rfl

end ChunkReader

/-! ### Scripts -/

namespace Script

open ChunkReader

/-- **What is read of a script**: nothing, when it has come to its end; what is in front; or the
first bytes of what is in front, if that is longer than was asked for. -/
theorem read_cases (limit : Nat) (s : Script) :
    (s = [] ∧ s.read limit = (.data [], [])) ∨
    (∃ reading rest, s = reading :: rest ∧ reading.bytes.length ≤ limit ∧
      s.read limit = (reading, rest)) ∨
    ∃ bs rest, s = .data bs :: rest ∧ limit < bs.length ∧
      s.read limit = (.data (bs.take limit), .data (bs.drop limit) :: rest) := by
  match s with
  | [] => exact Or.inl ⟨rfl, rfl⟩
  | .interrupted :: rest => exact Or.inr (Or.inl ⟨_, rest, rfl, Nat.zero_le _, rfl⟩)
  | .failed e :: rest => exact Or.inr (Or.inl ⟨_, rest, rfl, Nat.zero_le _, rfl⟩)
  | .data bs :: rest =>
    by_cases hle : bs.length ≤ limit
    · exact Or.inr (Or.inl ⟨_, rest, rfl, hle, if_pos hle⟩)
    · exact Or.inr (Or.inr ⟨bs, rest, rfl, Nat.lt_of_not_le hle, if_neg hle⟩)

/-- A reading gives no more than was asked for. -/
theorem length_bytes_read_le (limit : Nat) (s : Script) :
    (s.read limit).1.bytes.length ≤ limit := by
  rcases s.read_cases limit with ⟨-, hread⟩ | ⟨reading, rest, -, hle, hread⟩ |
    ⟨bs, rest, -, -, hread⟩ <;> rw [hread]
  · exact Nat.zero_le _
  · exact hle
  · exact List.length_take_le _ _

/-- **Readings run a script down**: taken apart, what is in the script is in the readings and in
what is left of it. Only when nothing is left there may be more readings, of no bytes. -/
def RunsDown (s : Script) (readings : List Reading) (left : Script) : Prop :=
  ∃ ends, (0 < ends → left = []) ∧
    s.flatMap Reading.parts ++ List.replicate ends (.data []) =
      readings.flatMap Reading.parts ++ left.flatMap Reading.parts

theorem RunsDown.nil (s : Script) : RunsDown s [] s :=
  ⟨0, fun h => absurd h (Nat.lt_irrefl 0), List.append_nil _⟩

theorem eq_nil_of_parts {s : Script} (h : s.flatMap Reading.parts = []) : s = [] := by
  refine List.eq_nil_iff_forall_not_mem.mpr fun x hx => ?_
  have hparts := List.flatMap_eq_nil_iff.mp h x hx
  rcases x with (_ | ⟨b, bs⟩) | _ | e <;> cases hparts

/-- Some readings, and some more. -/
theorem RunsDown.trans {s s' s'' : Script} {readings more : List Reading}
    (h : RunsDown s readings s') (hmore : RunsDown s' more s'') :
    RunsDown s (readings ++ more) s'' := by
  obtain ⟨m, hm, heq⟩ := h
  obtain ⟨n, hn, heq'⟩ := hmore
  refine ⟨m + n, fun hpos => ?_, ?_⟩
  · by_cases hn' : 0 < n
    · exact hn hn'
    · -- the script had been used up, and nothing was read after that
      rw [hm (by omega), Nat.eq_zero_of_not_pos hn'] at heq'
      exact eq_nil_of_parts (List.append_eq_nil_iff.mp heq'.symm).2
  · calc s.flatMap Reading.parts ++ List.replicate (m + n) (.data [])
        = readings.flatMap Reading.parts ++
            (s'.flatMap Reading.parts ++ List.replicate n (.data [])) := by
          rw [← List.replicate_append_replicate, ← List.append_assoc, heq, List.append_assoc]
      _ = (readings ++ more).flatMap Reading.parts ++ s''.flatMap Reading.parts := by
          rw [heq', List.flatMap_append, List.append_assoc]

/-- One reading does. -/
theorem runsDown_read {limit : Nat} (hlimit : 0 < limit) (s : Script) :
    RunsDown s [(s.read limit).1] (s.read limit).2 := by
  rcases s.read_cases limit with ⟨rfl, hread⟩ | ⟨reading, rest, rfl, -, hread⟩ |
    ⟨bs, rest, rfl, hlong, hread⟩ <;> rw [hread]
  · exact ⟨1, fun _ => rfl, rfl⟩
  · exact ⟨0, fun h => absurd h (Nat.lt_irrefl 0), by simp⟩
  · refine ⟨0, fun h => absurd h (Nat.lt_irrefl 0), ?_⟩
    have htake : bs.take limit ≠ [] :=
      List.ne_nil_of_length_pos (by rw [List.length_take]; omega)
    have hdrop : bs.drop limit ≠ [] :=
      List.ne_nil_of_length_pos (by rw [List.length_drop]; omega)
    have hbs : bs ≠ [] := List.ne_nil_of_length_pos (by omega)
    simp only [List.flatMap_cons, List.flatMap_nil, List.replicate_zero, List.append_nil,
      Reading.parts_of_ne_nil htake, Reading.parts_of_ne_nil hdrop, Reading.parts_of_ne_nil hbs]
    rw [← List.append_assoc, ← List.map_append, List.take_append_drop]

/-- What is in a script is in the readings, or is left. -/
theorem RunsDown.bytes_eq {s s' : Script} {readings : List Reading} (h : RunsDown s readings s') :
    s.flatMap Reading.bytes = readings.flatMap Reading.bytes ++ s'.flatMap Reading.bytes := by
  obtain ⟨ends, -, heq⟩ := h
  have hbytes := congrArg (List.flatMap Reading.bytes) heq
  rw [List.flatMap_append, List.flatMap_append] at hbytes
  simp only [Reading.flatMap_bytes_flatMap_parts] at hbytes
  rw [← hbytes, List.self_eq_append_right]
  exact List.flatMap_eq_nil_iff.mpr fun x hx => List.eq_of_mem_replicate hx ▸ rfl

/-- **A reading that completes nothing makes the script shorter**: at its end a reading completes
something, and so does one that is cut off a longer piece, for it fills the chunk. -/
theorem length_read_lt {r r' : ChunkReader} {s : Script} (hroom : r.got.length < r.size)
    (h : Feeds r (s.read r.wanted).1 r' none) : (s.read r.wanted).2.length < s.length := by
  rcases s.read_cases r.wanted with ⟨-, hread⟩ | ⟨reading, rest, hs, -, hread⟩ |
    ⟨bs, rest, -, hlong, hread⟩
  · rw [hread] at h
    cases h with
    | gathers hsome => exact absurd rfl hsome
  · rw [hread, hs]
    exact Nat.lt_succ_self _
  · rw [hread] at h
    have hwanted : r.wanted = r.size - r.got.length := rfl
    have hlength : (bs.take r.wanted).length = r.wanted :=
      List.length_take_of_le (Nat.le_of_lt hlong)
    generalize bs.take r.wanted = first at h hlength
    cases h with
    | gathers hsome hless =>
      rw [List.length_append] at hless
      omega

/-! ### A call on a script -/

/-- Reading, with every reading noted down. -/
def readNoting (limit : Nat) (s : Script × List Reading) : Reading × Script × List Reading :=
  ((s.1.read limit).1, (s.1.read limit).2, s.2 ++ [(s.1.read limit).1])

/-- **A call on a script comes to an end**, if it may ask once more than there are readings written
down; its readings complete what it answers, and run the script down. -/
theorem next_read {fuel : Nat} :
    ∀ {r : ChunkReader} {s : Script}, r.got.length < r.size → s.length < fuel →
      ∀ noted : List Reading, ∃ readings outcome r' s',
        r.next read fuel s = (some outcome, r', s') ∧
        r.next readNoting fuel (s, noted) = (some outcome, r', s', noted ++ readings) ∧
        Completes r readings outcome r' ∧ RunsDown s readings s' := by
  induction fuel with
  | zero => exact fun _ h => absurd h (Nat.not_lt_zero _)
  | succ fuel ih =>
    intro r s hroom hfuel noted
    have hfeeds := feeds_feed hroom (s.length_bytes_read_le r.wanted)
    have hdown : RunsDown s [(s.read r.wanted).1] (s.read r.wanted).2 :=
      runsDown_read (Nat.sub_pos_of_lt hroom) s
    rw [next, next, readNoting]
    generalize hread : s.read r.wanted = answer at hfeeds hdown
    obtain ⟨reading, s₁⟩ := answer
    generalize hfeed : r.feed reading = fed at hfeeds
    obtain ⟨r₁, completed⟩ := fed
    cases completed with
    | some outcome =>
      refine ⟨[reading], outcome, r₁, s₁, ?_, ?_, .last hfeeds, hdown⟩ <;> simp only [hfeed]
    | none =>
      have hshorter := length_read_lt (s := s) hroom (hread ▸ hfeeds)
      rw [hread] at hshorter
      obtain ⟨readings, outcome, r', s', hnext, hnoting, hcompletes, hrest⟩ :=
        ih (hfeeds.room hroom) (Nat.lt_of_lt_of_le hshorter (Nat.le_of_lt_succ hfuel))
          (noted ++ [reading])
      rw [List.append_assoc] at hnoting
      refine ⟨reading :: readings, outcome, r', s', ?_, ?_, .more hfeeds hcompletes,
        hdown.trans hrest⟩ <;> simp only [hfeed]
      · exact hnext
      · exact hnoting

/-- One call, the reader after it, and what it leaves of the script. -/
def call (r : ChunkReader) (s : Script) : Call × ChunkReader × Script :=
  match s.nextChunk r with
  | (outcome, r', s') =>
    (⟨(r.next readNoting s.fuel (s, [])).2.2.2, outcome, r'.offset⟩, r', s')

/-- **So many calls**, one after the other, and what they leave of the script. -/
def calls : Nat → ChunkReader → Script → List Call × Script
  | 0, _, s => ([], s)
  | n + 1, r, s =>
    match s.call r with
    | (c, r', s') => (c :: (calls n r' s').1, (calls n r' s').2)

/-- **One call**: it answers as it should, has nothing gathered when it is over, and has counted
what it gave out. -/
theorem call_exact {r : ChunkReader} (hgot : r.got = []) (s : Script) {c : Call} {r' : ChunkReader}
    {s' : Script} (h : s.call r = (c, r', s')) :
    c.Exact r.size ∧ RunsDown s c.readings s' ∧ c.offset = r.offset + c.given.length ∧
      r'.got = [] ∧ r'.size = r.size ∧ r'.offset = c.offset := by
  have hroom : r.got.length < r.size := hgot ▸ r.size_pos
  obtain ⟨readings, outcome, r₁, s₁, hnext, hnoting, hcompletes, hdown⟩ :=
    next_read hroom (Nat.lt_succ_self s.length) []
  change r.next read s.fuel s = _ at hnext
  change r.next readNoting s.fuel (s, []) = _ at hnoting
  rw [call, nextChunk, hnext, hnoting, List.nil_append] at h
  cases h
  obtain ⟨hgot', hsize', hoffset'⟩ := hcompletes.leaves
  have hanswers := hcompletes.answers hroom
  rw [hgot] at hanswers
  exact ⟨hanswers.exact r.size_pos rfl, hdown, hoffset', hgot', hsize', rfl⟩

/-- Calls, one after the other, from any reader that has nothing gathered. -/
theorem calls_exact_of_got {r : ChunkReader} (hgot : r.got = []) (s : Script) (k : Nat) :
    (calls k r s).1.length = k ∧ (∀ c ∈ (calls k r s).1, c.Exact r.size) ∧
      RunsDown s ((calls k r s).1.flatMap Call.readings) (calls k r s).2 ∧
      ∀ i c, (calls k r s).1[i]? = some c →
        c.offset = r.offset + (((calls k r s).1.take (i + 1)).flatMap Call.given).length := by
  induction k generalizing r s with
  | zero => exact ⟨rfl, List.forall_mem_nil _, .nil s, fun i c h => by simp [calls] at h⟩
  | succ k ih =>
    rw [calls]
    generalize hcall : s.call r = first
    obtain ⟨c, r', s'⟩ := first
    obtain ⟨hexact, hdown, hoffset, hgot', hsize', hoffset'⟩ := call_exact hgot s hcall
    obtain ⟨hlength, hexacts, hdowns, hoffsets⟩ := ih hgot' s'
    rw [hsize'] at hexacts
    refine ⟨congrArg (· + 1) hlength, List.forall_mem_cons.mpr ⟨hexact, hexacts⟩,
      hdown.trans hdowns, fun i d hd => ?_⟩
    cases i with
    | zero =>
      cases hd
      simpa using hoffset
    | succ i =>
      rw [hoffsets i d hd, hoffset', hoffset, List.take_succ_cons, List.flatMap_cons,
        List.length_append, Nat.add_assoc]

/-- **What a fresh chunk reader makes of a script**, whatever is written down there and however
often it is called: every call ends and is as it should be, those after an error or after the end
of the file too; the readings are the script, in its order; the bytes of the script are those given
out and, in between, those given up by a call that met with an error, and those that are left; and
the offset is always the number of bytes given out. -/
theorem calls_exact (n : Nat) (script : Script) (k : Nat) :
    let run := calls k (.fresh n) script
    run.1.length = k ∧
      (∀ c ∈ run.1, c.Exact (sizeFor n)) ∧
      script.RunsDown (run.1.flatMap Call.readings) run.2 ∧
      script.flatMap Reading.bytes =
        (run.1.flatMap fun c => c.given ++ c.lost) ++ run.2.flatMap Reading.bytes ∧
      ∀ i c, run.1[i]? = some c → c.offset = ((run.1.take (i + 1)).flatMap Call.given).length := by
  intro run
  obtain ⟨hlength, hexact, hdown, hoffset⟩ :=
    calls_exact_of_got (r := .fresh n) rfl script k
  refine ⟨hlength, hexact, hdown, ?_, fun i c hc => ?_⟩
  · rw [hdown.bytes_eq, List.flatMap_assoc]
    congr 1
    exact congrArg List.flatten (List.map_congr_left fun c hc => (hexact c hc).bytes_eq)
  · rw [hoffset i c hc]
    exact Nat.zero_add _

/-- A piece goes into two chunks, and what was read before an error is given up. -/
example :
    (calls 4 (.fresh 2) [.data [1], .data [2, 3], .interrupted, .failed .notFound, .data [4]]).1.map
        (fun c => (c.given, c.lost, c.offset)) =
      [([1, 2], [], 2), ([], [3], 2), ([4], [], 3), ([], [], 3)] := by
  decide

end Script

end LogCourier
