import LogCourier.Host
import LogCourier.Proofs.Channel.Sending
import LogCourier.Proofs.Entry
import LogCourier.Proofs.Pool.Admission
import LogCourier.Proofs.Transfer.Fitting

/-!
# Transfers that share an emitter

The transfers of a pool have one thing in common, and that is whoever takes their packets. Each
has a source of its own. A **hall** is that: the sources by their places, the one emitter, and
the log (`LogCourier.Hall`).

A step of one transfer does not touch the source of another, so each is as faithful to its file
as it would be alone. That is the **lane** of a transfer (`LogCourier.Hall.Lane`): **what it has
done is faithful, and whatever it will hand over fits a message**. A step of its own keeps it
there (`LogCourier.Hall.Lane.step`), and a step of another does not concern it.
-/

namespace LogCourier

open Transfer

/-! ### Sources -/

/-- Where a transfer gets its file from, with a state `ρ`. -/
structure Transfer.Source (ρ : Type) where
  /-- Open the file of that name, to read it in chunks of so many bytes. -/
  openSource : String → Nat → ρ → Opening × ρ
  /-- Read at most so many bytes of it. -/
  read : Nat → ρ → Reading × ρ
  /-- Remove the file of that name. -/
  remove : String → ρ → Except IoError Unit × ρ

/-- **A source with fixed contents**: if it can be opened, it gives the bytes it has, and then no
more, or an error. Its errors are named in a few bytes. -/
structure Transfer.Source.Supplies {ρ : Type} (source : Source ρ) (left : ρ → Bytes)
    (ending : Option IoError) : Prop where
  /-- Opening reads nothing. -/
  opens : ∀ name size r, left (source.openSource name size r).2 = left r
  /-- A reading gives some of what is left. -/
  reads : ∀ limit r, 0 < limit →
    Gives ending limit (left r) (source.read limit r).1 (left (source.read limit r).2)
  /-- It is briefly said why it cannot be opened. -/
  brief : ∀ name size r e, (source.openSource name size r).1 = .failed e → IsBrief e
  /-- It is briefly said why it cannot be read on. -/
  briefEnding : ∀ e, ending = some e → IsBrief e

/-- What transfers side by side have: their sources, an emitter with a state `ε`, and a log. -/
structure Hall (ρ ε : Type) where
  /-- The sources, by the places of their transfers. -/
  sources : Nat → ρ
  /-- The state of the emitter. -/
  output : ε
  /-- What has been told, the last thing last. -/
  log : List Event

namespace Hall

variable {ρ ε : Type}

/-- A hall with another source at a place. -/
def setSource (h : Hall ρ ε) (place : Nat) (r : ρ) : Hall ρ ε :=
  { h with sources := fun i => if i = place then r else h.sources i }

/-- A hall where something more has been told. -/
def tell (told : List Event) (h : Hall ρ ε) : Hall ρ ε :=
  { h with log := h.log ++ told }

/-- **The surroundings of the transfer at a place.** -/
def surroundings (e : Emitter ε) (sources : Nat → Source ρ) (place : Nat) :
    Surroundings (Hall ρ ε) where
  openSource name size h :=
    match (sources place).openSource name size (h.sources place) with
    | (answer, r) => (answer, h.setSource place r)
  read limit h :=
    match (sources place).read limit (h.sources place) with
    | (reading, r) => (reading, h.setSource place r)
  ticks h := e.ticks h.output
  take p h :=
    match e.take p h.output with
    | (back, told, output) => (back, { h with output, log := h.log ++ told })
  remove name h :=
    match (sources place).remove name (h.sources place) with
    | (answer, r) => (answer, h.setSource place r)
  tell event h := { h with log := h.log ++ [event] }

/-- One step of the transfer at a place. -/
def work (e : Emitter ε) (sources : Nat → Source ρ) (place : Nat) (j : Pool.Job)
    (h : Hall ρ ε) : Pool.Job × Hall ρ ε :=
  match j.transfer.step (surroundings e sources place) h with
  | (transfer, h) => ({ j with transfer }, h)

@[simp] theorem setSource_sources_self (h : Hall ρ ε) (place : Nat) (r : ρ) :
    (h.setSource place r).sources place = r := if_pos rfl

theorem setSource_sources_of_ne (h : Hall ρ ε) {place i : Nat} (hne : i ≠ place) (r : ρ) :
    (h.setSource place r).sources i = h.sources i := if_neg hne

/-- Telling of something changes the log only. -/
theorem tellAll_surroundings (e : Emitter ε) (sources : Nat → Source ρ) (place : Nat)
    (told : List Event) (h : Hall ρ ε) :
    ((surroundings e sources place).tellAll told h).sources = h.sources ∧
      ((surroundings e sources place).tellAll told h).output = h.output := by
  induction told generalizing h with
  | nil => exact ⟨rfl, rfl⟩
  | cons event told ih => exact ih { h with log := h.log ++ [event] }

/-- **What a transfer does to a hall**: it leaves the sources of others alone, and unless it hands
over a packet it leaves the emitter alone. -/
theorem performs_cases {e : Emitter ε} {sources : Nat → Source ρ} {place : Nat} {h h' : Hall ρ ε}
    {new : List Deed} (hperforms : Performs (surroundings e sources place) h new h') :
    (∀ i, i ≠ place → h'.sources i = h.sources i) ∧
      ((h'.output = h.output ∧ ∀ p back, .handed p back ∉ new) ∨
        ∃ p, new = [.handed p (e.take p h.output).1] ∧ h'.output = (e.take p h.output).2.2) := by
  cases hperforms with
  | nothing => exact ⟨fun _ _ => rfl, Or.inl ⟨rfl, by simp⟩⟩
  | opened name size => exact ⟨fun i hi => h.setSource_sources_of_ne hi _, Or.inl ⟨rfl, by simp⟩⟩
  | read limit => exact ⟨fun i hi => h.setSource_sources_of_ne hi _, Or.inl ⟨rfl, by simp⟩⟩
  | handed p => exact ⟨fun _ _ => rfl, Or.inr ⟨p, rfl, rfl⟩⟩
  | removed name => exact ⟨fun i hi => h.setSource_sources_of_ne hi _, Or.inl ⟨rfl, by simp⟩⟩

/-! ### One transfer -/

/-- **What each transfer has done**: it has carried its file faithfully as far as it has come, and
each packet it will hand over fits a message. -/
structure Lane (left : ρ → Bytes) (file : Bytes) (t : Transfer) (deeds : List Deed) (r : ρ) :
    Prop where
  /-- It does its work as it should, and what is left of the file is in its source. -/
  faithful : ∃ rest, Faithful file t deeds rest ∧ (t.isOver = false → rest = left r)
  /-- The errors it met with are brief. -/
  brief : Brief deeds
  /-- Its chunks fit a message. -/
  size_le : t.reader.size ≤ Packet.maxPayload
  /-- Its file has a name that fits. -/
  name_le : (Bytes.ofText t.entry.fileName).length ≤ Entry.maxNameLength

namespace Lane

variable {left : ρ → Bytes} {file : Bytes} {t t' : Transfer} {deeds new : List Deed}
  {e : Emitter ε} {sources : Nat → Source ρ} {place : Nat} {h h' : Hall ρ ε}

/-- What a step of a transfer takes from its source, as long as the transfer goes on. -/
theorem exists_draws {ending : Option IoError} (hlane : Lane left file t deeds (h.sources place))
    (hsupplies : (sources place).Supplies left ending) {told : List Event}
    (hdoes : Does t new told t')
    (hperforms : Performs (surroundings e sources place) h new h') :
    ∃ rest, Draws ending (left (h.sources place)) new rest ∧
      (t'.isOver = false → rest = left (h'.sources place)) := by
  cases hperforms with
  | nothing => exact ⟨_, .others fun _ _ => by simp, fun _ => rfl⟩
  | opened name size =>
    refine ⟨_, .others fun _ _ => by simp, fun _ => ?_⟩
    exact (hsupplies.opens name size _).symm.trans
      (congrArg left (h.setSource_sources_self place _)).symm
  | read limit =>
    have hlimit : 0 < limit := by
      obtain ⟨rest, hfaithful, -⟩ := hlane.faithful
      cases hdoes with
      | reads hphase =>
        have hstanding := hfaithful.standing
        simp only [Standing, hphase] at hstanding
        rw [ChunkReader.wanted]
        omega
    refine ⟨_, .reading (hsupplies.reads limit _ hlimit), fun _ => ?_⟩
    exact (congrArg left (h.setSource_sources_self place _)).symm
  | handed p => exact ⟨_, .others fun _ _ => by simp, fun _ => rfl⟩
  | removed name =>
    -- a transfer that removes its file is over then
    refine ⟨_, .others fun _ _ => by simp, fun hlive => ?_⟩
    cases hdoes
    exact absurd hlive (by simp [isOver, completed])

/-- What a transfer meets with is brief. -/
theorem brief_append {ending : Option IoError} (hlane : Lane left file t deeds (h.sources place))
    (hsupplies : (sources place).Supplies left ending)
    (hdraws : ∃ rest, Draws ending (left (h.sources place)) new rest)
    (hperforms : Performs (surroundings e sources place) h new h') : Brief (deeds ++ new) := by
  intro d hd error herror
  rcases List.mem_append.mp hd with hmem | hmem
  · exact hlane.brief d hmem error herror
  cases hperforms with
  | nothing => exact absurd hmem (by simp)
  | opened name size =>
    rw [List.mem_singleton.mp hmem] at herror
    rcases hopen : (sources place).openSource name size (h.sources place) with ⟨answer, r⟩
    simp only [surroundings, hopen] at herror
    cases answer with
    | failed e' =>
      obtain rfl : e' = error := Option.some.inj herror
      exact hsupplies.brief name size (h.sources place) e' (by rw [hopen])
    | _ => exact absurd herror (by simp [Deed.error?])
  | read limit =>
    rw [List.mem_singleton.mp hmem] at herror
    obtain ⟨rest, hdraws⟩ := hdraws
    cases hdraws with
    | reading hgives =>
      cases hread : ((surroundings e sources place).read limit h).1 with
      | failed e' =>
        rw [hread] at hgives herror
        obtain rfl : e' = error := Option.some.inj herror
        exact hsupplies.briefEnding e' hgives.of_failed
      | _ =>
        rw [hread] at herror
        exact absurd herror (by simp [Deed.error?])
    | others hnone => exact absurd (List.mem_singleton.mpr rfl) (hnone limit _)
  | handed p =>
    rw [List.mem_singleton.mp hmem] at herror
    exact absurd herror (by simp [Deed.error?])
  | removed name =>
    rw [List.mem_singleton.mp hmem] at herror
    exact absurd herror (by simp [Deed.error?])

/-- **A step of its own keeps a transfer in its lane.** -/
theorem step {ending : Option IoError} (hlane : Lane left file t deeds (h.sources place))
    (hsupplies : (sources place).Supplies left ending) (hlive : t.isOver = false)
    {told : List Event} (hdoes : Does t new told t')
    (hperforms : Performs (surroundings e sources place) h new h') :
    Lane left file t' (deeds ++ new) (h'.sources place) := by
  obtain ⟨rest, hdraws, hrest⟩ := hlane.exists_draws hsupplies hdoes hperforms
  obtain ⟨former, hfaithful, hformer⟩ := hlane.faithful
  rw [← hformer hlive] at hdraws
  obtain ⟨hentry, hsize⟩ := hdoes.keepsEntry
  refine ⟨⟨rest, hfaithful.does hdoes hdraws, hrest⟩, ?_, hsize ▸ hlane.size_le,
    hentry ▸ hlane.name_le⟩
  rw [hformer hlive] at hdraws
  exact hlane.brief_append hsupplies ⟨rest, hdraws⟩ hperforms

end Lane

end Hall

end LogCourier
