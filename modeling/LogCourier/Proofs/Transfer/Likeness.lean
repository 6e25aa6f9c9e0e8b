import LogCourier.Proofs.Transfer.Streaming

/-!
# The same transfer in two places

A transfer knows of its surroundings only what they answer. So if two surroundings answer alike, a
transfer goes on alike in them, whatever else they may be: **a step leads to the same transfer, and
the surroundings are related as before** (`LogCourier.Transfer.step_alike`).

Only the question that the step asks has to be answered alike. The packet that a transfer hands
over is the one thing that may differ, and only in its time: what the transfer gives to it is the
content and the payload (`LogCourier.Transfer.due`).
-/

namespace LogCourier

namespace Transfer

variable {α σ τ : Type}

/-- The same answer, and what is left is related. -/
def Alike (R : σ → τ → Prop) (x : α × σ) (y : α × τ) : Prop :=
  x.1 = y.1 ∧ R x.2 y.2

/-- What is in the packet that a transfer is about to hand over, if it is. -/
def due (t : Transfer) : Option (Packet.Content × Bytes) :=
  match t.phase with
  | .handing chunk => some (.info, chunk)
  | .notifying failure => some (.error, Bytes.ofText (failure.notice t.entry.fileName))
  | _ => none

/-- The packet has a time, and else it is the same at any time. -/
theorem untimed_packet (t : Transfer) (content : Packet.Content) (payload : Bytes)
    (ticks ticks' : UInt32) :
    (t.packet content payload ticks).untimed = (t.packet content payload ticks').untimed :=
  rfl

/-- **In two surroundings that answer alike a step is alike.** -/
theorem step_alike {here : Surroundings σ} {there : Surroundings τ} {R : σ → τ → Prop}
    {t : Transfer} {s : σ} {u : τ} (h : R s u)
    (hopens : t.phase = .opening →
      Alike R (here.openSource t.entry.fileName t.reader.size s)
        (there.openSource t.entry.fileName t.reader.size u))
    (hreads : t.phase = .reading →
      Alike R (here.read t.reader.wanted s) (there.read t.reader.wanted u))
    (htakes : ∀ content payload, t.due = some (content, payload) →
      Alike R (here.take (t.packet content payload (here.ticks s)) s)
        (there.take (t.packet content payload (there.ticks u)) u))
    (hremoves : t.phase = .closing →
      Alike R (here.remove t.entry.fileName s) (there.remove t.entry.fileName u))
    (htells : ∀ event s u, R s u → R (here.tell event s) (there.tell event u)) :
    Alike R (t.step here s) (t.step there u) := by
  cases hphase : t.phase with
  | opening =>
    obtain ⟨hanswer, hrest⟩ := hopens hphase
    rcases hopen : here.openSource t.entry.fileName t.reader.size s with ⟨answer, s'⟩
    rcases hopen' : there.openSource t.entry.fileName t.reader.size u with ⟨answer', u'⟩
    rw [hopen, hopen'] at hanswer hrest
    obtain rfl : answer = answer' := hanswer
    simp only [step, hphase, hopen, hopen']
    cases answer with
    | opened => exact ⟨rfl, htells _ _ _ hrest⟩
    | failed e => exact ⟨rfl, hrest⟩
    | noRoom => exact ⟨rfl, hrest⟩
  | reading =>
    obtain ⟨hanswer, hrest⟩ := hreads hphase
    rcases hread : here.read t.reader.wanted s with ⟨answer, s'⟩
    rcases hread' : there.read t.reader.wanted u with ⟨answer', u'⟩
    rw [hread, hread'] at hanswer hrest
    obtain rfl : answer = answer' := hanswer
    simp only [step, hphase, hread, hread']
    exact ⟨rfl, hrest⟩
  | handing chunk =>
    obtain ⟨hanswer, hrest⟩ := htakes .info chunk (by simp only [due, hphase])
    rcases htake : here.take (t.packet .info chunk (here.ticks s)) s with ⟨back, s'⟩
    rcases htake' : there.take (t.packet .info chunk (there.ticks u)) u with ⟨back', u'⟩
    rw [htake, htake'] at hanswer hrest
    obtain rfl : back = back' := hanswer
    simp only [step, hphase, htake, htake']
    cases back <;> exact ⟨rfl, hrest⟩
  | notifying failure =>
    obtain ⟨hanswer, hrest⟩ := htakes .error (Bytes.ofText (failure.notice t.entry.fileName))
      (by simp only [due, hphase])
    rcases htake : here.take (t.packet .error (Bytes.ofText (failure.notice t.entry.fileName))
      (here.ticks s)) s with ⟨back, s'⟩
    rcases htake' : there.take (t.packet .error (Bytes.ofText (failure.notice t.entry.fileName))
      (there.ticks u)) u with ⟨back', u'⟩
    rw [htake, htake'] at hanswer hrest
    obtain rfl : back = back' := hanswer
    simp only [step, hphase, htake, htake']
    cases back with
    | true => exact ⟨rfl, htells _ _ _ hrest⟩
    | false => exact ⟨rfl, hrest⟩
  | closing =>
    cases hwanted : t.entry.deleteFile with
    | true =>
      obtain ⟨hanswer, hrest⟩ := hremoves hphase
      rcases hremove : here.remove t.entry.fileName s with ⟨answer, s'⟩
      rcases hremove' : there.remove t.entry.fileName u with ⟨answer', u'⟩
      rw [hremove, hremove'] at hanswer hrest
      obtain rfl : answer = answer' := hanswer
      simp only [step, hphase, removeSource, hwanted, if_true, hremove, hremove']
      exact ⟨rfl, htells _ _ _ (htells _ _ _ hrest)⟩
    | false =>
      simp only [step, hphase, removeSource, hwanted, Bool.false_eq_true, if_false]
      exact ⟨rfl, htells _ _ _ h⟩
  | «over» r =>
    simp only [step, hphase]
    exact ⟨rfl, h⟩
  | crashed =>
    simp only [step, hphase]
    exact ⟨rfl, h⟩

end Transfer

end LogCourier
