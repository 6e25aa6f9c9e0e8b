import LogCourier.Proofs.Transfer.Account

/-!
# When a file is removed

A transfer removes its file only if somebody wanted it to, and only at the very end.
That holds in any surroundings: whatever opening and reading answer, and whoever
throws when.

A transfer that has not settled has removed nothing, and of those that have settled only
a completed one can have (`LogCourier.Transfer.Standing.removal`). **The removal is then the
last deed of all**, so it is the only one, and before it there is nothing but a transfer
that has finished with its file (`LogCourier.Transfer.Standing.removal_last`).
-/

namespace LogCourier.Transfer

variable {σ : Type}

/-- A deed by which something went wrong: the file was not opened, a reading failed, a
notice was handed over, or somebody threw. -/
def Deed.IsTrouble : Deed → Prop
  | .opened _ _ answer => answer ≠ .opened
  | .read _ answer => ∃ e, answer = .failed e
  | .handed p back => p.content = .error ∨ back = false
  | .removed .. => False

/-- As long as nothing is wrong nothing went wrong. -/
theorem Deed.IsSmooth.not_isTrouble {d : Deed} (h : d.IsSmooth) : ¬ d.IsTrouble := by
  cases d with
  | opened name size answer => exact fun htrouble => htrouble h
  | read limit answer =>
    rintro ⟨e, he⟩
    exact h e he
  | handed p back =>
    obtain ⟨hcontent, hback⟩ := h
    rintro (herror | hthrown)
    · rw [hcontent] at herror
      exact absurd herror (by simp)
    · rw [hback] at hthrown
      exact absurd hthrown (by simp)
  | removed name answer => exact h.elim

/-- Whether a transfer did not, or will not, come to the end of its file. -/
def isLost (t : Transfer) : Bool :=
  match t.phase with
  | .notifying _ | .crashed => true
  | .over r => r.failure.isSome
  | _ => false

/-- **No file is removed, or the transfer is completed and that was its last deed.** -/
theorem Standing.removal {t : Transfer} {deeds : List Deed} (h : Standing t deeds) :
    (∀ d ∈ deeds, d.isRemoval = false) ∨
      ∃ before answer, deeds = before ++ [.removed t.entry.fileName answer] ∧
        Finished t.reader.size before ∧ t.entry.deleteFile = true ∧ t.isLost = false := by
  rcases h.unfinished_or_settled with ⟨hunfinished, -⟩ | ⟨failure, deletion, hphase, hsettled⟩
  · exact Or.inl hunfinished.kept
  · cases hsettled with
    | failed hunfinished f notice hcontent hpayload =>
      left
      intro d hd
      rcases List.mem_append.mp hd with hmem | hmem
      · exact hunfinished.kept d hmem
      · rw [List.mem_singleton.mp hmem]
        rfl
    | removed hfinished wanted answer =>
      exact Or.inr ⟨_, answer, rfl, hfinished, wanted, by simp [isLost, hphase, reportWith]⟩
    | kept hfinished unwanted => exact Or.inl hfinished.smooth.kept

/-- A list that ends in something, cut in front of something: that is what it ends in, or
something before. -/
theorem eq_of_append_singleton_eq {α : Type} {front before after : List α} {x y : α}
    (h : front ++ [x] = before ++ y :: after) :
    (before = front ∧ y = x ∧ after = []) ∨ y ∈ front := by
  -- by what comes last: that is also what the other list ends in
  rcases List.eq_nil_or_concat after with rfl | ⟨init, last, rfl⟩
  · obtain ⟨hfront, hlast⟩ := List.append_inj' h rfl
    exact Or.inl ⟨hfront.symm, (List.cons.inj hlast).1.symm, rfl⟩
  · right
    have hcut : front ++ [x] = (before ++ y :: init) ++ [last] := by
      rw [h, List.append_assoc, List.cons_append, List.concat_eq_append]
    rw [(List.append_inj' hcut rfl).1]
    simp

/-- **A removal is the last deed**, and the file has been finished with. -/
theorem Standing.removal_last {t : Transfer} {before after : List Deed} {name : String}
    {answer : Except IoError Unit} (h : Standing t (before ++ .removed name answer :: after)) :
    name = t.entry.fileName ∧ t.entry.deleteFile = true ∧ after = [] ∧
      Finished t.reader.size before := by
  rcases h.removal with hkept | ⟨front, answer', hdeeds, hfinished, wanted, -⟩
  · exact absurd (hkept (.removed name answer) (by simp)) (by simp [Deed.isRemoval])
  · rcases eq_of_append_singleton_eq hdeeds.symm with ⟨rfl, heq, rfl⟩ | hmem
    · exact ⟨(Deed.removed.inj heq).1, wanted, rfl, hfinished⟩
    · exact absurd (hfinished.smooth.kept _ hmem) (by simp [Deed.isRemoval])

/-- At most one file is removed. -/
theorem Standing.length_filter_isRemoval_le {t : Transfer} {deeds : List Deed}
    (h : Standing t deeds) : (deeds.filter Deed.isRemoval).length ≤ 1 := by
  rcases h.removal with hkept | ⟨before, answer, rfl, hfinished, -, -⟩
  · rw [List.filter_eq_nil_iff.mpr (by simpa using hkept)]
    exact Nat.zero_le 1
  · rw [List.filter_append,
      List.filter_eq_nil_iff.mpr (by simpa using hfinished.smooth.kept), List.nil_append]
    exact List.length_filter_le _ _

/-- A transfer that is lost, or to which something went wrong, keeps its file. -/
theorem Standing.kept_of_trouble {t : Transfer} {deeds : List Deed} (h : Standing t deeds)
    (htrouble : t.isLost = true ∨ ∃ d ∈ deeds, d.IsTrouble) :
    ∀ d ∈ deeds, d.isRemoval = false := by
  rcases h.removal with hkept | ⟨before, answer, rfl, hfinished, -, hlost⟩
  · exact hkept
  -- if the file was removed, nothing had gone wrong
  · rcases htrouble with hyes | ⟨d, hd, hdtrouble⟩
    · rw [hlost] at hyes
      exact absurd hyes (by simp)
    · rcases List.mem_append.mp hd with hmem | hmem
      · exact absurd hdtrouble (hfinished.smooth d hmem).not_isTrouble
      · rw [List.mem_singleton.mp hmem] at hdtrouble
        exact hdtrouble.elim

/-- **A file is removed at most once, and only when all of it has been handed on.**

This is said of any run of a transfer in any surroundings, by way of its record. Whatever
stands before a removal, the file is the one asked for and was to be removed; nothing comes
after; the last thing before it was to ask for a whole chunk, and there was no more; every
byte read until then is in a packet that was taken; every packet handed over was a piece of
the file, and nobody threw. A transfer that failed or crashed, at whatever point, removes
nothing. -/
theorem removal_safe (around : Surroundings σ) (entry : Entry) (chunkSize n : Nat) (s : σ) :
    let t := ((fresh entry chunkSize).run around n s).1
    let deeds := ((fresh entry chunkSize).run around.recorded n (s, [])).2.2
    (deeds.filter Deed.isRemoval).length ≤ 1 ∧
    (∀ before name answer after, deeds = before ++ .removed name answer :: after →
      name = entry.fileName ∧ entry.deleteFile = true ∧ after = [] ∧
      (∃ earlier, before = earlier ++ [.read (ChunkReader.sizeFor chunkSize) (.data [])]) ∧
      received before = content (taken before) ∧
      (∀ p back, .handed p back ∈ before → p.content = .info ∧ back = true) ∧
      ∀ d ∈ before, ¬ d.IsTrouble) ∧
    ((t.isLost = true ∨ ∃ d ∈ deeds, d.IsTrouble) → ∀ d ∈ deeds, d.isRemoval = false) := by
  intro t deeds
  have hcourse : Course (fresh entry chunkSize) deeds t := by
    have hsame := (run_recorded around n (fresh entry chunkSize) s []).1
    rw [← show _ = t from hsame]
    exact course_run around n _ s
  obtain ⟨-, hstanding⟩ := hcourse.sound_fresh
  obtain ⟨hentry, hsize⟩ := hcourse.keepsEntry
  refine ⟨hstanding.length_filter_isRemoval_le, ?_, hstanding.kept_of_trouble⟩
  intro before name answer after hdeeds
  rw [hdeeds] at hstanding
  obtain ⟨hname, hwanted, hafter, hfinished⟩ := hstanding.removal_last
  rw [hentry] at hname hwanted
  rw [hsize] at hfinished
  exact ⟨hname, hwanted, hafter, hfinished.last, hfinished.received,
    fun p back hmem => hfinished.smooth _ hmem,
    fun d hd => (hfinished.smooth d hd).not_isTrouble⟩

end LogCourier.Transfer
