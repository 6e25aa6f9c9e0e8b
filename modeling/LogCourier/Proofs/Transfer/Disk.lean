import LogCourier.Transfer.Site

/-!
# What a disk lets through

A disk stands between a file and whoever reads it. It may refuse to open the file, may fail at any
place of it, and may give less than was asked for. What it never does is to make something up, so of
the files all that has to be known is what they hold:

* what is opened through a disk is what the files have under that name
  (`LogCourier.Disk.openFile_eq_ok`);
* **a reading through a disk is a reading of the file, perhaps of fewer bytes than were asked for,
  or it fails and nothing has moved** (`LogCourier.Disk.read_cases`).
-/

namespace LogCourier

namespace Disk

variable {disk : Disk} {t : FileTree}

/-- What is opened through a disk is there. -/
theorem openFile_eq_ok {path : String} {f : OpenFile} (h : disk.openFile t path = .ok f) :
    t.openFile path = .ok f := by
  unfold openFile at h
  split at h
  · exact absurd h (by simp)
  · rename_i g hopen
    split at h
    · exact absurd h (by simp)
    · rw [← Except.ok.inj h]
      exact hopen

/-- **What a reading through a disk is**: a reading of the file, for no more bytes than were asked
for, or a failure. -/
theorem read_cases (disk : Disk) (t : FileTree) (limit : Nat) (f : OpenFile) :
    (∃ e, disk.read t limit f = (.failed e, f)) ∨
    ∃ fewer ≤ limit, disk.read t limit f = t.read fewer f := by
  unfold read
  split
  · exact .inr ⟨limit, Nat.le_refl _, rfl⟩
  · exact .inr ⟨limit, Nat.le_refl _, rfl⟩
  · rename_i most _
    exact .inr ⟨min limit (most + 1), Nat.min_le_left _ _, rfl⟩
  · rename_i e _
    exact .inl ⟨e, rfl⟩

end Disk

end LogCourier
