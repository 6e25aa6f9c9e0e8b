import LogCourier.Entry
import LogCourier.Proofs.Bytes

/-!
# What an entry promises

An entry that was read from a record has a name as long as the record said, and not longer than
any name may be.
-/

namespace LogCourier.Entry

/-- A name that was read has the bytes it was read from, and not too many. -/
theorem ofText_of_readName {said : Nat} {rest : Bytes} {name : String}
    (h : readName said rest = .ok name) :
    Bytes.ofText name = rest ∧ rest.length = said ∧ 1 ≤ said ∧ said ≤ maxNameLength := by
  unfold readName at h
  split at h
  · exact absurd h (by simp)
  split at h
  · exact absurd h (by simp)
  split at h
  · exact absurd h (by simp)
  split at h
  · exact absurd h (by simp)
  split at h
  · rename_i name' htext
    rw [← Except.ok.inj h]
    exact ⟨Bytes.ofText_of_text? htext, by omega, by omega, by omega⟩
  · exact absurd h (by simp)

/-- **The name of an entry that was read is not too long.** -/
theorem length_fileName_le_of_decode {record : Bytes} {entry : Entry}
    (h : decode record = .ok entry) :
    (Bytes.ofText entry.fileName).length ≤ maxNameLength := by
  unfold decode at h
  split at h
  · rename_i v a₀ a₁ a₂ a₃ c₀ c₁ c₂ c₃ flag hi lo rest
    simp only [bind, Except.bind, pure, Except.pure] at h
    split at h
    · exact absurd h (by simp)
    split at h
    · exact absurd h (by simp)
    split at h
    · exact absurd h (by simp)
    split at h
    · exact absurd h (by simp)
    split at h
    · exact absurd h (by simp)
    · rename_i name hname
      obtain ⟨htext, hlength, -, hle⟩ := ofText_of_readName hname
      rw [← Except.ok.inj h, htext, hlength]
      exact hle
  · exact absurd h (by simp)

end LogCourier.Entry
