import LogCourier.Numeral
import LogCourier.Proofs.Lists
import Mathlib.Data.List.Basic

/-!
# Numbers that are written and read

A number is written with the digits that core gives it, and these digits stand for the number again
(`LogCourier.Numeral.value_toDigits`). There are no zeros in front of them, which matters to readers
that refuse such (`LogCourier.Numeral.head?_toDigits`).
-/

namespace LogCourier.Numeral

/-- Each digit in base sixteen is read again. -/
theorem digit?_digitChar : ∀ {d : Nat}, d < 16 → digit? (Nat.digitChar d) = some d := by
  decide

/-- A digit that is added at the end stands for itself, and the others for more than before. -/
theorem value_concat (base : Nat) (digits : List Char) (c : Char) :
    value base (digits ++ [c]) = base * value base digits + (digit? c).getD 0 := by
  rw [value, List.foldl_append]
  rfl

section Written

variable {base : Nat} (hone : 1 < base) (hmost : base ≤ 16)

include hone hmost

/-- **The digits of a number stand for it.** -/
theorem value_toDigits (n : Nat) : value base (Nat.toDigits base n) = n := by
  induction n using Nat.strongRecOn with
  | ind n ih =>
    rw [Nat.toDigits_eq_if hone]
    split
    · rename_i hlt
      change base * 0 + (digit? n.digitChar).getD 0 = n
      rw [digit?_digitChar (Nat.lt_of_lt_of_le hlt hmost), Nat.mul_zero, Nat.zero_add]
      rfl
    · rename_i hge
      have hmod := Nat.mod_lt n (Nat.zero_lt_of_lt hone)
      rw [value_concat, ih _ (Nat.div_lt_self (by omega) hone),
        digit?_digitChar (Nat.lt_of_lt_of_le hmod hmost)]
      exact Nat.div_add_mod n base

/-- They are digits in that base. -/
theorem isDigit_of_mem_toDigits (n : Nat) {c : Char} (hc : c ∈ Nat.toDigits base n) :
    isDigit base c = true := by
  have key (d : Nat) (hd : d < base) : isDigit base d.digitChar = true := by
    rw [isDigit, digit?_digitChar (Nat.lt_of_lt_of_le hd hmost)]
    exact decide_eq_true hd
  induction n using Nat.strongRecOn with
  | ind n ih =>
    rw [Nat.toDigits_eq_if hone] at hc
    split at hc
    · rename_i hlt
      rw [List.mem_singleton.mp hc]
      exact key n hlt
    · rename_i hge
      rcases List.mem_append.mp hc with hc | hc
      · exact ih _ (Nat.div_lt_self (by omega) hone) hc
      · rw [List.mem_singleton.mp hc]
        exact key _ (Nat.mod_lt n (Nat.zero_lt_of_lt hone))

/-- **There is no zero in front**, but for the number zero. -/
theorem head?_toDigits (n : Nat) (h : (Nat.toDigits base n).head? = some '0') : n = 0 := by
  induction n using Nat.strongRecOn with
  | ind n ih =>
    rw [Nat.toDigits_eq_if hone] at h
    split at h
    · rename_i hlt
      have hdigit := digit?_digitChar (Nat.lt_of_lt_of_le hlt hmost)
      rw [Option.some.inj h] at hdigit
      exact (Option.some.inj hdigit).symm
    · rename_i hge
      rw [List.head?_append_of_ne_nil _ Nat.toDigits_ne_nil] at h
      have hzero := ih _ (Nat.div_lt_self (by omega) hone) h
      rw [Nat.div_eq_zero_iff] at hzero
      omega

/-- A number that is written before something else is told apart from it. -/
theorem split_toDigits (n : Nat) {rest : List Char}
    (hrest : ∀ c ∈ rest.head?, isDigit base c = false) :
    split base (Nat.toDigits base n ++ rest) = (Nat.toDigits base n, rest) :=
  span_append_of_pos (fun _ => isDigit_of_mem_toDigits hone hmost n) hrest

/-- A number below a bound is read from its digits. -/
theorem below?_toDigits {n bound : Nat} (h : n < bound) :
    below? base bound (Nat.toDigits base n) = some n :=
  (below?_eq_some_iff (Nat.zero_lt_of_lt hone)).mpr ⟨value_toDigits hone hmost n, h⟩

end Written

/-- A zero in front changes nothing. -/
theorem value_zero_cons (base : Nat) (digits : List Char) :
    value base ('0' :: digits) = value base digits := by
  rfl

end LogCourier.Numeral
