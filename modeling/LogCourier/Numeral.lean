/-!
# Numerals

Numbers as they are written: in base ten, in base sixteen with letters of either
case, and now and then in base two and eight. Reading takes digits one by one;
writing is core's `Nat.toDigits`, whose letters are lower-case.
-/

namespace LogCourier.Numeral

/-- The digit that a character stands for: `0` to `9`, and `a` to `f` of either
case for ten to fifteen. -/
def digit? (c : Char) : Option Nat :=
  let n := c.toNat
  if 48 ≤ n ∧ n ≤ 57 then some (n - 48)
  else if 97 ≤ n ∧ n ≤ 102 then some (n - 87)
  else if 65 ≤ n ∧ n ≤ 70 then some (n - 55)
  else none

/-- Whether a character is a digit in a base of at most sixteen. -/
def isDigit (base : Nat) (c : Char) : Bool :=
  match digit? c with
  | some d => d < base
  | none => false

/-- The number that digits stand for, the first being the most significant. -/
def value (base : Nat) (digits : List Char) : Nat :=
  digits.foldl (fun n c => base * n + (digit? c).getD 0) 0

/-- The number that digits stand for, if it is below a bound. Reading stops with the
first digit that reaches it, since further ones do not make a number smaller. -/
def below? (base bound : Nat) (digits : List Char) : Option Nat :=
  go 0 digits
where
  /-- The same, behind digits that stand for `n`. -/
  go (n : Nat) : List Char → Option Nat
    | [] => if n < bound then some n else none
    | c :: rest =>
      if n < bound then go (base * n + (digit? c).getD 0) rest else none

/-- Further digits make a number no smaller. -/
theorem le_foldl_digit {base : Nat} (hb : 0 < base) (digits : List Char) (n : Nat) :
    n ≤ digits.foldl (fun n c => base * n + (digit? c).getD 0) n := by
  induction digits generalizing n with
  | nil => exact Nat.le_refl n
  | cons c rest ih =>
    have h : n ≤ base * n := Nat.le_mul_of_pos_left n hb
    exact Nat.le_trans (Nat.le_trans h (Nat.le_add_right _ _)) (ih _)

/-- Reading below a bound finds the number exactly if it is there. -/
theorem below?_eq_some_iff {base bound n : Nat} (hb : 0 < base) {digits : List Char} :
    below? base bound digits = some n ↔ value base digits = n ∧ n < bound := by
  suffices go_iff : ∀ k, below?.go base bound k digits = some n ↔
      digits.foldl (fun n c => base * n + (digit? c).getD 0) k = n ∧ n < bound from go_iff 0
  intro k
  induction digits generalizing k with
  | nil =>
    by_cases hk : k < bound
    · simp only [below?.go, hk, if_true, Option.some.injEq, List.foldl_nil]
      exact ⟨fun h => ⟨h, h ▸ hk⟩, fun h => h.1⟩
    · simp only [below?.go, hk, if_false, List.foldl_nil, reduceCtorEq, false_iff]
      exact fun h => hk (h.1 ▸ h.2)
  | cons c rest ih =>
    by_cases hk : k < bound
    · simp only [below?.go, hk, if_true]
      exact ih _
    · simp only [below?.go, hk, if_false, reduceCtorEq, false_iff]
      exact fun h => hk (Nat.lt_of_le_of_lt (h.1 ▸ le_foldl_digit hb (c :: rest) k) h.2)

/-- The digits that a text starts with, and the rest of it. -/
def split (base : Nat) (cs : List Char) : List Char × List Char :=
  cs.span (isDigit base)

/-- The text of a number. -/
def text (base n : Nat) : String :=
  String.ofList (Nat.toDigits base n)

end LogCourier.Numeral
