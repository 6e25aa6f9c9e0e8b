import Mathlib.Algebra.GroupWithZero.Nat
import Mathlib.Data.List.TakeDrop

/-!
# Lists with one thing changed

What happens, happens to one of many things at a time: there is one packet more, or one job of a
pool is another. The others stay where they are. Here is what this means for whatever is said of a
list place by place, and for whatever is counted, added up or picked out of it.

At the end there is what readers of text need, who take from a list what it starts with.
-/

namespace LogCourier

variable {α β : Type}

/-! ### One thing more -/

/-- What stands at a place of a list with one thing more behind it stood there before, or is that
thing. -/
theorem getElem?_concat_cases {l : List α} {a b : α} {k : Nat}
    (h : (l ++ [a])[k]? = some b) : l[k]? = some b ∨ (k = l.length ∧ b = a) := by
  rcases Nat.lt_trichotomy k l.length with hk | rfl | hk
  · rw [List.getElem?_append_left hk] at h
    exact Or.inl h
  · rw [List.getElem?_concat_length, Option.some.injEq] at h
    exact Or.inr ⟨rfl, h.symm⟩
  · rw [List.getElem?_eq_none (by simpa using Nat.succ_le_of_lt hk)] at h
    exact absurd h (by simp)

/-- What holds of each thing at its place, and of one more behind them, holds of all. -/
theorem forall_getElem?_concat {l : List α} {a : α} {Q : Nat → α → Prop}
    (h : ∀ k b, l[k]? = some b → Q k b) (ha : Q l.length a) (k : Nat) (b : α)
    (hb : (l ++ [a])[k]? = some b) : Q k b := by
  rcases getElem?_concat_cases hb with hold | ⟨rfl, rfl⟩
  · exact h k b hold
  · exact ha

/-! ### Something else at a place -/

/-- What stands at a place of a list where something was put is that, or stood there before. -/
theorem getElem?_set_cases {l : List α} {a b : α} {n k : Nat}
    (h : (l.set n a)[k]? = some b) : (k = n ∧ b = a) ∨ (k ≠ n ∧ l[k]? = some b) := by
  rw [List.getElem?_set] at h
  split at h
  · rename_i heq
    split at h
    · exact Or.inl ⟨heq.symm, (Option.some.inj h).symm⟩
    · exact absurd h (by simp)
  · rename_i hne
    exact Or.inr ⟨fun heq => hne heq.symm, h⟩

/-- Something else at a place, of which one sees the same. -/
theorem map_set_of_eq {g : α → β} {l : List α} {i : Nat} {b c : α}
    (hb : l[i]? = some b) (h : g c = g b) : (l.set i c).map g = l.map g := by
  rw [List.map_set, h]
  obtain ⟨hi, rfl⟩ := List.getElem?_eq_some_iff.mp hb
  rw [← List.getElem_map g (h := by simpa using hi), List.set_getElem_self]

/-- A list with something else at a place, counted. -/
theorem countP_set_add {P : α → Bool} {l : List α} {i : Nat} {a : α}
    (h : l[i]? = some a) (b : α) :
    (l.set i b).countP P + (if P a then 1 else 0) = l.countP P + (if P b then 1 else 0) := by
  obtain ⟨hi, rfl⟩ := List.getElem?_eq_some_iff.mp h
  have hle := List.boole_getElem_le_countP (p := P) hi
  rw [List.countP_set hi]
  omega

/-- A list with something else at a place, added up. -/
theorem sum_map_set_add {f : α → Nat} {l : List α} {i : Nat} {a : α}
    (h : l[i]? = some a) (b : α) :
    ((l.set i b).map f).sum + f a = (l.map f).sum + f b := by
  induction l generalizing i with
  | nil => exact absurd h (by simp)
  | cons c l ih =>
    cases i with
    | zero =>
      obtain rfl : c = a := Option.some.inj h
      simp only [List.set_cons_zero, List.map_cons, List.sum_cons]
      omega
    | succ i =>
      have hrest := ih h
      simp only [List.set_cons_succ, List.map_cons, List.sum_cons]
      omega

/-- Something new at a place where nothing was: it comes on top of the rest. -/
theorem filterMap_set_perm {g : α → Option β} {l : List α} {i : Nat} {b : α}
    (hb : l[i]? = some b) (hnone : g b = none) (c : α) :
    ((l.set i c).filterMap g).Perm (l.filterMap g ++ (g c).toList) := by
  induction l generalizing i with
  | nil => exact absurd hb (by simp)
  | cons d l ih =>
    cases i with
    | zero =>
      obtain rfl : d = b := Option.some.inj hb
      rw [List.set_cons_zero, List.filterMap_cons, List.filterMap_cons, hnone]
      cases g c with
      | none => exact .of_eq (List.append_nil _).symm
      | some z => exact (List.perm_append_singleton z _).symm
    | succ i =>
      have hrest := ih hb
      rw [List.set_cons_succ, List.filterMap_cons, List.filterMap_cons]
      cases g d with
      | none => exact hrest
      | some z => exact hrest.cons z

/-! ### The first thing that will do -/

/-- Two searches that find something for the same things find it for the same thing, or nothing. -/
theorem findSome?_cases {γ : Type} {g : α → Option β} {g' : α → Option γ}
    (h : ∀ a, (g a).isSome = (g' a).isSome) (l : List α) :
    (l.findSome? g = none ∧ l.findSome? g' = none) ∨
      ∃ a b c, g a = some b ∧ g' a = some c ∧
        l.findSome? g = some b ∧ l.findSome? g' = some c := by
  induction l with
  | nil => exact Or.inl ⟨rfl, rfl⟩
  | cons a l ih =>
    rw [List.findSome?_cons, List.findSome?_cons]
    have ha := h a
    cases hg : g a with
    | none =>
      have hg' : g' a = none := by
        rw [hg] at ha
        exact Option.isNone_iff_eq_none.mp (Option.isSome_eq_false_iff.mp ha.symm)
      rw [hg']
      exact ih
    | some b =>
      rw [hg] at ha
      obtain ⟨c, hc⟩ := Option.isSome_iff_exists.mp ha.symm
      exact Or.inr ⟨a, b, c, hg, hc, rfl, by rw [hc]⟩

/-! ### What a list starts with -/

/-- What a test tells apart is not the same. -/
theorem ne_of_test {p : α → Bool} {a b : α} (ha : p a = true) (hb : p b = false) : a ≠ b := by
  rintro rfl
  rw [ha] at hb
  exact absurd hb (by simp)

/-- What holds of the first thing of a list. -/
theorem forall_head?_cons {P : α → Prop} {a : α} {l : List α} (h : P a) :
    ∀ b ∈ (a :: l).head?, P b :=
  fun _ hb => Option.some.inj hb ▸ h

/-- Nothing is taken from a list that does not start with it. -/
theorem dropWhile_of_head? {p : α → Bool} {l : List α} (h : ∀ a ∈ l.head?, p a = false) :
    l.dropWhile p = l := by
  cases l with
  | nil => rfl
  | cons a l => rw [List.dropWhile_cons_of_neg (by simp [h a rfl])]

/-- **What is put before something else is told apart from it**, if that starts otherwise. -/
theorem span_append_of_pos {p : α → Bool} {l rest : List α} (h : ∀ a ∈ l, p a = true)
    (hrest : ∀ a ∈ rest.head?, p a = false) : (l ++ rest).span p = (l, rest) := by
  have htake : rest.takeWhile p = [] := by
    cases rest with
    | nil => rfl
    | cons a rest => rw [List.takeWhile_cons_of_neg (by simp [hrest a rfl])]
  rw [List.span_eq_takeWhile_dropWhile, List.takeWhile_append_of_pos h,
    List.dropWhile_append_of_pos h, htake, dropWhile_of_head? hrest, List.append_nil]

end LogCourier
