import LogCourier.Clock

/-!
# Time between two ticks

A message carries its ticks without the whole turns of a 32-bit field, and whoever receives two
messages takes the difference of their ticks, again in 32 bits. This file says what that difference
is worth: **the whole ticks that went by, or one more** (`LogCourier.Instant.ticks_elapsed`),
however many turns the field has made between the two instants and before the first.

The one more is no error of the division. Ticks begin at the origin and not at the first instant, so
the ticks between two instants are counted at the marks of the origin, and a stretch that is not a
whole number of ticks long may hold one mark more than another of the same length. It does exactly
if the second instant is less far behind its last mark than the first one is behind its own
(`LogCourier.Instant.ticks_sub`).
-/

namespace LogCourier

namespace Instant

/-- The nanoseconds of a tick. -/
def tickNanos : Nat := 100000

/-- The ticks of an instant are the whole ticks since the origin, without the turns of the field: it
does not matter that the microseconds are taken first. -/
theorem toNat_ticks (t origin : Instant) :
    (t.ticks origin).toNat = (t.nanos - origin.nanos) / tickNanos % 4294967296 := by
  rw [ticks, since, UInt32.toNat_ofNat', Nat.div_div_eq_div_mul, tickNanos]

/-- Before the origin no tick has passed. -/
theorem ticks_of_le {t origin : Instant} (h : t.nanos ≤ origin.nanos) : t.ticks origin = 0 := by
  rw [← UInt32.toNat_inj, toNat_ticks, Nat.sub_eq_zero_of_le h]
  rfl

/-- Whole ticks of a stretch of time that follows another one: those of its own, and one more if
what the two leave over makes a tick. -/
theorem add_div_tickNanos (m n : Nat) :
    (m + n) / tickNanos = m / tickNanos + (n / tickNanos +
      if (m + n) % tickNanos < m % tickNanos then 1 else 0) := by
  have hm := Nat.mod_lt m (show 0 < tickNanos by decide)
  rw [tickNanos] at *
  split <;> omega

/-- **The difference of two ticks** is the whole ticks between the instants, and one more if the
second is less far behind a mark of the origin. -/
theorem ticks_sub {origin a b : Instant} (ha : origin.nanos ≤ a.nanos) (hb : a.nanos ≤ b.nanos) :
    b.ticks origin - a.ticks origin = UInt32.ofNat ((b.nanos - a.nanos) / tickNanos +
      if (b.nanos - origin.nanos) % tickNanos < (a.nanos - origin.nanos) % tickNanos then 1
      else 0) := by
  have hsplit : b.nanos - origin.nanos = (a.nanos - origin.nanos) + (b.nanos - a.nanos) := by omega
  have hmarks := add_div_tickNanos (a.nanos - origin.nanos) (b.nanos - a.nanos)
  rw [← hsplit] at hmarks
  rw [← UInt32.toNat_inj, UInt32.toNat_sub, toNat_ticks, toNat_ticks, hmarks, UInt32.toNat_ofNat']
  omega

/-- As long as the field has not made a whole turn, later instants have no fewer ticks. -/
theorem ticks_le_ticks {origin a b : Instant} (hab : a.nanos ≤ b.nanos)
    (hturn : (b.nanos - origin.nanos) / tickNanos < 4294967296) :
    a.ticks origin ≤ b.ticks origin := by
  have hmarks : (a.nanos - origin.nanos) / tickNanos ≤ (b.nanos - origin.nanos) / tickNanos :=
    Nat.div_le_div_right (by omega)
  rw [UInt32.le_iff_toNat_le, toNat_ticks, toNat_ticks, Nat.mod_eq_of_lt hturn,
    Nat.mod_eq_of_lt (Nat.lt_of_le_of_lt hmarks hturn)]
  exact hmarks

/-- **Ticks measure the time that went by.**

From an instant that is not before the origin to a later one the ticks grow by the whole ticks
between the two or by one more, in the arithmetic of the field and so across any number of its
turns. The ticks of a single instant are the whole ticks since the origin, without the turns. They
never get fewer while the field is in its first turn, and before the origin they are none. -/
theorem ticks_elapsed (origin : Instant) :
    (∀ a b : Instant, origin.nanos ≤ a.nanos → a.nanos ≤ b.nanos →
      let q := (b.nanos - a.nanos) / tickNanos
      b.ticks origin - a.ticks origin = UInt32.ofNat q ∨
        b.ticks origin - a.ticks origin = UInt32.ofNat (q + 1)) ∧
    (∀ a : Instant, origin.nanos ≤ a.nanos →
      (a.ticks origin).toNat = (a.nanos - origin.nanos) / tickNanos % 4294967296) ∧
    (∀ a b : Instant, a.nanos ≤ b.nanos → b.nanos - origin.nanos < 4294967296 * tickNanos →
      a.ticks origin ≤ b.ticks origin) ∧
    ∀ t : Instant, t.nanos < origin.nanos → t.ticks origin = 0 := by
  refine ⟨fun a b ha hb => ?_, fun a _ => toNat_ticks a origin, fun a b hab hturn => ?_,
    fun t ht => ticks_of_le (Nat.le_of_lt ht)⟩
  · rw [ticks_sub ha hb]
    split
    · exact .inr rfl
    · exact .inl rfl
  · exact ticks_le_ticks hab (Nat.div_lt_of_lt_mul (Nat.mul_comm _ _ ▸ hturn))

/-- A tick and a half go by while the field begins again: it shows one tick more if the first
instant is half a tick behind a mark, and not if it is at a mark. -/
theorem ticks_elapsed_turning :
    let origin : Instant := ⟨7⟩
    let last : Instant := ⟨7 + 4294967295 * tickNanos⟩
    (last.ticks origin = 4294967295 ∧ (last.later 150000).ticks origin = 0 ∧
      ((last.later 150000).ticks origin - last.ticks origin = UInt32.ofNat 1 ∨
        (last.later 150000).ticks origin - last.ticks origin = UInt32.ofNat (1 + 1))) ∧
    ((last.later 50000).ticks origin = 4294967295 ∧ (last.later 200000).ticks origin = 1 ∧
      ((last.later 200000).ticks origin - (last.later 50000).ticks origin = UInt32.ofNat 1 ∨
        (last.later 200000).ticks origin - (last.later 50000).ticks origin =
          UInt32.ofNat (1 + 1))) ∧
    (⟨6⟩ : Instant).ticks origin ≤ last.ticks origin ∧ (⟨6⟩ : Instant).ticks origin = 0 := by
  intro origin last
  have h := ticks_elapsed origin
  have hwhole : ((last.later 150000).nanos - last.nanos) / tickNanos = 1 := by decide
  have hhalf : ((last.later 200000).nanos - (last.later 50000).nanos) / tickNanos = 1 := by decide
  have hfirst := h.1 last (last.later 150000) (by decide) (by decide)
  have hsecond := h.1 (last.later 50000) (last.later 200000) (by decide) (by decide)
  simp only [hwhole] at hfirst
  simp only [hhalf] at hsecond
  exact ⟨⟨by decide, by decide, hfirst⟩, ⟨by decide, by decide, hsecond⟩,
    h.2.2.1 ⟨6⟩ last (by decide) (by decide), h.2.2.2 ⟨6⟩ (by decide)⟩

end Instant

end LogCourier
