import LogCourier.Channel
import Mathlib.Logic.Relation

/-!
# The clock of an outlet

A channel waits until the time of its last datagram and an interval more, and there has to be such a
time: a clock does not count beyond `LogCourier.Instant.limit`. Nothing is known of the states that
an outlet might be in, and most of them it never comes to. So what is asked for is about one run:
**whatever has led to the state at its end was early enough**
(`LogCourier.Channel.Outlet.HadTime`). A channel changes its outlet in two ways, by sleeping and
by sending, and what they lead to is `LogCourier.Channel.Outlet.Leads`.

A clock that is never turned back (`LogCourier.Channel.Outlet.Steady`) has only to be read once,
at the end (`LogCourier.Channel.Outlet.Steady.hadTime`). That the clock ticks while the outlet
sleeps or sends does no harm to either.
-/

namespace LogCourier.Channel

variable {σ : Type} {out : Outlet σ}

/-! ### What leads to a state -/

/-- **What happens to an outlet** that a channel has. -/
inductive Outlet.Moves (out : Outlet σ) (s : σ) : σ → Prop
  /-- It slept. -/
  | slept (nanos : Nat) : Moves out s (out.sleep nanos s)
  /-- A datagram was handed to it. -/
  | handed (slices : List Bytes) : Moves out s (out.send slices s).2

/-- One state leads to another, in any number of moves. -/
def Outlet.Leads (out : Outlet σ) : σ → σ → Prop :=
  Relation.ReflTransGen out.Moves

namespace Outlet.Leads

theorem refl (out : Outlet σ) (s : σ) : out.Leads s s :=
  Relation.ReflTransGen.refl

theorem trans {s₁ s₂ s₃ : σ} (h : out.Leads s₁ s₂) (h' : out.Leads s₂ s₃) : out.Leads s₁ s₃ :=
  Relation.ReflTransGen.trans h h'

theorem await (out : Outlet σ) (nanos : Nat) (s : σ) : out.Leads s (await out nanos s) := by
  unfold Channel.await
  split
  · exact refl out s
  · exact Relation.ReflTransGen.single (.slept nanos)

/-- After a wait a datagram is handed over. -/
theorem send_await (out : Outlet σ) (slices : List Bytes) (nanos : Nat) (s : σ) :
    out.Leads s (out.send slices (Channel.await out nanos s)).2 :=
  Relation.ReflTransGen.tail (await out nanos s) (.handed slices)

end Outlet.Leads

/-! ### Time enough -/

/-- **The clock has had time for a pause**, whenever it was read on the way to a state. -/
def Outlet.HadTime (out : Outlet σ) (pause : Nat) (s : σ) : Prop :=
  ∀ s₀, out.Leads s₀ s → (out.now s₀).nanos + pause < Instant.limit

/-- It had time before, then. -/
theorem Outlet.HadTime.of_leads {pause : Nat} {s s' : σ} (h : out.HadTime pause s')
    (hleads : out.Leads s s') : out.HadTime pause s :=
  fun s₀ hbefore => h s₀ (hbefore.trans hleads)

/-! ### Clocks that are never turned back -/

/-- **An outlet whose clock is never turned back**, and that sleeps as long as it is asked to, or
longer. -/
structure Outlet.Steady (out : Outlet σ) : Prop where
  /-- A sleep takes its time. -/
  sleeps : ∀ nanos s, (out.now s).nanos + nanos ≤ (out.now (out.sleep nanos s)).nanos
  /-- Sending does not turn the clock back. -/
  sends : ∀ slices s, (out.now s).nanos ≤ (out.now (out.send slices s).2).nanos

/-- After a wait it is as late as it should be. -/
theorem Outlet.Steady.await_le (h : out.Steady) (nanos : Nat) (s : σ) :
    (out.now s).nanos + nanos ≤ (out.now (await out nanos s)).nanos := by
  unfold await
  split
  · rename_i hzero
    rw [hzero]
    exact Nat.le_refl _
  · exact h.sleeps nanos s

/-- **What leads to a state is earlier.** -/
theorem Outlet.Steady.now_le (h : out.Steady) {s s' : σ} (hleads : out.Leads s s') :
    (out.now s).nanos ≤ (out.now s').nanos := by
  induction hleads with
  | refl => exact Nat.le_refl _
  | tail _ hmove ih =>
    refine Nat.le_trans ih ?_
    cases hmove with
    | slept nanos => exact Nat.le_of_add_right_le (h.sleeps nanos _)
    | handed slices => exact h.sends slices _

/-- Its clock had time enough if it still has. -/
theorem Outlet.Steady.hadTime (h : out.Steady) {pause : Nat} {s : σ}
    (hnow : (out.now s).nanos + pause < Instant.limit) : out.HadTime pause s :=
  fun _ hbefore => Nat.lt_of_le_of_lt (Nat.add_le_add_right (h.now_le hbefore) pause) hnow

end LogCourier.Channel
