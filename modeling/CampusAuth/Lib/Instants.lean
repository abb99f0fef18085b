import Mathlib.Algebra.Order.Ring.Nat

/- Schedules: sets of instants with the next one after any time.

   An upcoming instant computed at a time `t` misses none after `t` (`Schedule.after_le`). -/
namespace CampusAuth.Lib

structure Schedule where
  instant : Nat → Prop
  /-- The first instant later than the time. -/
  after : Nat → Option Nat
  after_spec : ∀ t d, after t = some d → t < d ∧ instant d
  after_first : ∀ t d, instant d → t < d → ∃ first, after t = some first ∧ first ≤ d

namespace Schedule

/-- The upcoming instant is not later than any other one. -/
theorem after_le (s : Schedule) {t d first : Nat} (hd : s.instant d) (hlt : t < d)
    (hfirst : s.after t = some first) : first ≤ d := by
  obtain ⟨other, hother, hle⟩ := s.after_first t d hd hlt
  rw [hfirst] at hother
  cases hother
  exact hle

/-- The multiples of a period. -/
def every (period : Nat) (hpos : 0 < period) : Schedule where
  instant d := period ∣ d
  after t := some ((t / period + 1) * period)
  after_spec := by
    intro t d hd
    cases hd
    refine ⟨?_, Nat.dvd_mul_left ..⟩
    have hsplit := Nat.div_add_mod t period
    have hrest := Nat.mod_lt t hpos
    calc t = period * (t / period) + t % period := hsplit.symm
      _ < period * (t / period) + period := by omega
      _ = (t / period + 1) * period := by rw [Nat.add_mul, Nat.one_mul, Nat.mul_comm]
  after_first := by
    rintro t d ⟨n, rfl⟩ hlt
    refine ⟨_, rfl, ?_⟩
    have hn : t / period < n := by
      rw [Nat.div_lt_iff_lt_mul hpos, Nat.mul_comm]
      exact hlt
    calc (t / period + 1) * period ≤ n * period := Nat.mul_le_mul_right _ hn
      _ = period * n := Nat.mul_comm _ _

end Schedule
end CampusAuth.Lib
