/-
# UnicoreTsi.Lib.Pacing — a sender that pauses longer and longer while it is too fast.

The account of such a sender is charged with what it sends and credited with the permitted rate for the time that
goes by; its balance is the *excess*.  The sender knows no more than whether the excess is negative: then it goes
on, and shortens its pause; otherwise it lengthens the pause by `gain` and takes it.  A charge is at most `burst`.

The pauses of a stretch in which the excess is not negative are at least `gain`, `2 * gain`, `3 * gain` and so
on, so the charges of the stretch are linear and the credits quadratic in its length (`Paced`).  The excess is
therefore bounded by a number that depends on the three parameters only (`Paced.bound`).
-/
import Mathlib.Tactic.Linarith
import Mathlib.Tactic.Positivity
import Mathlib.Tactic.Ring

set_option autoImplicit false

namespace UnicoreTsi.Pacing

variable {R : Type} [CommRing R] [LinearOrder R] [IsStrictOrderedRing R]

/-- After `k` charges in a row with an excess that was not negative: the pause has grown `k` times, and the excess
is at most that of `k + 1` charges less the credit for the pauses, whose lengths add up to
`gain * k * (k + 1) / 2`. -/
def Paced (gain rate burst excess pause : R) : Prop :=
  ∃ k : ℕ, gain * k ≤ pause ∧ 2 * excess ≤ (k + 1) * (2 * burst - gain * rate * k)

variable {gain rate burst excess pause : R}

/-- A stretch begins with a charge on an account that was in credit. -/
theorem Paced.first (hexcess : excess ≤ burst) (hpause : 0 ≤ pause) : Paced gain rate burst excess pause := by
  refine ⟨0, ?_, ?_⟩
  · rw [Nat.cast_zero, mul_zero]
    exact hpause
  · rw [Nat.cast_zero, mul_zero, zero_add, one_mul, sub_zero]
    linarith

/-- Time that goes by without a charge. -/
theorem Paced.mono {excess' : R} (h : Paced gain rate burst excess pause) (hexcess : excess' ≤ excess) :
    Paced gain rate burst excess' pause := by
  obtain ⟨k, hpause, hk⟩ := h
  exact ⟨k, hpause, by linarith⟩

/-- The pause is lengthened and taken, and then there is another charge. -/
theorem Paced.next (hrate : 0 ≤ rate) (h : Paced gain rate burst excess pause) :
    Paced gain rate burst (excess - rate * (pause + gain) + burst) (pause + gain) := by
  obtain ⟨k, hpause, hk⟩ := h
  refine ⟨k + 1, ?_, ?_⟩
  · rw [Nat.cast_add, Nat.cast_one, mul_add, mul_one]
    linarith
  · -- the credit for this pause is that for `k + 1` times the gain, at least
    have hcredit : rate * (gain * k) ≤ rate * pause := mul_le_mul_of_nonneg_left hpause hrate
    rw [Nat.cast_add, Nat.cast_one]
    calc 2 * (excess - rate * (pause + gain) + burst)
        = 2 * excess + 2 * burst - 2 * (rate * pause) - 2 * (rate * gain) := by ring
      _ ≤ (k + 1) * (2 * burst - gain * rate * k) + 2 * burst - 2 * (rate * (gain * k)) - 2 * (rate * gain) := by
        linarith
      _ = (k + 1 + 1) * (2 * burst - gain * rate * (k + 1)) := by ring

/-- The excess is bounded: of two factors with a fixed sum, the product is greatest where they are equal. -/
theorem Paced.bound (hgain : 0 < gain) (hrate : 0 < rate) (h : Paced gain rate burst excess pause) :
    8 * (gain * rate) * excess ≤ (2 * burst + gain * rate) ^ 2 := by
  obtain ⟨k, -, hk⟩ := h
  have hstep : 0 < gain * rate := mul_pos hgain hrate
  have hscaled : 4 * (gain * rate) * (2 * excess) ≤
      4 * (gain * rate) * ((k + 1) * (2 * burst - gain * rate * k)) :=
    mul_le_mul_of_nonneg_left hk (by positivity)
  have hsquare : 0 ≤ (gain * rate * (k + 1) - (2 * burst - gain * rate * k)) ^ 2 := sq_nonneg _
  calc 8 * (gain * rate) * excess = 4 * (gain * rate) * (2 * excess) := by ring
    _ ≤ 4 * (gain * rate) * ((k + 1) * (2 * burst - gain * rate * k)) := hscaled
    _ = (2 * burst + gain * rate) ^ 2 - (gain * rate * (k + 1) - (2 * burst - gain * rate * k)) ^ 2 := by ring
    _ ≤ (2 * burst + gain * rate) ^ 2 := by linarith

end UnicoreTsi.Pacing
