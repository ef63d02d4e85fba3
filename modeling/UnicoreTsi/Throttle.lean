/-
# UnicoreTsi.Throttle — the arithmetic that limits the rate of a forwarded connection.

After every buffer the loop of `transfer` divides by the milliseconds since its start, one added so that a quick
first round does not divide by zero.  The wall clock may be set back: a reading one millisecond before the start
makes the divisor zero all the same, and the division is outside the `try` block, so the thread ends without
`close`.  Apart from that reading only numbers that no connection comes to are in the way: a quotient beyond the
doubles, and a sleep of more than 292 years (`throttle_safe_iff`).
-/
import UnicoreTsi.Forwarding

set_option autoImplicit false

namespace UnicoreTsi.Forwarding

open UnicoreTsi.Utils UnicoreTsi.Steps

/-- `interval = int(time()*1000 - start_time) + 1` for a clock that shows milliseconds. -/
def measuredAt (start now : Int) : Event := .measured (now - start + 1)

/-- A reading of the clock with which the throttling of this round does not raise. -/
structure SafeReading (rateLimit start : Int) (t : Transfer) (now : Int) : Prop where
  not_before : now ≠ start - 1
  quotient : (nearestDouble (1000 * t.total) (now - start + 1).natAbs).isSome = true
  sleep : Transfer.belowRate t.total (now - start + 1) rateLimit = some false → t.sleepTime + 5 ≤ Transfer.maxSleep

/-- The thread has not ended by an exception, it has left its loop exactly if it is in `close`, and what it
sleeps is not negative. -/
structure Throttled (t : Transfer) : Prop where
  alive : t.point ≠ .dead
  left : t.ending.isSome = true ↔ ∃ closed, t.point = .closing closed
  sleepTime : 0 ≤ t.sleepTime

/-! ## One round -/

theorem belowRate_eq_none_iff (total : Nat) (interval rateLimit : Int) :
    Transfer.belowRate total interval rateLimit = none ↔
      interval = 0 ∨ nearestDouble (1000 * total) interval.natAbs = none := by
  unfold Transfer.belowRate
  split
  · rename_i hzero
    simp [hzero]
  · rename_i hzero
    simp [hzero]

/-- A comparison that is made: the divisor is not zero, and the quotient is a double. -/
theorem belowRate_eq_some {total : Nat} {interval rateLimit : Int} {b : Bool}
    (h : Transfer.belowRate total interval rateLimit = some b) :
    interval ≠ 0 ∧ (nearestDouble (1000 * total) interval.natAbs).isSome = true := by
  have hdivides := mt (belowRate_eq_none_iff total interval rateLimit).mpr (by rw [h]; exact Option.some_ne_none b)
  rw [not_or] at hdivides
  exact ⟨hdivides.1, Option.ne_none_iff_isSome.mp hdivides.2⟩

section Round

variable {rateLimit : Int} {t : Transfer}

/-- The throttling of a round ends the thread exactly when the reading is not safe. -/
theorem limitRate_alive_iff {start now : Int} (hsleep : 0 ≤ t.sleepTime) :
    (t.limitRate rateLimit (now - start + 1)).point ≠ .dead ↔ SafeReading rateLimit start t now := by
  unfold Transfer.limitRate
  split
  · rename_i hraised
    -- a division that raises
    constructor
    · intro halive
      exact absurd rfl halive
    · intro hsafe
      rcases (belowRate_eq_none_iff t.total (now - start + 1) rateLimit).mp hraised with hzero | hoverflow
      · exact absurd (show now = start - 1 by omega) hsafe.not_before
      · have hquotient := hsafe.quotient
        rw [hoverflow] at hquotient
        cases hquotient
  · rename_i hbelow
    -- the rate is below the limit: the sleep time gets shorter
    obtain ⟨hdivisor, hquotient⟩ := belowRate_eq_some hbelow
    constructor
    · intro _
      refine ⟨by omega, hquotient, ?_⟩
      intro hnot
      rw [hbelow] at hnot
      cases hnot
    · intro _
      nofun
  · rename_i hbelow
    -- the limit is reached: the thread sleeps, if `time.sleep` takes the number
    obtain ⟨hdivisor, hquotient⟩ := belowRate_eq_some hbelow
    split
    · rename_i hlong
      constructor
      · intro halive
        exact absurd rfl halive
      · intro hsafe
        have hshort := hsafe.sleep hbelow
        omega
    · rename_i hshort
      constructor
      · intro _
        exact ⟨by omega, hquotient, fun _ => by omega⟩
      · intro _
        nofun

theorem limitRate_sleepTime {interval : Int} (hsleep : 0 ≤ t.sleepTime) :
    0 ≤ (t.limitRate rateLimit interval).sleepTime := by
  unfold Transfer.limitRate
  split
  · exact hsleep
  · exact Int.tdiv_nonneg hsleep (by decide)
  · split
    · show 0 ≤ t.sleepTime + 5
      omega
    · show 0 ≤ t.sleepTime + 5
      omega

/-- A step other than the reading of the clock neither ends the thread nor touches its sleep time. -/
theorem Moves.unthrottled {t' : Transfer} {e : Event} (hmoves : Moves rateLimit t e t')
    (he : ∀ interval, e ≠ .measured interval) : (t.point ≠ .dead → t'.point ≠ .dead) ∧ t'.sleepTime = t.sleepTime := by
  cases hmoves with
  | measure hpoint hnext => exact absurd rfl (he _)
  | send hpoint hn hnext =>
      refine ⟨fun _ => ?_, rfl⟩
      rcases hnext with rfl | rfl
      · nofun
      · nofun
  | exit hpoint => exact ⟨id, rfl⟩
  | receive hpoint hsome => exact ⟨fun _ => nofun, rfl⟩
  | finish hpoint => exact ⟨fun _ => nofun, rfl⟩
  | failReceiving hpoint => exact ⟨fun _ => nofun, rfl⟩
  | failSending hpoint => exact ⟨fun _ => nofun, rfl⟩
  | wake hpoint => exact ⟨fun _ => nofun, rfl⟩
  | close hpoint hlt => exact ⟨fun _ => nofun, rfl⟩

/-- The clock is read when the loop gets to the throttling. -/
theorem advance_measured {interval : Int} {t' : Transfer} (h : t.advance rateLimit (.measured interval) = some t') :
    t' = t.limitRate rateLimit interval := by
  unfold Transfer.advance at h
  cases hpoint : t.point with
  | measuring =>
      rw [hpoint] at h
      exact (Option.some.inj h).symm
  | _ =>
      rw [hpoint] at h
      cases h

/-- What a step keeps: the thread is alive, and its sleep time is not negative. -/
theorem advance_throttled {start : Int} {t' : Transfer} {e : Event} (h : t.advance rateLimit e = some t')
    (hsafe : ∀ now, e = measuredAt start now → SafeReading rateLimit start t now)
    (halive : t.point ≠ .dead) (hsleep : 0 ≤ t.sleepTime) : t'.point ≠ .dead ∧ 0 ≤ t'.sleepTime := by
  by_cases he : ∃ interval, e = .measured interval
  · obtain ⟨interval, rfl⟩ := he
    have hreading : interval = (start + interval - 1) - start + 1 := by omega
    have hnow := hsafe (start + interval - 1) (congrArg Event.measured hreading)
    rw [advance_measured h]
    refine ⟨?_, limitRate_sleepTime hsleep⟩
    rw [hreading]
    exact (limitRate_alive_iff hsleep).mpr hnow
  · have hmoves := (moves_of_advance h).unthrottled fun interval hmeasured => he ⟨interval, hmeasured⟩
    rw [hmoves.2]
    exact ⟨hmoves.1 halive, hsleep⟩

/-- A thread that has ended takes no step. -/
theorem advance_dead {e : Event} (hdead : t.point = .dead) : t.advance rateLimit e = none := by
  unfold Transfer.advance
  rw [hdead]

theorem runs_of_dead {t' : Transfer} {steps : List (Transfer × Event)}
    (hruns : Runs (Transfer.advance rateLimit) t steps t') (hdead : t.point = .dead) : t' = t := by
  induction hruns with
  | start => rfl
  | step hruns hstep ih =>
      rw [ih, advance_dead hdead] at hstep
      cases hstep

end Round

/-! ## Every run -/

section Run

variable {rateLimit : Int} {steps : List (Transfer × Event)} {t : Transfer}

/-- No step makes the sleep time negative. -/
theorem sleepTime_nonneg (hruns : Runs (Transfer.advance rateLimit) {} steps t) : 0 ≤ t.sleepTime := by
  apply hruns.always (Int.le_refl 0)
  intro s e s' hs hstep
  by_cases he : ∃ interval, e = .measured interval
  · obtain ⟨interval, rfl⟩ := he
    rw [advance_measured hstep]
    exact limitRate_sleepTime hs
  · rw [((moves_of_advance hstep).unthrottled fun interval hmeasured => he ⟨interval, hmeasured⟩).2]
    exact hs

/-- **The throttling is safe.**  In every run of a thread: it has left its loop only through the loop's own exits
and for `close`, and never sleeps a negative time, if and only if every reading of the clock was safe. -/
theorem throttle_safe_iff (hruns : Runs (Transfer.advance rateLimit) {} steps t) (start : Int) :
    Throttled t ↔ ∀ p ∈ steps, ∀ now, p.2 = measuredAt start now → SafeReading rateLimit start p.1 now := by
  constructor
  · rintro ⟨halive, -, -⟩ ⟨s, e⟩ hmem now he
    obtain rfl : e = measuredAt start now := he
    obtain ⟨before, s', rest, hbefore, hstep, hrest⟩ := hruns.after hmem
    -- an unsafe reading would have been the last step
    rw [← limitRate_alive_iff (sleepTime_nonneg hbefore), ← advance_measured hstep]
    intro hdead
    rw [runs_of_dead hrest hdead] at halive
    exact halive hdead
  · intro hsteps
    have hsound : Sound t := hruns.always sound_start fun _ _ _ hs hstep => (moves_of_advance hstep).sound hs
    have hkept : t.point ≠ .dead ∧ 0 ≤ t.sleepTime := by
      apply hruns.invariant (P := fun s e => ∀ now, e = measuredAt start now → SafeReading rateLimit start s now)
        hsteps ⟨nofun, Int.le_refl 0⟩
      intro s e s' hs hsafe hstep
      exact advance_throttled hstep hsafe hs.1 hs.2
    exact ⟨hkept.1, hsound.ended, hkept.2⟩

end Run

/-- A first round of half a second. -/
theorem throttle_safe_iff_round :
    ∃ steps t, Runs (Transfer.advance 1024) {} steps t ∧ t.point = .receiving ∧
      (Throttled t ↔
        ∀ p ∈ steps, ∀ now, p.2 = measuredAt 1000 now → SafeReading 1024 1000 p.1 now) := by
  have hruns := runs_of_trace (show trace (Transfer.advance 1024) {}
    [.received [1, 2], .sent 2, measuredAt 1000 1500] = some (_, _) from rfl)
  exact ⟨_, _, hruns, by decide +kernel, throttle_safe_iff hruns 1000⟩

/-- The clock is set back by a millisecond during the first round. -/
theorem clock_set_back_kills :
    ¬ ∀ (rateLimit : Int) (steps : List (Transfer × Event)) (t : Transfer), 0 < rateLimit →
      Runs (Transfer.advance rateLimit) {} steps t → Throttled t := by
  intro h
  have hruns := runs_of_trace (show trace (Transfer.advance 1024) {}
    [.received [1, 2], .sent 2, measuredAt 1000 999] = some (_, _) from rfl)
  have hdead := (h 1024 _ _ (by decide) hruns).alive
  exact hdead (by decide +kernel)

end UnicoreTsi.Forwarding
