/-
# UnicoreTsi.RateLimit — how fast a forwarded connection can be.

The loop of `transfer` compares the average rate since its start with the limit after every buffer, and sleeps five
milliseconds longer each time the limit is reached, half as long (and not at all) when it is not.  So a connection
can run ahead of its limit, but never by more than a fixed number of bytes, whatever the buffers and the clock
readings are: the argument is that of `Pacing`.  It holds for both directions of a connection, in every
interleaving of the two threads (`both_directions_limited`).
-/
import UnicoreTsi.Lib.Pacing
import UnicoreTsi.Numbers
import UnicoreTsi.Throttle

set_option autoImplicit false

namespace UnicoreTsi.Utils

/-- The exponent of a double is chosen so that the mantissa has 53 bits. -/
theorem nearestDouble_eq {n d m : ℕ} {e : ℤ} (hn : n ≠ 0) (h : nearestDouble n d = some (m, e)) :
    m = roundDiv (n * 2 ^ (-e).toNat) (d * 2 ^ e.toNat) ∧
      e + Nat.log2 d + 53 ≥ Nat.log2 n ∧
        (e + Nat.log2 d + 53 > Nat.log2 n → 2 ^ 52 ≤ n * 2 ^ (-e).toNat / (d * 2 ^ e.toNat)) := by
  simp only [nearestDouble, if_neg hn] at h
  split at h
  · -- the mantissa would have had too few bits
    split at h
    · cases h
      exact ⟨rfl, by omega, fun hexp => absurd hexp (by omega)⟩
    · cases h
  · rename_i hbits
    split at h
    · cases h
      exact ⟨rfl, by omega, fun _ => by omega⟩
    · cases h

/-- With more than 53 bits before the point the mantissa is at least `2 ^ 52`. -/
theorem pow_le_mantissa {n d m : ℕ} {e : ℤ} (hn : n ≠ 0) (hd : d ≠ 0) (he : 0 < e)
    (h : nearestDouble n d = some (m, e)) : 2 ^ 52 ≤ m := by
  obtain ⟨rfl, hexp, hnormal⟩ := nearestDouble_eq hn h
  refine le_trans ?_ (floor_le_roundDiv _ _)
  rcases lt_or_eq_of_le hexp with hlarge | hexact
  · exact hnormal hlarge
  · -- the quotient is more than `2 ^ (log2 n - log2 d - 1)`
    have hzero : (-e).toNat = 0 := by omega
    have hd' : d < 2 ^ (Nat.log2 d + 1) := Nat.lt_log2_self
    rw [hzero, Nat.pow_zero, Nat.mul_one, Nat.le_div_iff_mul_le (by positivity)]
    calc 2 ^ 52 * (d * 2 ^ e.toNat) ≤ 2 ^ 52 * (2 ^ (Nat.log2 d + 1) * 2 ^ e.toNat) := by gcongr
      _ = 2 ^ (52 + (Nat.log2 d + 1) + e.toNat) := by ring
      _ = 2 ^ Nat.log2 n := by congr 1; omega
      _ ≤ n := Nat.log2_self_le hn

/-- A quotient that is not less than a number which is a double is not rounded below it. -/
theorem le_nearestDouble {n d m limit : ℕ} {e : ℤ} (hd : d ≠ 0) (hlimit : limit ≤ 2 ^ 53) (hle : limit * d ≤ n)
    (h : nearestDouble n d = some (m, e)) : limit * 2 ^ (-e).toNat ≤ m * 2 ^ e.toNat := by
  rcases Nat.eq_zero_or_pos limit with rfl | hpos
  · rw [Nat.zero_mul]
    exact Nat.zero_le _
  have hn : n ≠ 0 := by
    have := Nat.mul_pos hpos (Nat.pos_of_ne_zero hd)
    omega
  rcases lt_or_ge 0 e with he | he
  · have hzero : (-e).toNat = 0 := by omega
    have htwo : 2 ^ 1 ≤ 2 ^ e.toNat := Nat.pow_le_pow_right (by decide) (by omega)
    calc limit * 2 ^ (-e).toNat = limit := by rw [hzero, Nat.pow_zero, Nat.mul_one]
      _ ≤ 2 ^ 52 * 2 ^ 1 := hlimit
      _ ≤ m * 2 ^ e.toNat := Nat.mul_le_mul (pow_le_mantissa hn hd he h) htwo
  · obtain ⟨rfl, -, -⟩ := nearestDouble_eq hn h
    have hzero : e.toNat = 0 := by omega
    rw [hzero, Nat.pow_zero, Nat.mul_one, Nat.mul_one]
    refine le_trans ?_ (floor_le_roundDiv _ _)
    rw [Nat.le_div_iff_mul_le (Nat.pos_of_ne_zero hd)]
    calc limit * 2 ^ (-e).toNat * d = limit * d * 2 ^ (-e).toNat := by ring
      _ ≤ n * 2 ^ (-e).toNat := Nat.mul_le_mul_right _ hle

end UnicoreTsi.Utils

namespace UnicoreTsi.Forwarding

open UnicoreTsi.Utils UnicoreTsi.Steps UnicoreTsi.Pacing

/-! ## The comparison with the limit -/

/-- A limit that a double holds exactly is found to be kept only where it is. -/
theorem belowRate_true {total : Nat} {interval rateLimit : Int} (hinterval : 0 < interval) (hlimit : 0 < rateLimit)
    (hexact : rateLimit ≤ 2 ^ 53) (h : Transfer.belowRate total interval rateLimit = some true) :
    1000 * (total : Int) < rateLimit * interval := by
  by_contra hover
  rw [not_lt] at hover
  rw [Transfer.belowRate, if_neg (by omega), Option.map_eq_some_iff] at h
  obtain ⟨⟨m, e⟩, hnearest, hless⟩ := h
  have hle : rateLimit.toNat * interval.natAbs ≤ 1000 * total := by
    zify
    rw [abs_of_pos hinterval, Int.toNat_of_nonneg hlimit.le]
    exact hover
  have hround := le_nearestDouble (by omega) (by omega) hle hnearest
  have hless' : (m : Int) * 2 ^ e.toNat < rateLimit * 2 ^ (-e).toNat := by
    simpa [not_lt.mpr hinterval.le] using hless
  zify at hround
  rw [Int.toNat_of_nonneg hlimit.le] at hround
  omega

/-! ## Time -/

/-- What the clock showed at the last reading, and how long the thread has slept since. -/
structure Clock where
  reading : Int
  slept : Int

/-- The clock after a step. -/
def Clock.after (c : Clock) (p : Transfer × Event) : Clock :=
  match p.2 with
  | .measured interval => { reading := interval, slept := 0 }
  | .slept => { c with slept := c.slept + p.1.sleepTime }
  | _ => c

/-- The clock of a thread starts with the thread; its readings are one millisecond more than the time gone by. -/
def clock (steps : List (Transfer × Event)) : Clock := steps.foldl Clock.after { reading := 1, slept := 0 }

/-- The clock is not set back, and a sleep takes its time. -/
def KeepsTime (steps : List (Transfer × Event)) : Prop :=
  ∀ before t interval, before ++ [(t, .measured interval)] <+: steps →
    (clock before).reading + (clock before).slept ≤ interval

theorem clock_snoc (steps : List (Transfer × Event)) (p : Transfer × Event) :
    clock (steps ++ [p]) = (clock steps).after p := by
  simp [clock]

theorem KeepsTime.init {steps : List (Transfer × Event)} {p : Transfer × Event} (h : KeepsTime (steps ++ [p])) :
    KeepsTime steps :=
  fun before t interval hbefore => h before t interval (hbefore.trans (List.prefix_append _ _))

/-! ## The account of a thread -/

/-- A buffer of 4096 bytes, in thousandths. -/
def burst : Int := 4096000

/-- Thousandths of bytes sent beyond the limit. -/
def excess (rateLimit : Int) (total : Nat) (now : Int) : Int := 1000 * total - rateLimit * now

/-- What is known of the account while the thread waits for a call. -/
def Balanced (rateLimit now : Int) (t : Transfer) : Prop :=
  0 < now ∧ 0 ≤ t.sleepTime ∧
    match t.point with
    | .receiving => Paced 5 rateLimit burst (excess rateLimit t.total now + burst) t.sleepTime
    | .sending buffer =>
        buffer.length ≤ 4096 ∧ Paced 5 rateLimit burst (excess rateLimit t.total now + burst) t.sleepTime
    | .measuring => Paced 5 rateLimit burst (excess rateLimit t.total now) t.sleepTime
    | .sleeping =>
        Paced 5 rateLimit burst (excess rateLimit t.total now - rateLimit * t.sleepTime + burst) t.sleepTime
    | .closing _ | .dead => True

section Account

variable {rateLimit : Int}

theorem balanced_start (hlimit : 0 < rateLimit) : Balanced rateLimit 1 {} := by
  refine ⟨Int.one_pos, Int.le_refl 0, ?_⟩
  apply Paced.first
  · show 1000 * 0 - rateLimit * 1 + burst ≤ burst
    omega
  · exact Int.le_refl 0

/-- Time goes by between the last call and this reading of the clock. -/
theorem excess_mono {total : Nat} {now now' : Int} (hlimit : 0 < rateLimit) (hle : now ≤ now') :
    excess rateLimit total now' ≤ excess rateLimit total now := by
  have := mul_le_mul_of_nonneg_left hle hlimit.le
  unfold excess
  omega

/-- The throttling of a round. -/
theorem limitRate_balanced {t : Transfer} {now : Int} (hlimit : 0 < rateLimit) (hexact : rateLimit ≤ 2 ^ 53)
    (hnow : 0 < now) (hsleep : 0 ≤ t.sleepTime)
    (hpaced : Paced 5 rateLimit burst (excess rateLimit t.total now) t.sleepTime) :
    Balanced rateLimit now (t.limitRate rateLimit now) := by
  refine ⟨hnow, limitRate_sleepTime hsleep, ?_⟩
  unfold Transfer.limitRate
  rcases hbelow : Transfer.belowRate t.total now rateLimit with _ | _ | _
  · trivial
  · dsimp only
    by_cases hlong : t.sleepTime + 5 < 0 ∨ Transfer.maxSleep < t.sleepTime + 5
    · rw [if_pos hlong]
      trivial
    · rw [if_neg hlong]
      exact hpaced.next hlimit.le
  · -- in credit: the next buffer begins a new stretch
    have hcredit := belowRate_true hnow hlimit hexact hbelow
    apply Paced.first
    · show excess rateLimit t.total now + burst ≤ burst
      unfold excess
      omega
    · exact Int.tdiv_nonneg hsleep (by decide)

/-- A step keeps the account, if the clock goes on as it should. -/
theorem advance_balanced {t t' : Transfer} {e : Event} {c : Clock} (hlimit : 0 < rateLimit)
    (hexact : rateLimit ≤ 2 ^ 53) (h : t.advance rateLimit e = some t')
    (hbalanced : Balanced rateLimit (c.reading + c.slept) t)
    (htime : ∀ interval, e = .measured interval → c.reading + c.slept ≤ interval) :
    Balanced rateLimit ((c.after (t, e)).reading + (c.after (t, e)).slept) t' := by
  obtain ⟨hnow, hsleep, haccount⟩ := hbalanced
  have hmoves := moves_of_advance h
  cases hmoves with
  | @receive buffer hpoint hsome =>
      rw [hpoint] at haccount
      have hlength : buffer.length ≤ 4096 := by
        by_contra hlong
        simp [Transfer.advance, hpoint, hlong] at h
      exact ⟨hnow, hsleep, hlength, haccount⟩
  | finish hpoint => exact ⟨hnow, hsleep, trivial⟩
  | failReceiving hpoint => exact ⟨hnow, hsleep, trivial⟩
  | @send buffer n point hpoint hn hnext =>
      rw [hpoint] at haccount
      obtain ⟨hlength, hpaced⟩ := haccount
      have hpoint' : point = .measuring := by
        simp only [Transfer.advance, hpoint, if_pos hn, if_pos (show rateLimit > 0 from hlimit), Option.some.injEq,
          Transfer.mk.injEq] at h
        exact h.1.symm
      subst hpoint'
      refine ⟨hnow, hsleep, hpaced.mono ?_⟩
      show 1000 * ((t.total + buffer.length : ℕ) : Int) - rateLimit * (c.reading + c.slept) ≤
        1000 * (t.total : Int) - rateLimit * (c.reading + c.slept) + 4096000
      omega
  | failSending hpoint => exact ⟨hnow, hsleep, trivial⟩
  | @measure interval point sleepTime hpoint hnext =>
      rw [hpoint] at haccount
      have hlater := htime interval rfl
      rw [advance_measured h]
      show Balanced rateLimit (interval + 0) _
      rw [Int.add_zero]
      apply limitRate_balanced hlimit hexact (by omega) hsleep
      exact Paced.mono haccount (excess_mono hlimit hlater)
  | wake hpoint =>
      rw [hpoint] at haccount
      show Balanced rateLimit (c.reading + (c.slept + t.sleepTime)) _
      refine ⟨by omega, hsleep, Paced.mono haccount ?_⟩
      show 1000 * (t.total : Int) - rateLimit * (c.reading + (c.slept + t.sleepTime)) + burst ≤
        1000 * (t.total : Int) - rateLimit * (c.reading + c.slept) - rateLimit * t.sleepTime + burst
      rw [← Int.add_assoc, Int.mul_add]
      omega
  | close hpoint hlt => exact ⟨hnow, hsleep, trivial⟩
  | exit hpoint =>
      refine ⟨hnow, hsleep, ?_⟩
      rw [hpoint]
      trivial

theorem runs_balanced {steps : List (Transfer × Event)} {t : Transfer} (hlimit : 0 < rateLimit)
    (hexact : rateLimit ≤ 2 ^ 53) (hruns : Runs (Transfer.advance rateLimit) {} steps t) (htime : KeepsTime steps) :
    Balanced rateLimit ((clock steps).reading + (clock steps).slept) t := by
  induction hruns with
  | start => exact balanced_start hlimit
  | @step steps s s' e hruns hstep ih =>
      rw [clock_snoc]
      apply advance_balanced hlimit hexact hstep (ih htime.init)
      rintro interval rfl
      exact htime steps s interval List.prefix_rfl

/-- What a thread has counted is what it has handed to `send`. -/
theorem total_eq_handed {steps : List (Transfer × Event)} {t : Transfer}
    (hruns : Runs (Transfer.advance rateLimit) {} steps t) : t.total = t.handed.length := by
  refine hruns.always (I := fun t => t.total = t.handed.length) rfl ?_
  intro s e s' hs hstep
  have hmoves := moves_of_advance hstep
  cases hmoves with
  | send hpoint hn hnext => simp [Transfer.handed, hs]
  | _ => exact hs

end Account

/-! ## The limit -/

/-- How far a connection can run ahead of its limit, in thousandths of bytes. -/
def allowance (rateLimit : Int) : Int := (2 * burst + 5 * rateLimit) ^ 2 / (40 * rateLimit)

/-- One thread: at every reading of its clock. -/
theorem rate_limited {rateLimit : Int} {steps : List (Transfer × Event)} {t : Transfer} (hlimit : 0 < rateLimit)
    (hexact : rateLimit ≤ 2 ^ 53) (hruns : Runs (Transfer.advance rateLimit) {} steps t) (htime : KeepsTime steps)
    {s : Transfer} {interval : Int} (hmem : (s, .measured interval) ∈ steps) :
    1000 * (s.handed.length : Int) ≤ rateLimit * interval + allowance rateLimit := by
  induction hruns with
  | start => cases hmem
  | @step steps u u' e hruns hstep ih =>
      rcases List.mem_append.mp hmem with hearlier | hlast
      · exact ih htime.init hearlier
      · obtain ⟨rfl, rfl⟩ := Prod.mk.inj (List.mem_singleton.mp hlast)
        obtain ⟨-, -, haccount⟩ := runs_balanced hlimit hexact hruns htime.init
        have hpoint : s.point = .measuring := by
          have hmoves := moves_of_advance hstep
          cases hmoves with
          | measure hpoint hnext => exact hpoint
        rw [hpoint] at haccount
        have hpaced := Paced.mono haccount (excess_mono hlimit (htime steps s interval List.prefix_rfl))
        have hbound := hpaced.bound (by decide) hlimit
        have hexcess : excess rateLimit s.total interval ≤ allowance rateLimit := by
          apply (Int.le_ediv_iff_mul_le (by omega)).mpr
          calc excess rateLimit s.total interval * (40 * rateLimit)
              = 8 * (5 * rateLimit) * excess rateLimit s.total interval := by ring
            _ ≤ (2 * burst + 5 * rateLimit) ^ 2 := hbound
        rw [← total_eq_handed hruns]
        unfold excess at hexcess
        omega

/-- The steps of one of the two threads. -/
def threadSteps (side : Side) (steps : List (Forwarder × (Side × Event))) : List (Transfer × Event) :=
  steps.filterMap fun p => if p.2.1 = side then some (p.1.transfers side, p.2.2) else none

/-- In every interleaving, the steps of a thread are a run of its own. -/
theorem runs_thread {rateLimit : Int} {incoming : Side → List UInt8} {steps : List (Forwarder × (Side × Event))}
    {f : Forwarder} (hruns : Runs (Forwarder.step rateLimit) (Forwarder.start incoming) steps f) (side : Side) :
    Runs (Transfer.advance rateLimit) {} (threadSteps side steps) (f.transfers side) := by
  induction hruns with
  | start => exact .start
  | @step steps f f' p hruns hstep ih =>
      obtain ⟨side', e⟩ := p
      obtain ⟨-, -, t, hadvance, rfl⟩ := step_eq_some.mp hstep
      unfold threadSteps at ih ⊢
      rw [List.filterMap_append]
      by_cases hside : side' = side
      · subst hside
        have hlast : (f.after side' e t).transfers side' = t := update_same _ _ _
        rw [hlast]
        simpa using Runs.step ih hadvance
      · have hother : (f.after side' e t).transfers side = f.transfers side := if_neg (Ne.symm hside)
        rw [hother]
        simpa [hside] using ih

/-- **The rate is limited.**  In every interleaving of the two threads, whatever the peers send and however the
calls divide it: a direction in which the clock keeps time has never handed on more than the limit allows for the
time gone by and the allowance, which depends on the limit alone. -/
theorem both_directions_limited {rateLimit : Int} {incoming : Side → List UInt8}
    {steps : List (Forwarder × (Side × Event))} {f : Forwarder} (hlimit : 0 < rateLimit) (hexact : rateLimit ≤ 2 ^ 53)
    (hruns : Runs (Forwarder.step rateLimit) (Forwarder.start incoming) steps f) (side : Side)
    (htime : KeepsTime (threadSteps side steps)) :
    ∀ p ∈ threadSteps side steps, ∀ interval, p.2 = .measured interval →
      1000 * (p.1.handed.length : Int) ≤ rateLimit * interval + allowance rateLimit := by
  rintro ⟨s, e⟩ hmem interval rfl
  exact rate_limited hlimit hexact (runs_thread hruns side) htime hmem

/-- A kilobyte a second, and a client whose first byte takes half a second. -/
theorem both_directions_limited_client :
    ∃ steps f, Runs (Forwarder.step 1024) (Forwarder.start conversation) steps f ∧
      ∀ p ∈ threadSteps .client steps, ∀ interval, p.2 = .measured interval →
        1000 * (p.1.handed.length : Int) ≤ 1024 * interval + allowance 1024 := by
  have hruns := runs_of_trace (show trace (Forwarder.step 1024) (Forwarder.start conversation)
    [(.client, .received [1]), (.client, .sent 1), (.client, .measured 500)] = some (_, _) from rfl)
  refine ⟨_, _, hruns, both_directions_limited (by decide) (by decide) hruns .client ?_⟩
  rintro before t interval ⟨rest, hrest⟩
  have hthread : before ++ [(t, .measured interval)] ++ rest =
      [(({} : Transfer), .received [1]), ({ point := .sending [1], buffers := [[1]] }, .sent 1),
        ({ point := .measuring, buffers := [[1]], sends := [([1], 1)], total := 1 }, .measured 500)] := hrest
  rw [List.append_assoc] at hthread
  rcases before with _ | ⟨_, _ | ⟨_, _ | ⟨_, before⟩⟩⟩
  · simp at hthread
  · simp at hthread
  · simp only [List.cons_append, List.nil_append, List.cons.injEq, Prod.mk.injEq, Event.measured.injEq] at hthread
    obtain ⟨rfl, rfl, ⟨-, rfl⟩, -⟩ := hthread
    decide
  · simp at hthread

end UnicoreTsi.Forwarding
