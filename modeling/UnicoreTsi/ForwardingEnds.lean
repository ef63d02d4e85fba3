/-
# UnicoreTsi.ForwardingEnds — a process for port forwarding comes to an end.

Both threads are loops without a bound of their own.  What bounds them is what the peers send: a buffer that is
received makes it less, a thread takes at most four steps for each, and a thread that has left its loop closes the
sockets and ends the process.  So every run is finite, in whatever order the threads proceed; and where none of them
can go on, the process has exited with both sockets closed, unless both have died of the rate limit
(`forwarding_ends`).
-/
import UnicoreTsi.Forwarding

set_option autoImplicit false

namespace UnicoreTsi.Forwarding

open UnicoreTsi.Steps

/-! ## What is left to do -/

/-- The steps that a thread can take at most while its source has `n` bytes to send. -/
def Point.stepsLeft (n : ℕ) : Point → ℕ
  | .receiving => 4 * n + 4
  | .sending _ => 4 * n + 7
  | .measuring => 4 * n + 6
  | .sleeping => 4 * n + 5
  | .closing closed => 3 - closed
  | .dead => 0

/-- The same of the process. -/
def Forwarder.stepsLeft (f : Forwarder) : ℕ :=
  if f.exitStatus.isSome then 0
  else (f.transfers .client).point.stepsLeft (f.incoming .client).length +
    (f.transfers .service).point.stepsLeft (f.incoming .service).length

section Measure

variable {rateLimit : Int} {f f' : Forwarder}

theorem Moves.stepsLeft_lt {t t' : Transfer} {e : Event} {n n' : ℕ} (hmoves : Moves rateLimit t e t')
    (hn : e.bytes.length + n' = n) (hrunning : e ≠ .exited) : t'.point.stepsLeft n' < t.point.stepsLeft n := by
  cases hmoves with
  | receive hpoint hsome =>
      have hbytes := List.length_pos_iff.mpr hsome
      rw [hpoint]
      show 4 * n' + 7 < 4 * n + 4
      simp only [Event.bytes] at hn
      omega
  | finish hpoint =>
      rw [hpoint]
      show 3 < 4 * n + 4
      omega
  | failReceiving hpoint =>
      rw [hpoint]
      show 3 < 4 * n + 4
      omega
  | send hpoint _ hnext =>
      obtain rfl : n' = n := by simpa [Event.bytes] using hn
      rw [hpoint]
      rcases hnext with rfl | rfl
      · show 4 * n' + 6 < 4 * n' + 7
        omega
      · show 4 * n' + 4 < 4 * n' + 7
        omega
  | failSending hpoint =>
      rw [hpoint]
      show 3 < 4 * n + 7
      omega
  | measure hpoint hnext =>
      obtain rfl : n' = n := by simpa [Event.bytes] using hn
      rw [hpoint]
      rcases hnext with rfl | rfl | rfl
      · show 0 < 4 * n' + 6
        omega
      · show 4 * n' + 4 < 4 * n' + 6
        omega
      · show 4 * n' + 5 < 4 * n' + 6
        omega
  | wake hpoint =>
      obtain rfl : n' = n := by simpa [Event.bytes] using hn
      rw [hpoint]
      show 4 * n' + 4 < 4 * n' + 5
      omega
  | close hpoint hlt =>
      rename_i closed
      rw [hpoint]
      show 3 - (closed + 1) < 3 - closed
      omega
  | exit _ => exact absurd rfl hrunning

/-- Every step is one of those left. -/
theorem stepsLeft_lt {p : Side × Event} (hstep : f.step rateLimit p = some f') : f'.stepsLeft < f.stepsLeft := by
  obtain ⟨side, e⟩ := p
  obtain ⟨hexit, hallows, t, hadvance, rfl⟩ := step_eq_some.mp hstep
  have hmoves := moves_of_advance hadvance
  have hbefore : f.stepsLeft = (f.transfers .client).point.stepsLeft (f.incoming .client).length +
      (f.transfers .service).point.stepsLeft (f.incoming .service).length := by
    rw [Forwarder.stepsLeft, hexit]
    rfl
  by_cases hexited : e = .exited
  · subst hexited
    have hpoint := hmoves.of_exited
    have hafter : (f.after side .exited t).stepsLeft = 0 := rfl
    have hlast : 0 < (f.transfers side).point.stepsLeft (f.incoming side).length := by
      rw [hpoint]
      exact Nat.one_pos
    rw [hbefore, hafter]
    cases side with
    | client => omega
    | service => omega
  · have hstatus : (f.after side e t).exitStatus = none := by
      cases e with
      | exited => exact absurd rfl hexited
      | _ => exact hexit
    have hafter : (f.after side e t).stepsLeft =
        ((f.after side e t).transfers .client).point.stepsLeft ((f.after side e t).incoming .client).length +
          ((f.after side e t).transfers .service).point.stepsLeft ((f.after side e t).incoming .service).length := by
      rw [Forwarder.stepsLeft, hstatus]
      rfl
    have hsame : (f.after side e t).transfers side = t := update_same _ _ _
    have hother : (f.after side e t).transfers side.other = f.transfers side.other := update_other _ _ _
    -- the thread that takes the step has fewer left, and the other one as many as before
    have hincoming := incoming_after hallows t
    have hmine : (f.transfers side).point.stepsLeft (f.incoming side).length >
        ((f.after side e t).transfers side).point.stepsLeft ((f.after side e t).incoming side).length := by
      rw [hsame]
      refine hmoves.stepsLeft_lt ?_ hexited
      have hlength := congrArg List.length (hincoming side)
      rw [if_pos rfl, List.length_append] at hlength
      exact hlength
    have hyours : (f.incoming side.other) = (f.after side e t).incoming side.other := by
      have hne : side.other ≠ side := by cases side <;> decide
      have hsplit := hincoming side.other
      rw [if_neg hne, List.nil_append] at hsplit
      exact hsplit.symm
    rw [hbefore, hafter]
    cases side with
    | client =>
        have hother : (f.after .client e t).transfers .service = f.transfers .service := hother
        have hyours : f.incoming .service = (f.after .client e t).incoming .service := hyours
        rw [hother, hyours]
        omega
    | service =>
        have hother : (f.after .service e t).transfers .client = f.transfers .client := hother
        have hyours : f.incoming .client = (f.after .service e t).incoming .client := hyours
        rw [hother, hyours]
        omega

end Measure

/-! ## Where nothing is left to do -/

/-- The sockets are closed one after the other, before the process exits. -/
structure Closes (f : Forwarder) : Prop where
  first : ∀ side closed, (f.transfers side).point = .closing (closed + 1) → f.isOpen .client = false
  second : ∀ side closed, (f.transfers side).point = .closing (closed + 2) → closed = 0 ∧ f.isOpen .service = false
  exited : ∀ status, f.exitStatus = some status → status = 0 ∧ ∀ side, f.isOpen side = false

/-- A thread of a process without a rate limit does not look at the clock. -/
def Unmeasured (rateLimit : Int) (t : Transfer) : Prop := ¬0 < rateLimit → t.point ≠ .measuring ∧ t.point ≠ .dead

section Ending

variable {rateLimit : Int} {f f' : Forwarder}

theorem closes_start (incoming : Side → List UInt8) : Closes (.start incoming) where
  first _ _ h := nomatch h
  second _ _ h := nomatch h
  exited _ h := nomatch h

theorem closes_step {p : Side × Event} (h : Closes f) (hstep : f.step rateLimit p = some f') : Closes f' := by
  obtain ⟨side, e⟩ := p
  obtain ⟨hexit, -, t, hadvance, rfl⟩ := step_eq_some.mp hstep
  have hmoves := moves_of_advance hadvance
  have hsame : (f.after side e t).transfers side = t := update_same _ _ _
  have hother : (f.after side e t).transfers side.other = f.transfers side.other := update_other _ _ _
  refine ⟨?_, ?_, ?_⟩
  · intro side' closed hpoint
    rcases side.eq_or_eq_other side' with rfl | rfl
    · rw [hsame] at hpoint
      rcases hmoves.closed hpoint with ⟨rfl, hbefore⟩ | hbefore
      · cases closed with
        | zero =>
            show update f.isOpen (f.transfers side').point.socket false .client = false
            rw [hbefore]
            rfl
        | succ closed => exact isOpen_after t (h.first _ closed hbefore)
      · exact isOpen_after t (h.first _ closed hbefore)
    · rw [hother] at hpoint
      exact isOpen_after t (h.first _ closed hpoint)
  · intro side' closed hpoint
    rcases side.eq_or_eq_other side' with rfl | rfl
    · rw [hsame] at hpoint
      rcases hmoves.closed hpoint with ⟨rfl, hbefore⟩ | hbefore
      · cases hmoves with
        | close hclosing hlt =>
            rw [hbefore, Point.closing.injEq] at hclosing
            obtain rfl : closed = 0 := by omega
            refine ⟨rfl, ?_⟩
            show update f.isOpen (f.transfers side').point.socket false .service = false
            rw [hbefore]
            rfl
      · exact ⟨(h.second _ closed hbefore).1, isOpen_after t (h.second _ closed hbefore).2⟩
    · rw [hother] at hpoint
      exact ⟨(h.second _ closed hpoint).1, isOpen_after t (h.second _ closed hpoint).2⟩
  · intro status hstatus
    cases e with
    | exited =>
        have hpoint := hmoves.of_exited
        refine ⟨(Option.some.inj hstatus).symm, fun side' => ?_⟩
        cases side' with
        | client => exact isOpen_after t (h.first side 1 hpoint)
        | service => exact isOpen_after t (h.second side 0 hpoint).2
    | _ =>
        have hstatus : f.exitStatus = some status := hstatus
        rw [hexit] at hstatus
        cases hstatus

theorem unmeasured_step {p : Side × Event} (h : ∀ side, Unmeasured rateLimit (f.transfers side))
    (hstep : f.step rateLimit p = some f') (side : Side) : Unmeasured rateLimit (f'.transfers side) := by
  obtain ⟨side₀, e⟩ := p
  obtain ⟨-, -, t, hadvance, rfl⟩ := step_eq_some.mp hstep
  intro hlimit
  rcases side₀.eq_or_eq_other side with rfl | rfl
  · have hbefore := h side hlimit
    have hsame : (f.after side e t).transfers side = t := update_same _ _ _
    rw [hsame]
    cases moves_of_advance hadvance with
    | receive _ _ => simp
    | finish _ => simp [Transfer.leave]
    | failReceiving _ => simp [Transfer.leave]
    | failSending _ => simp [Transfer.leave]
    | measure hpoint _ => exact absurd hpoint hbefore.1
    | wake _ => simp
    | close _ _ => simp
    | exit _ => exact hbefore
    | send hpoint hn _ =>
        unfold Transfer.advance at hadvance
        rw [hpoint] at hadvance
        simp only [if_pos hn, Option.some.injEq] at hadvance
        have hnext := congrArg Transfer.point hadvance
        dsimp only at hnext ⊢
        rw [← hnext, if_neg hlimit]
        simp
  · have hother : (f.after side₀ e t).transfers side₀.other = f.transfers side₀.other := update_other _ _ _
    rw [hother]
    exact h _ hlimit

/-- A thread that has not died waits for a call that can come back. -/
theorem step_of_alive (hclosing : ∀ side closed, (f.transfers side).point = .closing (closed + 2) → closed = 0)
    (hexit : f.exitStatus = none) {side : Side} (halive : (f.transfers side).point ≠ .dead) :
    ∃ e f', f.step rateLimit (side, e) = some f' := by
  have hgoes : ∀ e t, f.allows side e = true → (f.transfers side).advance rateLimit e = some t →
      ∃ e f', f.step rateLimit (side, e) = some f' :=
    fun e t hallows hadvance => ⟨e, f.after side e t, step_eq_some.mpr ⟨hexit, hallows, t, hadvance, rfl⟩⟩
  cases hpoint : (f.transfers side).point with
  | receiving => exact hgoes .recvFailed _ rfl (by unfold Transfer.advance; rw [hpoint])
  | sending buffer => exact hgoes .sendFailed _ rfl (by unfold Transfer.advance; rw [hpoint])
  | measuring => exact hgoes (.measured 1) _ rfl (by unfold Transfer.advance; rw [hpoint])
  | sleeping => exact hgoes .slept _ rfl (by unfold Transfer.advance; rw [hpoint])
  | dead => exact absurd hpoint halive
  | closing closed =>
      rcases closed with _ | _ | closed
      · exact hgoes .closed _ rfl (by unfold Transfer.advance; rw [hpoint]; rfl)
      · exact hgoes .closed _ rfl (by unfold Transfer.advance; rw [hpoint]; rfl)
      · obtain rfl := hclosing side closed hpoint
        exact hgoes .exited _ rfl (by unfold Transfer.advance; rw [hpoint]; rfl)

/-- **A forwarding process ends.**  A run has at most four steps for each byte that the peers send, and eight more.  A
process that can take no step has exited with both sockets closed, or it has a rate limit and both threads have died
of it. -/
theorem forwarding_ends {incoming : Side → List UInt8} {steps : List (Forwarder × (Side × Event))}
    (hruns : Runs (Forwarder.step rateLimit) (.start incoming) steps f) :
    steps.length ≤ 4 * ((incoming .client).length + (incoming .service).length) + 8 ∧
      ((∀ p, f.step rateLimit p = none) →
        (f.exitStatus = some 0 ∧ ∀ side, f.isOpen side = false) ∨
          0 < rateLimit ∧ ∀ side, (f.transfers side).point = .dead) := by
  constructor
  · have hlength := hruns.length_add_le (m := Forwarder.stepsLeft) fun _ _ _ hstep => stepsLeft_lt hstep
    have hstart : (Forwarder.start incoming).stepsLeft =
        (4 * (incoming .client).length + 4) + (4 * (incoming .service).length + 4) := rfl
    omega
  · intro hstuck
    have hcloses : Closes f := hruns.always (closes_start incoming) fun _ _ _ h hstep => closes_step h hstep
    have hunmeasured : ∀ side, Unmeasured rateLimit (f.transfers side) := by
      refine hruns.always (I := fun f => ∀ side, Unmeasured rateLimit (f.transfers side)) ?_ ?_
      · exact fun _ _ => ⟨nofun, nofun⟩
      · exact fun _ _ _ h hstep => unmeasured_step h hstep
    cases hexit : f.exitStatus with
    | some status =>
        obtain ⟨rfl, hclosed⟩ := hcloses.exited status hexit
        exact Or.inl ⟨rfl, hclosed⟩
    | none =>
        have hdead : ∀ side, (f.transfers side).point = .dead := by
          intro side
          by_contra halive
          have hmoves : ∃ e f', f.step rateLimit (side, e) = some f' :=
            step_of_alive (fun side closed hpoint => (hcloses.second side closed hpoint).1) hexit halive
          obtain ⟨e, f', hstep⟩ := hmoves
          rw [hstuck] at hstep
          cases hstep
        refine Or.inr ⟨?_, hdead⟩
        by_contra hlimit
        exact (hunmeasured .client hlimit).2 (hdead .client)

/-- The client ends at once. -/
theorem forwarding_ends_silent :
    ∃ steps f, Runs (Forwarder.step 0) (.start fun _ => []) steps f ∧ steps.length ≤ 8 ∧ f.exitStatus = some 0 := by
  have hruns := runs_of_trace (show trace (Forwarder.step 0) (.start fun _ => [])
    [(.client, .received []), (.client, .closed), (.client, .closed), (.client, .exited)] = some (_, _) from rfl)
  obtain ⟨hlength, hends⟩ := forwarding_ends hruns
  refine ⟨_, _, hruns, hlength, ?_⟩
  rcases hends (fun _ => rfl) with hexited | ⟨hlimit, -⟩
  · exact hexited.1
  · cases hlimit

end Ending

end UnicoreTsi.Forwarding
