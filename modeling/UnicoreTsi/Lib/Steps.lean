/-
# UnicoreTsi.Lib.Steps — runs of a system that takes labelled steps.

A system is a partial step function: the state after an event, or `none` where the event cannot occur.  A
run keeps the steps it has taken, each with the state it was taken in, so that a run can be restricted by a
condition on its steps.  Two rules carry the proofs about runs: an invariant that every admissible step
keeps (`Runs.invariant`), and the run that remains after one of the steps taken (`Runs.after`).  A measure that
every step lowers makes all runs end (`Runs.length_add_le`).
-/
import Mathlib.Data.List.Basic

set_option autoImplicit false

namespace UnicoreTsi.Steps

variable {σ ι : Type} {step : σ → ι → Option σ}

/-- The steps taken from `start`, in order, and the state they lead to. -/
inductive Runs (step : σ → ι → Option σ) (start : σ) : List (σ × ι) → σ → Prop where
  | start : Runs step start [] start
  | step {steps : List (σ × ι)} {s s' : σ} {i : ι} (hruns : Runs step start steps s)
      (hstep : step s i = some s') : Runs step start (steps ++ [(s, i)]) s'

/-- What holds at the start and is kept by every step that meets the condition `P` holds after every run
whose steps all meet it. -/
theorem Runs.invariant {P : σ → ι → Prop} {I : σ → Prop} {start s : σ} {steps : List (σ × ι)}
    (hruns : Runs step start steps s) (hsteps : ∀ p ∈ steps, P p.1 p.2) (hstart : I start)
    (hkeep : ∀ s i s', I s → P s i → step s i = some s' → I s') : I s := by
  induction hruns with
  | start => exact hstart
  | step _ hstep ih =>
      rw [List.forall_mem_append, List.forall_mem_singleton] at hsteps
      exact hkeep _ _ _ (ih hsteps.1) hsteps.2 hstep

/-- An invariant of every step. -/
theorem Runs.always {I : σ → Prop} {start s : σ} {steps : List (σ × ι)} (hruns : Runs step start steps s)
    (hstart : I start) (hkeep : ∀ s i s', I s → step s i = some s' → I s') : I s :=
  hruns.invariant (P := fun _ _ => True) (fun _ _ => trivial) hstart fun s i s' hs _ => hkeep s i s' hs

/-- A step of a run leads to a state from which the run goes on. -/
theorem Runs.after {start s : σ} {steps : List (σ × ι)} (hruns : Runs step start steps s) {t : σ} {i : ι}
    (hmem : (t, i) ∈ steps) :
    ∃ before t' rest, Runs step start before t ∧ step t i = some t' ∧ Runs step t' rest s := by
  induction hruns with
  | start => cases hmem
  | @step steps u u' j hruns hstep ih =>
      rcases List.mem_append.mp hmem with hearlier | hlast
      · obtain ⟨before, t', rest, hbefore, ht', hrest⟩ := ih hearlier
        exact ⟨before, t', rest ++ [(u, j)], hbefore, ht', .step hrest hstep⟩
      · obtain ⟨rfl, rfl⟩ := Prod.mk.inj (List.mem_singleton.mp hlast)
        exact ⟨steps, u', [], hruns, hstep, .start⟩

/-- A measure that every step lowers bounds the length of a run. -/
theorem Runs.length_add_le {m : σ → ℕ} {start s : σ} {steps : List (σ × ι)} (hruns : Runs step start steps s)
    (hlower : ∀ s i s', step s i = some s' → m s' < m s) : steps.length + m s ≤ m start := by
  induction hruns with
  | start => simp
  | step _ hstep ih =>
      have hless := hlower _ _ _ hstep
      rw [List.length_append, List.length_singleton]
      omega

/-- One more step in front. -/
theorem Runs.cons {start t s : σ} {i : ι} {steps : List (σ × ι)} (hstep : step start i = some t)
    (hruns : Runs step t steps s) : Runs step start ((start, i) :: steps) s := by
  induction hruns with
  | start => exact Runs.step Runs.start hstep
  | step _ hlast ih => exact .step ih hlast

/-- The run through the given events. -/
def trace (step : σ → ι → Option σ) : σ → List ι → Option (List (σ × ι) × σ)
  | s, [] => some ([], s)
  | s, i :: is => do
      let t ← step s i
      let (steps, u) ← trace step t is
      return ((s, i) :: steps, u)

theorem runs_of_trace {start s : σ} {is : List ι} {steps : List (σ × ι)}
    (h : trace step start is = some (steps, s)) : Runs step start steps s := by
  induction is generalizing start steps with
  | nil =>
      obtain ⟨rfl, rfl⟩ := Prod.mk.inj (Option.some.inj h)
      exact .start
  | cons i is ih =>
      simp only [trace, Option.bind_eq_bind, Option.bind_eq_some_iff, Option.pure_def] at h
      obtain ⟨t, hstep, ⟨rest, u⟩, hrest, hsteps⟩ := h
      obtain ⟨rfl, rfl⟩ := Prod.mk.inj (Option.some.inj hsteps)
      exact (ih hrest).cons hstep

end UnicoreTsi.Steps
