/-
# UnicoreTsi.Lib.Effects — stateful computations that may raise or fail to end, and what they keep.

`Comp ρ σ ε α` is a computation that reads an environment `ρ`, transforms a state `σ`, and either
returns an `α`, raises an `ε`, or does not end.  What it did to the state before raising stays done,
so code in an exception handler sees the partial effects of the code it guards.

Four judgments carry the proofs of the rest of the development:

* `Within R x` — every run of `x` relates the state before to the state after by `R`.  For a preorder
  `R` it is closed under sequencing and handling; frame conditions and monotone facts are instances.
  `Ends R x` says of every run that it comes to an end as well.
* `Yields R r x res` — `x` ends as the pure result `res` says and moves the state by `R` only; this is
  how a computation that only asks questions is related to the function it computes.
* `Ledger.Owes t n x` — a run that returns `a` logs `n a` entries that count, a run that raises one less
  than `t`: what is owed when a handler around `x` logs one for the exception it catches
  (`Ledger.owed_handle`).  `Sends n` (raises only when excused), `Totals t` and `Silent` are its cases.

A ledger comes with an *excuse*, a property of states that no judged computation takes back and under
which the count is not held to anything.
-/
import Mathlib.Data.List.Count
import Mathlib.Order.Defs.Unbundled

set_option autoImplicit false

namespace UnicoreTsi.Effects

/-! ## Computations -/

/-- How a computation ends. -/
inductive Outcome (ε α : Type) where
  | done (a : α)
  | raised (e : ε)
  | hung
  deriving DecidableEq, Repr

/-- A computation over the state `σ` that reads `ρ` and may raise `ε`. -/
def Comp (ρ σ ε α : Type) := ρ → σ → Outcome ε α × σ

variable {ρ σ ε α β : Type}

/-- Return a value. -/
protected def Comp.pure (a : α) : Comp ρ σ ε α := fun _ s => (.done a, s)

/-- Run `x`, then `f` on its value; an exception or a non-ending run skips `f`. -/
protected def Comp.bind (x : Comp ρ σ ε α) (f : α → Comp ρ σ ε β) : Comp ρ σ ε β := fun r s =>
  match x r s with
  | (.done a, s') => f a r s'
  | (.raised e, s') => (.raised e, s')
  | (.hung, s') => (.hung, s')

instance : Monad (Comp ρ σ ε) where
  pure := Comp.pure
  bind := Comp.bind

/-- Raise an exception. -/
def raise (e : ε) : Comp ρ σ ε α := fun _ s => (.raised e, s)

/-- Run `h` on the exception `x` raises; the state `x` left behind is kept. -/
def handle (x : Comp ρ σ ε α) (h : ε → Comp ρ σ ε α) : Comp ρ σ ε α := fun r s =>
  match x r s with
  | (.raised e, s') => h e r s'
  | (.done a, s') => (.done a, s')
  | (.hung, s') => (.hung, s')

/-- The run does not end. -/
def diverge : Comp ρ σ ε α := fun _ s => (.hung, s)

/-- The environment. -/
def ask : Comp ρ σ ε ρ := fun r s => (.done r, s)

/-- The state. -/
def get : Comp ρ σ ε σ := fun _ s => (.done s, s)

/-- Change the state. -/
def modify (f : σ → σ) : Comp ρ σ ε Unit := fun _ s => (.done (), f s)

/-- Turn a result into a computation. -/
def ofExcept : Except ε α → Comp ρ σ ε α
  | .ok a => pure a
  | .error e => raise e

/-- Run `x` on a part of the state, in a part of the environment. -/
def focus {ρ' σ' ε' : Type} (env : ρ → ρ') (part : σ → σ') (put : σ' → σ → σ) (error : ε' → ε)
    (x : Comp ρ' σ' ε' α) : Comp ρ σ ε α := fun r s =>
  match x (env r) (part s) with
  | (.done a, t) => (.done a, put t s)
  | (.raised e, t) => (.raised (error e), put t s)
  | (.hung, t) => (.hung, put t s)

section Run

variable {r : ρ} {s s' : σ} {a : α} {b : β} {e : ε}
variable {x : Comp ρ σ ε α} {f : α → Comp ρ σ ε β} {h : ε → Comp ρ σ ε α}

@[simp] theorem pure_run : (pure a : Comp ρ σ ε α) r s = (.done a, s) := rfl

@[simp] theorem raise_run : (raise e : Comp ρ σ ε α) r s = (.raised e, s) := rfl

@[simp] theorem diverge_run : (diverge : Comp ρ σ ε α) r s = (.hung, s) := rfl

@[simp] theorem ask_run : (ask : Comp ρ σ ε ρ) r s = (.done r, s) := rfl

@[simp] theorem get_run : (get : Comp ρ σ ε σ) r s = (.done s, s) := rfl

@[simp] theorem modify_run (g : σ → σ) : (modify g : Comp ρ σ ε Unit) r s = (.done (), g s) := rfl

@[simp] theorem ofExcept_ok : (ofExcept (.ok a) : Comp ρ σ ε α) = pure a := rfl

@[simp] theorem ofExcept_error : (ofExcept (.error e) : Comp ρ σ ε α) = raise e := rfl

theorem bind_run : (x >>= f) r s = match x r s with
    | (.done a, s') => f a r s'
    | (.raised e, s') => (.raised e, s')
    | (.hung, s') => (.hung, s') := rfl

theorem bind_run_done (hx : x r s = (.done a, s')) : (x >>= f) r s = f a r s' := by
  rw [bind_run, hx]

theorem bind_run_raised (hx : x r s = (.raised e, s')) : (x >>= f) r s = (.raised e, s') := by
  rw [bind_run, hx]

theorem handle_run_done (hx : x r s = (.done a, s')) : handle x h r s = (.done a, s') := by
  rw [handle, hx]

theorem handle_run_raised (hx : x r s = (.raised e, s')) : handle x h r s = h e r s' := by
  rw [handle, hx]

/-- Inversion of sequencing at a normal end. -/
theorem bind_eq_done :
    (x >>= f) r s = (.done b, s') ↔ ∃ a t, x r s = (.done a, t) ∧ f a r t = (.done b, s') := by
  rw [bind_run]
  constructor
  · intro h
    split at h
    · rename_i a t hx
      exact ⟨a, t, hx, h⟩
    · simp at h
    · simp at h
  · rintro ⟨a, t, hx, hf⟩
    rw [hx]
    exact hf

theorem ofExcept_eq_done {res : Except ε α} :
    (ofExcept res : Comp ρ σ ε α) r s = (.done a, s') ↔ res = .ok a ∧ s' = s := by
  cases res with
  | ok b =>
      show (Outcome.done b, s) = _ ↔ _
      rw [Prod.mk.injEq, Outcome.done.injEq, Except.ok.injEq, eq_comm (a := s)]
  | error e => exact ⟨nofun, nofun⟩

/-- The state a sequence ends in is the one its first part ends in, or one its second part reaches. -/
theorem bind_post {P : σ → Prop} (hx : P (x r s).2)
    (hf : ∀ a t, x r s = (.done a, t) → P (f a r t).2) : P ((x >>= f) r s).2 := by
  rw [bind_run]
  revert hx hf
  rcases x r s with ⟨a | e | _, t⟩
  · exact fun _ hf => hf a t rfl
  · exact fun hx _ => hx
  · exact fun hx _ => hx

/-- The same for a computation and the handler of its exceptions. -/
theorem handle_post {P : σ → Prop} (hx : P (x r s).2)
    (hh : ∀ e t, x r s = (.raised e, t) → P (h e r t).2) : P (handle x h r s).2 := by
  rw [handle]
  revert hx hh
  rcases x r s with ⟨a | e | _, t⟩
  · exact fun hx _ => hx
  · exact fun _ hh => hh e t rfl
  · exact fun hx _ => hx

/-- What is to be shown of a sequence, outcome and state: at the end of its first part, if that does not return,
and of every run of its second part. -/
theorem bind_cases {Q : Outcome ε β × σ → Prop} (hstop : ∀ o : Outcome ε β, (∀ b, o ≠ .done b) → Q (o, (x r s).2))
    (hf : ∀ a t, x r s = (.done a, t) → Q (f a r t)) : Q ((x >>= f) r s) := by
  rw [bind_run]
  revert hstop hf
  rcases x r s with ⟨a | e | _, t⟩
  · exact fun _ hf => hf a t rfl
  · exact fun hstop _ => hstop _ (by simp)
  · exact fun hstop _ => hstop _ (by simp)

theorem handle_cases {Q : Outcome ε α × σ → Prop} (hx : ∀ o t, x r s = (o, t) → (∀ e, o ≠ .raised e) → Q (o, t))
    (hh : ∀ e t, x r s = (.raised e, t) → Q (h e r t)) : Q (handle x h r s) := by
  rw [handle]
  revert hx hh
  rcases x r s with ⟨a | e | _, t⟩
  · exact fun hx _ => hx _ t rfl (by simp)
  · exact fun _ hh => hh e t rfl
  · exact fun hx _ => hx _ t rfl (by simp)

/-- A run on a part that comes to an end. -/
theorem focus_cases {ρ' σ' ε' : Type} {env : ρ → ρ'} {part : σ → σ'} (put : σ' → σ → σ) (error : ε' → ε)
    {x : Comp ρ' σ' ε' α} (hends : (x (env r) (part s)).1 ≠ .hung) :
    (∃ a t, x (env r) (part s) = (.done a, t) ∧ focus env part put error x r s = (.done a, put t s)) ∨
      ∃ e t, x (env r) (part s) = (.raised e, t) ∧ focus env part put error x r s = (.raised (error e), put t s) := by
  unfold focus
  revert hends
  rcases x (env r) (part s) with ⟨a | e | _, t⟩
  · exact fun _ => Or.inl ⟨a, t, rfl, rfl⟩
  · exact fun _ => Or.inr ⟨e, t, rfl, rfl⟩
  · exact fun hends => absurd rfl hends

end Run

instance : LawfulMonad (Comp ρ σ ε) := by
  refine LawfulMonad.mk' (Comp ρ σ ε) ?_ (fun _ _ => rfl) ?_
  · intro α x
    funext r s
    show (match x r s with
      | (.done a, s') => (.done a, s')
      | (.raised e, s') => (.raised e, s')
      | (.hung, s') => (.hung, s')) = x r s
    rcases x r s with ⟨a | e | _, s'⟩ <;> rfl
  · intro α β γ x f g
    funext r s
    rw [bind_run, bind_run, bind_run]
    rcases x r s with ⟨a | e | _, s'⟩ <;> rfl

/-! ## What every run keeps -/

/-- Every run of `x` relates the state before to the state after. -/
def Within (R : σ → σ → Prop) (x : Comp ρ σ ε α) : Prop := ∀ r s, R s (x r s).2

theorem within_modify {R : σ → σ → Prop} {f : σ → σ} (h : ∀ s, R s (f s)) :
    Within R (modify f : Comp ρ σ ε Unit) := fun _ s => h s

theorem within_mono {R S : σ → σ → Prop} {x : Comp ρ σ ε α} (h : ∀ s t, R s t → S s t)
    (hx : Within R x) : Within S x := fun r s => h _ _ (hx r s)

section Refl

variable {R : σ → σ → Prop} [Std.Refl R]

theorem within_pure (a : α) : Within R (pure a : Comp ρ σ ε α) := fun _ s => refl_of R s

theorem within_raise (e : ε) : Within R (raise e : Comp ρ σ ε α) := fun _ s => refl_of R s

theorem within_ask : Within R (ask : Comp ρ σ ε ρ) := fun _ s => refl_of R s

theorem within_get : Within R (get : Comp ρ σ ε σ) := fun _ s => refl_of R s

theorem within_ofExcept (x : Except ε α) : Within R (ofExcept x : Comp ρ σ ε α) := by
  cases x with
  | ok a => exact within_pure a
  | error e => exact within_raise e

/-- The value of a result is known in what follows. -/
theorem within_ofExcept_bind {res : Except ε α} {f : α → Comp ρ σ ε β} (hf : ∀ a, res = .ok a → Within R (f a)) :
    Within R (ofExcept res >>= f) := by
  cases res with
  | ok a => exact hf a rfl
  | error e => exact within_raise e

end Refl

/-- What a part of a run does and what follows it, where the two together do what the whole may do. -/
theorem within_seq {R S T : σ → σ → Prop} {x : Comp ρ σ ε α} {f : α → Comp ρ σ ε β} (hstop : ∀ s t, R s t → T s t)
    (hcomp : ∀ s t u, R s t → S t u → T s u) (hx : Within R x) (hf : ∀ a, Within S (f a)) : Within T (x >>= f) := by
  intro r s
  have hstep := hx r s
  rw [bind_run]
  split
  · rename_i a s' h
    rw [h] at hstep
    exact hcomp _ _ _ hstep (hf a r s')
  · rename_i e s' h
    rw [h] at hstep
    exact hstop _ _ hstep
  · rename_i s' h
    rw [h] at hstep
    exact hstop _ _ hstep

/-- The same for the handler of an exception. -/
theorem within_handle_seq {R S T : σ → σ → Prop} {x : Comp ρ σ ε α} {h : ε → Comp ρ σ ε α}
    (hstop : ∀ s t, R s t → T s t) (hcomp : ∀ s t u, R s t → S t u → T s u) (hx : Within R x)
    (hh : ∀ e, Within S (h e)) : Within T (handle x h) := by
  intro r s
  have hstep := hx r s
  rw [handle]
  split
  · rename_i e s' hrun
    rw [hrun] at hstep
    exact hcomp _ _ _ hstep (hh e r s')
  · rename_i a s' hrun
    rw [hrun] at hstep
    exact hstop _ _ hstep
  · rename_i s' hrun
    rw [hrun] at hstep
    exact hstop _ _ hstep

section Trans

variable {R : σ → σ → Prop} [IsTrans σ R]

theorem within_bind {x : Comp ρ σ ε α} {f : α → Comp ρ σ ε β} (hx : Within R x)
    (hf : ∀ a, Within R (f a)) : Within R (x >>= f) :=
  within_seq (fun _ _ h => h) (fun _ _ _ h h' => trans_of R h h') hx hf

theorem within_handle {x : Comp ρ σ ε α} {h : ε → Comp ρ σ ε α} (hx : Within R x)
    (hh : ∀ e, Within R (h e)) : Within R (handle x h) :=
  within_handle_seq (fun _ _ h => h) (fun _ _ _ h h' => trans_of R h h') hx hh

/-- What holds after everything that `x` may do, and after what follows it, holds of the whole. -/
theorem bind_after {P : σ → Prop} {r : ρ} {s₀ s : σ} {x : Comp ρ σ ε α} {f : α → Comp ρ σ ε β} (h₀ : R s₀ s)
    (hx : Within R x) (hstop : ∀ t, R s₀ t → P t) (hf : ∀ a t, R s₀ t → P (f a r t).2) : P ((x >>= f) r s).2 := by
  have hstep := trans_of R h₀ (hx r s)
  refine bind_post (hstop _ hstep) ?_
  intro a t hrun
  rw [hrun] at hstep
  exact hf a t hstep

end Trans

/-! ## Runs that come to an end -/

/-- Every run of `x` comes to an end, and it relates the state before to the state after by `R`. -/
def Ends (R : σ → σ → Prop) (x : Comp ρ σ ε α) : Prop := ∀ r s, (x r s).1 ≠ .hung ∧ R s (x r s).2

section Ends

variable {R : σ → σ → Prop}

theorem ends_modify {f : σ → σ} (h : ∀ s, R s (f s)) : Ends R (modify f : Comp ρ σ ε Unit) :=
  fun _ s => ⟨nofun, h s⟩

theorem ends_pure [Std.Refl R] (a : α) : Ends R (pure a : Comp ρ σ ε α) := fun _ s => ⟨nofun, refl_of R s⟩

theorem ends_raise [Std.Refl R] (e : ε) : Ends R (raise e : Comp ρ σ ε α) := fun _ s => ⟨nofun, refl_of R s⟩

theorem ends_ofExcept [Std.Refl R] (x : Except ε α) : Ends R (ofExcept x : Comp ρ σ ε α) := by
  cases x with
  | ok a => exact ends_pure a
  | error e => exact ends_raise e

theorem ends_bind [IsTrans σ R] {x : Comp ρ σ ε α} {f : α → Comp ρ σ ε β} (hx : Ends R x)
    (hf : ∀ a, Ends R (f a)) : Ends R (x >>= f) := by
  intro r s
  have hstep := hx r s
  rw [bind_run]
  revert hstep
  rcases x r s with ⟨a | e | _, s'⟩
  · exact fun hstep => ⟨(hf a r s').1, trans_of R hstep.2 (hf a r s').2⟩
  · exact fun hstep => ⟨nofun, hstep.2⟩
  · exact fun hstep => absurd rfl hstep.1

theorem ends_handle [IsTrans σ R] {x : Comp ρ σ ε α} {h : ε → Comp ρ σ ε α} (hx : Ends R x)
    (hh : ∀ e, Ends R (h e)) : Ends R (handle x h) := by
  intro r s
  have hstep := hx r s
  rw [handle]
  revert hstep
  rcases x r s with ⟨a | e | _, s'⟩
  · exact fun hstep => ⟨nofun, hstep.2⟩
  · exact fun hstep => ⟨(hh e r s').1, trans_of R hstep.2 (hh e r s').2⟩
  · exact fun hstep => absurd rfl hstep.1

end Ends

/-! ## Computations that yield a known result -/

theorem ok_bind (a : α) (f : α → Except ε β) : ((.ok a : Except ε α) >>= f) = f a := rfl

theorem error_bind (e : ε) (f : α → Except ε β) : ((.error e : Except ε α) >>= f) = .error e := rfl

/-- A result that is there came out of the first step and of the second. -/
theorem except_bind_eq_ok {x : Except ε α} {f : α → Except ε β} {b : β} :
    (x >>= f) = .ok b ↔ ∃ a, x = .ok a ∧ f a = .ok b := by
  cases x with
  | ok a => exact ⟨fun h => ⟨a, rfl, h⟩, by rintro ⟨_, ⟨⟩, h⟩; exact h⟩
  | error e => exact ⟨nofun, by rintro ⟨_, ⟨⟩, _⟩⟩

theorem except_map_eq_ok {x : Except ε α} {f : α → β} {b : β} : x.map f = .ok b ↔ ∃ a, x = .ok a ∧ f a = b := by
  cases x with
  | ok a => exact ⟨fun h => ⟨a, rfl, Except.ok.inj h⟩, by rintro ⟨_, ⟨⟩, rfl⟩; rfl⟩
  | error e => exact ⟨nofun, by rintro ⟨_, ⟨⟩, _⟩⟩

/-- How a result ends a computation. -/
def Outcome.ofExcept : Except ε α → Outcome ε α
  | .ok a => .done a
  | .error e => .raised e

/-- In the environment `r`, `x` always ends as `res` says and moves the state by `R` only. -/
def Yields (R : σ → σ → Prop) (r : ρ) (x : Comp ρ σ ε α) (res : Except ε α) : Prop :=
  ∀ s, ∃ s', R s s' ∧ x r s = (Outcome.ofExcept res, s')

section Yields

variable {R : σ → σ → Prop} {r : ρ}

theorem yields_pure [Std.Refl R] (a : α) : Yields R r (pure a : Comp ρ σ ε α) (.ok a) :=
  fun s => ⟨s, refl_of R s, rfl⟩

theorem yields_raise [Std.Refl R] (e : ε) : Yields R r (raise e : Comp ρ σ ε α) (.error e) :=
  fun s => ⟨s, refl_of R s, rfl⟩

theorem yields_bind [IsTrans σ R] {x : Comp ρ σ ε α} {f : α → Comp ρ σ ε β} {p : Except ε α}
    {q : α → Except ε β} (hx : Yields R r x p) (hf : ∀ a, Yields R r (f a) (q a)) :
    Yields R r (x >>= f) (p >>= q) := by
  intro s
  obtain ⟨s', hs', hrun⟩ := hx s
  cases p with
  | error e => exact ⟨s', hs', by rw [bind_run, hrun]; rfl⟩
  | ok a =>
      obtain ⟨s'', hs'', hrun'⟩ := hf a s'
      refine ⟨s'', trans_of R hs' hs'', ?_⟩
      rw [bind_run_done hrun, hrun']
      rfl

/-- Sequencing after a computation that returns. -/
theorem yields_bind_ok [IsTrans σ R] {x : Comp ρ σ ε α} {f : α → Comp ρ σ ε β} {a : α}
    {res : Except ε β} (hx : Yields R r x (.ok a)) (hf : Yields R r (f a) res) :
    Yields R r (x >>= f) res := by
  intro s
  obtain ⟨s', hs', hrun⟩ := hx s
  obtain ⟨s'', hs'', hrun'⟩ := hf s'
  exact ⟨s'', trans_of R hs' hs'', (bind_run_done hrun).trans hrun'⟩

/-- Nothing runs after a computation that raises. -/
theorem yields_bind_error {x : Comp ρ σ ε α} {f : α → Comp ρ σ ε β} {e : ε}
    (hx : Yields R r x (.error e)) : Yields R r (x >>= f) (.error e) := by
  intro s
  obtain ⟨s', hs', hrun⟩ := hx s
  exact ⟨s', hs', bind_run_raised hrun⟩

end Yields

/-! ## Booking what a run logs -/

/-- An append-only log kept in a state: which entries count, and the states that are not held to a count. -/
structure Ledger (σ ι : Type) where
  log : σ → List ι
  counts : ι → Bool
  excused : σ → Prop

namespace Ledger

variable {ι : Type} (L : Ledger σ ι)

/-- Entries were added to the log, as many of them counting as `q` allows or the later state is excused;
an excuse is never taken back. -/
def Books (q : Nat → Prop) (s s' : σ) : Prop :=
  ∃ new, L.log s' = L.log s ++ new ∧ (L.excused s → L.excused s') ∧
    (L.excused s' ∨ q (new.countP L.counts))

/-- How a run must have ended: one that returns `a` has booked `n a`, one that raises is short of `t` by
one. -/
def Owed (t : Nat) (n : α → Nat) (s : σ) : Outcome ε α × σ → Prop
  | (.done a, s') => L.Books (· = n a) s s'
  | (.raised _, s') => L.Books (· + 1 = t) s s'
  | (.hung, _) => True

def Owes (t : Nat) (n : α → Nat) (x : Comp ρ σ ε α) : Prop := ∀ r s, L.Owed t n s (x r s)

/-- `x` books `n` and returns, unless it is excused. -/
def Sends (n : Nat) (x : Comp ρ σ ε α) : Prop := L.Owes 0 (fun _ => n) x

/-- `x` books `t`, or one less and raises. -/
def Totals (t : Nat) (x : Comp ρ σ ε α) : Prop := L.Owes t (fun _ => t) x

/-- `x` logs nothing that counts, however it ends. -/
def Silent (x : Comp ρ σ ε α) : Prop := Within (L.Books (· = 0)) x

variable {L}

theorem Books.mono {p q : Nat → Prop} {s s' : σ} (h : L.Books p s s') (hpq : ∀ c, p c → q c) :
    L.Books q s s' := by
  obtain ⟨new, hlog, hstick, hcount⟩ := h
  exact ⟨new, hlog, hstick, hcount.imp_right (hpq _)⟩

theorem Books.trans {p q o : Nat → Prop} {s t u : σ} (h₁ : L.Books p s t) (h₂ : L.Books q t u)
    (hpq : ∀ c d, p c → q d → o (c + d)) : L.Books o s u := by
  obtain ⟨new₁, hlog₁, hstick₁, hcount₁⟩ := h₁
  obtain ⟨new₂, hlog₂, hstick₂, hcount₂⟩ := h₂
  refine ⟨new₁ ++ new₂, by rw [hlog₂, hlog₁, List.append_assoc], hstick₂ ∘ hstick₁, ?_⟩
  rw [List.countP_append]
  rcases hcount₂ with hexcused | hcount₂
  · exact Or.inl hexcused
  · rcases hcount₁ with hexcused | hcount₁
    · exact Or.inl (hstick₂ hexcused)
    · exact Or.inr (hpq _ _ hcount₁ hcount₂)

/-- Nothing is logged and no excuse is taken back. -/
theorem Books.unchanged {s s' : σ} (hlog : L.log s' = L.log s) (hstick : L.excused s → L.excused s') :
    L.Books (· = 0) s s' := ⟨[], by rw [hlog, List.append_nil], hstick, Or.inr rfl⟩

/-- Nothing that is logged after an excuse needs to be counted. -/
theorem Books.excused {p q : Nat → Prop} {s s' : σ} (h : L.Books p s s') (hp : ∀ c, ¬ p c) :
    L.Books q s s' := h.mono fun c hc => absurd hc (hp c)

instance : Std.Refl (L.Books (· = 0)) := ⟨fun _ => Books.unchanged rfl id⟩

instance : IsTrans σ (L.Books (· = 0)) := ⟨fun _ _ _ h₁ h₂ => h₁.trans h₂ fun _ _ hc hd => by omega⟩

theorem owes_pure {t : Nat} {n : α → Nat} (a : α) (h : n a = 0) : L.Owes t n (pure a : Comp ρ σ ε α) :=
  fun _ _ => (Books.unchanged rfl id).mono fun _ hc => hc.trans h.symm

theorem totals_raise (e : ε) : L.Totals 1 (raise e : Comp ρ σ ε α) :=
  fun _ _ => (Books.unchanged rfl id).mono fun _ hc => congrArg (· + 1) hc

/-- What raises only when it is excused may be charged anything for raising. -/
theorem Owed.charge {t : Nat} {n : α → Nat} {s : σ} {o : Outcome ε α × σ} (h : L.Owed 0 n s o) :
    L.Owed t n s o := by
  rcases o with ⟨a | e | _, s'⟩
  · exact h
  · have hraised : L.Books (· + 1 = 0) s s' := h
    show L.Books (· + 1 = t) s s'
    exact hraised.excused Nat.succ_ne_zero
  · trivial

/-- What came before without being logged does not change what is owed. -/
theorem Owed.after {t : Nat} {n : α → Nat} {s s' : σ} {o : Outcome ε α × σ} (h : L.Owed t n s' o)
    (hbefore : L.Books (· = 0) s s') : L.Owed t n s o := by
  rcases o with ⟨a | e | _, s''⟩
  · have hdone : L.Books (· = n a) s' s'' := h
    show L.Books (· = n a) s s''
    exact hbefore.trans hdone fun c d hc hd => by omega
  · have hraised : L.Books (· + 1 = t) s' s'' := h
    show L.Books (· + 1 = t) s s''
    exact hbefore.trans hraised fun c d hc hd => by omega
  · trivial

theorem Sends.totals {n : Nat} {x : Comp ρ σ ε α} (hx : L.Sends n x) : L.Totals n x :=
  fun r s => (hx r s).charge

/-- What is silent owes one when it raises. -/
theorem Silent.owes {x : Comp ρ σ ε α} (hx : L.Silent x) : L.Owes 1 (fun _ => 0) x := by
  intro r s
  have h := hx r s
  revert h
  rcases x r s with ⟨a | e | _, s'⟩
  · exact id
  · exact fun h => Books.mono h fun _ hc => congrArg (· + 1) hc
  · exact fun _ => trivial

/-- Sequencing: what the first part has booked is taken off what the second part owes. -/
theorem owed_bind {t : Nat} {n : α → Nat} {m : β → Nat} {x : Comp ρ σ ε α} {f : α → Comp ρ σ ε β}
    {r : ρ} {s : σ} (hx : L.Owed t n s (x r s))
    (hf : ∀ a s', x r s = (.done a, s') → ∃ k l, L.Owed k l s' (f a r s') ∧
      (k = 0 ∨ n a + k = t) ∧ ∀ b s'', f a r s' = (.done b, s'') → n a + l b = m b) :
    L.Owed t m s ((x >>= f) r s) := by
  rw [bind_run]
  revert hx hf
  rcases x r s with ⟨a | e | _, s'⟩
  · intro (hx : L.Books (· = n a) s s') hf
    obtain ⟨k, l, hrest, hcharge, hsum⟩ := hf a s' rfl
    show L.Owed t m s (f a r s')
    revert hrest hsum
    rcases f a r s' with ⟨b | e | _, s''⟩
    · intro (hrest : L.Books (· = l b) s' s'') hsum
      show L.Books (· = m b) s s''
      refine hx.trans hrest ?_
      intro c d hc hd
      have hb := hsum b s'' rfl
      omega
    · intro (hrest : L.Books (· + 1 = k) s' s'') _
      show L.Books (· + 1 = t) s s''
      refine hx.trans hrest ?_
      intro c d hc hd
      omega
    · exact fun _ _ => trivial
  · exact fun hx _ => hx
  · exact fun _ _ => trivial

theorem owes_bind {t k : Nat} {n : α → Nat} {l m : β → Nat} {x : Comp ρ σ ε α}
    {f : α → Comp ρ σ ε β} (hx : L.Owes t n x) (hf : ∀ a, L.Owes k l (f a))
    (hcharge : ∀ a, k = 0 ∨ n a + k = t) (hsum : ∀ a b, n a + l b = m b) : L.Owes t m (x >>= f) :=
  fun r s => owed_bind (hx r s) fun a s' _ => ⟨k, l, hf a r s', hcharge a, fun b _ _ => hsum a b⟩

theorem sends_bind {m n : Nat} {x : Comp ρ σ ε α} {f : α → Comp ρ σ ε β}
    (hx : L.Sends m x) (hf : ∀ a, L.Sends n (f a)) : L.Sends (m + n) (x >>= f) :=
  owes_bind hx hf (fun _ => Or.inl rfl) fun _ _ => rfl

theorem totals_bind_sends {m n : Nat} {x : Comp ρ σ ε α} {f : α → Comp ρ σ ε β}
    (hx : L.Sends m x) (hf : ∀ a, L.Totals n (f a)) : L.Totals (m + n) (x >>= f) :=
  owes_bind (fun r s => (hx r s).charge) hf (fun _ => Or.inr rfl) fun _ _ => rfl

/-- A computation that logs nothing may be put in front of one that books one. -/
theorem totals_bind_silent {x : Comp ρ σ ε α} {f : α → Comp ρ σ ε β} (hx : L.Silent x)
    (hf : ∀ a, L.Totals 1 (f a)) : L.Totals 1 (x >>= f) :=
  owes_bind hx.owes hf (fun _ => Or.inr rfl) fun _ _ => rfl

/-- A handler that books one for every exception pays what is owed. -/
theorem owed_handle {t : Nat} {x : Comp ρ σ ε α} {h : ε → Comp ρ σ ε α} {r : ρ} {s : σ}
    (hx : L.Owed t (fun _ => t) s (x r s)) (hh : ∀ e, L.Sends 1 (h e)) :
    L.Owed 0 (fun _ => t) s (handle x h r s) := by
  rw [handle]
  revert hx
  rcases x r s with ⟨a | e | _, s'⟩
  · exact id
  · intro (hx : L.Books (· + 1 = t) s s')
    have hpaid := hh e r s'
    revert hpaid
    show L.Owed 0 (fun _ => 1) s' (h e r s') → L.Owed 0 (fun _ => t) s (h e r s')
    rcases h e r s' with ⟨_ | _ | _, s''⟩
    · intro (hpaid : L.Books (· = 1) s' s'')
      show L.Books (· = t) s s''
      refine hx.trans hpaid ?_
      intro c d hc hd
      omega
    · intro (hpaid : L.Books (· + 1 = 0) s' s'')
      show L.Books (· + 1 = 0) s s''
      exact hx.trans hpaid fun _ d _ hd => absurd hd d.succ_ne_zero
    · exact id
  · exact id

end Ledger

end UnicoreTsi.Effects
