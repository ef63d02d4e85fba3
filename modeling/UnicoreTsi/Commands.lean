/-
# UnicoreTsi.Commands — which commands a function of the command table starts.

Commands are logged in the state of a handler when they are started.  `Idle` says that none has been, and
`Starts P` that at most one has, which meets `P`; a sequence of computations of which one may start a command
and the others are idle starts at most that one.
-/
import UnicoreTsi.Io
import UnicoreTsi.BssCommon

set_option autoImplicit false

namespace UnicoreTsi.Utils

open UnicoreTsi.Text UnicoreTsi.Effects UnicoreTsi.Connector UnicoreTsi.BssCommon

/-- No command has been started. -/
def Idle (s s' : HandlerState) : Prop := s'.commands = s.commands

instance : Std.Refl Idle := ⟨fun _ => rfl⟩

instance : IsTrans HandlerState Idle := ⟨fun _ _ _ h h' => Eq.trans h' h⟩

/-- At most one command has been started, and it meets `P`. -/
def Starts (P : List Str → Prop) (s s' : HandlerState) : Prop :=
  s'.commands = s.commands ∨ ∃ args, s'.commands = s.commands ++ [args] ∧ P args

section Starts

variable {P : List Str → Prop} {α β : Type} {x : Handler α} {f : α → Handler β}

theorem Idle.starts {s s' : HandlerState} (h : Idle s s') : Starts P s s' := Or.inl h

theorem starts_of_idle (hx : Within Idle x) : Within (Starts P) x := within_mono (fun _ _ => Idle.starts) hx

theorem starts_logCommand {args : List Str} (h : P args) : Within (Starts P) (logCommand args) :=
  within_modify fun _ => Or.inr ⟨args, rfl, h⟩

/-- Nothing is started before `f`. -/
theorem starts_bind_idle (hx : Within Idle x) (hf : ∀ a, Within (Starts P) (f a)) :
    Within (Starts P) (x >>= f) := by
  intro r s
  have hfirst : Idle s (x r s).2 := hx r s
  refine bind_post hfirst.starts ?_
  intro a t ht
  rw [ht] at hfirst
  have hsecond := hf a r t
  rwa [Starts, show t.commands = s.commands from hfirst] at hsecond

/-- The value of a result is known in what follows. -/
theorem starts_ofExcept_bind {res : Except PyExc α} (hf : ∀ a, res = .ok a → Within (Starts P) (f a)) :
    Within (Starts P) (ofExcept res >>= f) := by
  cases res with
  | error e => exact starts_of_idle (within_raise e)
  | ok a => exact hf a rfl

/-- Nothing is started after `x`. -/
theorem starts_idle_bind (hx : Within (Starts P) x) (hf : ∀ a, Within Idle (f a)) :
    Within (Starts P) (x >>= f) := by
  intro r s
  have hfirst := hx r s
  refine bind_post hfirst ?_
  intro a t ht
  rw [ht] at hfirst
  have hsecond : Idle t (f a r t).2 := hf a r t
  rwa [Starts, show (f a r t).2.commands = t.commands from hsecond]

end Starts

/-! ## Idle operations -/

theorem idle_of_ticks {α : Type} {x : Handler α} (hx : Within Ticks x) : Within Idle x := by
  refine within_mono ?_ hx
  rintro s _ ⟨n, rfl⟩
  rfl

theorem consult_idle {α : Type} (f : Host → Nat → α) : Within Idle (consult f) :=
  idle_of_ticks (consult_ticks f)

theorem attempt_idle {α : Type} (f : Host → Nat → Except PyExc α) : Within Idle (attempt f) :=
  idle_of_ticks (attempt_ticks f)

theorem sysCall_idle (c : SysCall) : Within Idle (sysCall c) := idle_of_ticks (sysCall_ticks c)

theorem acknowledge_commands (c : ConnCall) (s : HandlerState) : (acknowledge c s).commands = s.commands := by
  unfold acknowledge
  split <;> rfl

theorem send_idle (c : ConnCall) : Within Idle (send c) := by
  intro r s
  rw [send_run]
  split
  · exact rfl
  · exact acknowledge_commands c _

theorem addperms_idle (path : Str) (mode : Nat) : Within Idle (addperms path mode) :=
  within_bind (attempt_idle _) fun _ => sysCall_idle _

theorem withFile_idle {α : Type} (path mode : Str) {body : Handler α} (hbody : Within Idle body) :
    Within Idle (Io.withFile path mode body) := by
  refine within_bind (sysCall_idle _) ?_
  intro _
  refine within_bind (within_handle hbody fun e => ?_) ?_
  · exact within_bind (sysCall_idle _) fun _ => within_raise e
  · exact fun _ => within_bind (sysCall_idle _) fun _ => within_pure _

theorem writeText_idle (path content : Str) : Within Idle (Io.writeText path content) :=
  withFile_idle _ _ (within_modify fun _ => rfl)

theorem makeDir_idle (path : Str) : Within Idle (makeDir path) := by
  refine within_bind (consult_idle _) fun found => ?_
  split
  · exact sysCall_idle _
  · exact within_pure _

/-- `run_command` starts the command it is given. -/
theorem runCommand_starts (cmd : Str) (discard keepPid loginShell : Bool) :
    Within (Starts (· = shellArgs cmd loginShell)) (runCommand cmd discard keepPid loginShell) := by
  refine starts_idle_bind (starts_logCommand rfl) ?_
  intro _
  split
  · refine within_bind (attempt_idle _) ?_
    intro pid
    split
    · exact within_bind (within_modify fun _ => rfl) fun _ => within_pure _
    · exact within_pure _
  · refine within_bind (attempt_idle _) ?_
    rintro ⟨code, raw⟩
    refine within_bind (within_ofExcept _) ?_
    intro output
    split
    · exact within_pure _
    · exact within_pure _

end UnicoreTsi.Utils
