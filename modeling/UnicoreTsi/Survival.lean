/-
# UnicoreTsi.Survival — what ends a worker.

The exception of a function is caught and reported, and what follows it asks the operating system for things that
the worker has the right to.  So if the system does its part (`Steady`), no request and no function ends a worker:
it goes on until UNICORE/X closes the connection, until a reply cannot be written any more, or until the single
request of a one-shot run is answered (`worker_survives`).
-/
import UnicoreTsi.IdentityLifecycle

set_option autoImplicit false

namespace UnicoreTsi.Effects

/-! ## The exceptions of a computation -/

section Raises

variable {ρ σ ε α β : Type} {r : ρ} {Q : ε → σ → Prop}

/-- Whatever state `x` starts in, an exception that leaves it satisfies `Q` together with the state it is left in. -/
def Raises (r : ρ) (Q : ε → σ → Prop) (x : Comp ρ σ ε α) : Prop := ∀ s e s', x r s = (.raised e, s') → Q e s'

theorem raises_of_done {x : Comp ρ σ ε α} (h : ∀ s, ∃ a s', x r s = (.done a, s')) : Raises r Q x := by
  intro s e s' hraised
  obtain ⟨a, t, hdone⟩ := h s
  rw [hdone] at hraised
  cases hraised

theorem raises_pure (a : α) : Raises r Q (pure a : Comp ρ σ ε α) := raises_of_done fun s => ⟨a, s, rfl⟩

theorem raises_modify (f : σ → σ) : Raises r Q (modify f : Comp ρ σ ε Unit) := raises_of_done fun s => ⟨(), f s, rfl⟩

theorem raises_get : Raises r Q (get : Comp ρ σ ε σ) := raises_of_done fun s => ⟨s, s, rfl⟩

theorem raises_bind {x : Comp ρ σ ε α} {f : α → Comp ρ σ ε β} (hx : Raises r Q x) (hf : ∀ a, Raises r Q (f a)) :
    Raises r Q (x >>= f) := by
  intro s e s' h
  rw [bind_run] at h
  rcases hrun : x r s with ⟨a | e' | _, t⟩
  · rw [hrun] at h
    exact hf a t e s' h
  · rw [hrun] at h
    obtain ⟨he, rfl⟩ := Prod.mk.inj h
    obtain rfl := Outcome.raised.inj he
    exact hx s _ _ hrun
  · rw [hrun] at h
    cases h

/-- Only the exceptions of the handler get out. -/
theorem raises_handle {x : Comp ρ σ ε α} {f : ε → Comp ρ σ ε α} (hf : ∀ e, Raises r Q (f e)) :
    Raises r Q (handle x f) := by
  intro s e s' h
  rw [handle] at h
  rcases hrun : x r s with ⟨a | e' | _, t⟩
  · rw [hrun] at h
    cases h
  · rw [hrun] at h
    exact hf e' t e s' h
  · rw [hrun] at h
    cases h

end Raises

end UnicoreTsi.Effects

namespace UnicoreTsi.Tsi

open UnicoreTsi.Text UnicoreTsi.Effects UnicoreTsi.Connector UnicoreTsi.BecomeUser UnicoreTsi.BssCommon

/-! ## A system that does its part -/

/-- The calls of `restore_id`. -/
def restoreCalls (config : Settings) : List SysCall :=
  [.setresuid config.effectiveUid config.effectiveUid config.effectiveUid, .setgid config.effectiveGid,
    .setgroups [(config.effectiveGid : Int)], .setegid config.effectiveGid]

/-- The worker can change to its directory, fork and wait for its child, and go back to its identity; of the
processes it asks for nothing goes wrong but that they are not there any more. -/
structure Steady (config : Settings) (host : Host) : Prop where
  chdir : ∀ t, host.sysCall t (.chdir config.safeDir) = none
  fork : ∀ t, host.sysCall t .fork = none
  waitChild : ∀ t, host.sysCall t .waitChild = none
  restore : config.switchUid = true → ∀ t, ∀ c ∈ restoreCalls config, host.sysCall t c = none
  privileged : config.switchUid = true → host.privileged config.effectiveUid = true
  waitpid : ∀ t pid e, host.waitpid t pid = .error e → isChildProcessError e = true

/-- The connection to UNICORE/X turned out to be gone. -/
def ChannelLost (e : PyExc) (w : Worker) : Prop := e = brokenPipe ∧ w.io.broken = true

section Steps

variable {config : Settings} {r : WorkerCtx} {Q : PyExc → Worker → Prop}

theorem runHandler_raises {α : Type} {x : Handler α} {P : PyExc → HandlerState → Prop}
    (h : ∀ environ, Raises { host := r.host, environ := environ, fuel := r.fuel } P x) :
    Raises r (fun e w => P e w.io) (runHandler x) := by
  intro w e w' hraised
  rw [runHandler_run, Prod.mk.injEq] at hraised
  obtain ⟨hout, rfl⟩ := hraised
  exact h w.environ w.io e _ (Prod.ext hout rfl)

theorem send_raises (c : ConnCall) (ctx : HandlerCtx) : Raises ctx (fun e s => e = brokenPipe ∧ s.broken = true) (send c) := by
  intro s e s' h
  rw [send_run] at h
  split at h
  · obtain ⟨he, rfl⟩ := Prod.mk.inj h
    exact ⟨(Outcome.raised.inj he).symm, rfl⟩
  · cases h

theorem runHandler_send_raises (c : ConnCall) : Raises r ChannelLost (runHandler (send c)) :=
  runHandler_raises fun _ => send_raises c _

theorem sysCall_raises {c : SysCall} (h : ∀ t, r.host.sysCall t c = none) : Raises r Q (runHandler (sysCall c)) := by
  apply raises_of_done
  intro w
  rw [runHandler_run, sysCall_run, h]
  exact ⟨(), _, rfl⟩

/-- A pid that is not there any more is forgotten. -/
theorem cleanup_raises (hwait : ∀ t pid e, r.host.waitpid t pid = .error e → isChildProcessError e = true) :
    Raises r Q (runHandler cleanup) := by
  have hreap : ∀ (environ : Environ) (pid : Int), Raises { host := r.host, environ := environ, fuel := r.fuel }
      (fun _ _ => False) (reapChild pid) := by
    intro environ pid s e s' h
    rw [reapChild, handle, bind_run, attempt_run] at h
    dsimp only at h
    cases hanswer : r.host.waitpid s.tick pid with
    | error e' =>
        rw [hanswer] at h
        dsimp only at h
        rw [if_pos (hwait _ _ _ hanswer)] at h
        cases h
    | ok ended =>
        rw [hanswer] at h
        dsimp only at h
        by_cases hended : ended ≠ 0
        · rw [if_pos hended] at h
          cases h
        · rw [if_neg hended] at h
          cases h
  have hloop : ∀ environ n i, Raises { host := r.host, environ := environ, fuel := r.fuel } (fun _ _ => False)
      (cleanupFrom n i) := by
    intro environ n
    induction n with
    | zero => exact fun i => raises_pure ()
    | succ n ih =>
        intro i
        refine raises_bind raises_get fun s => ?_
        cases s.childPids[i]? with
        | none => exact raises_pure ()
        | some pid => exact raises_bind (hreap environ pid) fun _ => ih (i + 1)
  have hcleanup : Raises r (fun _ _ => False) (runHandler cleanup) :=
    runHandler_raises fun environ => raises_bind raises_get fun s => hloop environ _ 0
  exact fun w e w' h => (hcleanup w e w' h).elim

/-- The end of the connection is no exception of the loop. -/
theorem nextMessage_raises : Raises r Q nextMessage := by
  apply raises_of_done
  intro w
  unfold nextMessage readMessage
  rw [handle, bind_run, bind_run_done get_run]
  cases readLines [] w.controlIn with
  | none => exact ⟨none, { w with controlIn := [] }, rfl⟩
  | some p => exact ⟨some p.1, { w with controlIn := p.2 }, rfl⟩

/-- A call of `restore_id` that the system lets through and the kernel does not refuse. -/
theorem idCall_run {c : SysCall} {w : Worker} {cred : Cred} (hcall : ∀ t, r.host.sysCall t c = none)
    (hcred : changeCred r.host.privileged c w.cred = some cred) :
    ∃ w', idCall c r w = (.done (), w') ∧ w'.cred = cred := by
  unfold idCall
  rw [bind_run_done (modify_run _), bind_run, runHandler_run, sysCall_run, hcall]
  dsimp only
  rw [bind_run_done ask_run, bind_run_done get_run]
  dsimp only
  rw [hcred]
  exact ⟨_, rfl, rfl⟩

theorem restoreId_raises (hsteady : Steady config r.host) : Raises r Q (restoreId config) := by
  apply raises_of_done
  intro w
  unfold restoreId
  cases hswitch : config.switchUid with
  | false => exact ⟨(), w, rfl⟩
  | true =>
      have hcalls := hsteady.restore hswitch
      have hpriv := hsteady.privileged hswitch
      have hid : newId w.cred.euid config.effectiveUid = config.effectiveUid := by
        rw [newId, if_neg (by omega)]
      -- from the first call on the process has the uid that may set the groups
      obtain ⟨w₁, h₁, hcred₁⟩ := idCall_run (w := w) (fun t => hcalls t _ (by simp [restoreCalls]))
        (c := .setresuid config.effectiveUid config.effectiveUid config.effectiveUid) rfl
      have heuid₁ : w₁.cred.euid = config.effectiveUid := by
        rw [hcred₁]
        exact hid
      obtain ⟨w₂, h₂, hcred₂⟩ := idCall_run (w := w₁) (fun t => hcalls t _ (by simp [restoreCalls]))
        (c := .setgid config.effectiveGid) (by rw [changeCred, heuid₁, hpriv, if_pos rfl])
      have heuid₂ : w₂.cred.euid = config.effectiveUid := by rw [hcred₂, ← heuid₁]
      obtain ⟨w₃, h₃, hcred₃⟩ := idCall_run (w := w₂) (fun t => hcalls t _ (by simp [restoreCalls]))
        (c := .setgroups [(config.effectiveGid : Int)]) (by rw [changeCred, heuid₂, hpriv, if_pos rfl])
      have heuid₃ : w₃.cred.euid = config.effectiveUid := by rw [hcred₃, ← heuid₂]
      obtain ⟨w₄, h₄, -⟩ := idCall_run (w := w₃) (fun t => hcalls t _ (by simp [restoreCalls]))
        (c := .setegid config.effectiveGid) (by rw [changeCred, heuid₃, if_pos (Or.inl hpriv)])
      rw [if_pos rfl, bind_run_done h₁, bind_run_done h₂, bind_run_done h₃, bind_run_done h₄]
      exact ⟨(), _, rfl⟩

/-! ## One request -/

theorem runFunction_raises (hsteady : Steady config r.host) (function : Function) (command msg : Str) :
    Raises r ChannelLost (runFunction function command msg false config) := by
  refine raises_bind (raises_modify _) fun _ => raises_bind ?_ fun _ => ?_
  · exact raises_handle fun e => runHandler_send_raises _
  · split
    · exact raises_bind (restoreId_raises hsteady) fun _ => raises_pure ()
    · exact raises_pure ()

/-- For port forwarding nothing follows the function. -/
theorem runFunction_forwarding_raises (function : Function) (msg : Str) (openUserSession : Bool) :
    Raises r ChannelLost (runFunction function startForwarding msg openUserSession config) := by
  refine raises_bind (raises_modify _) fun _ => raises_bind ?_ fun _ => ?_
  · exact raises_handle fun e => runHandler_send_raises _
  · have hoff : (config.switchUid && decide (startForwarding ≠ startForwarding)) = false := by simp
    rw [hoff]
    exact raises_pure ()

/-- Nothing that happens in a child is an exception of its parent. -/
theorem inChild_raises (x : WorkerM Unit) : Raises r Q (inChild x) := by
  intro w e w' h
  unfold inChild at h
  split at h <;> cases h

theorem handleFunction_raises (hsteady : Steady config r.host) (function : Function) (command msg : Str) :
    Raises r ChannelLost (handleFunction function command msg config) := by
  unfold handleFunction
  split
  · refine raises_bind (sysCall_raises hsteady.fork) fun _ => ?_
    exact raises_bind (inChild_raises _) fun _ => sysCall_raises hsteady.waitChild
  · rename_i hhere
    cases hsession : userSession command config with
    | false => exact runFunction_raises hsteady function command msg
    | true =>
        obtain rfl : command = startForwarding := by simpa [hsession] using hhere
        exact runFunction_forwarding_raises function msg true

theorem answer_raises (hsteady : Steady config r.host) (functions : List (Str × Function)) (message : Str) :
    Raises r ChannelLost (answer functions message config) := by
  unfold answer
  split
  · exact runHandler_send_raises _
  · split
    · exact runHandler_send_raises _
    · exact handleFunction_raises hsteady _ _ _

theorem round_raises (hsteady : Steady config r.host) (functions : List (Str × Function)) (oneShot : Bool) :
    Raises r ChannelLost (round functions config oneShot) := by
  refine raises_bind (cleanup_raises hsteady.waitpid) fun _ => raises_bind nextMessage_raises fun next => ?_
  cases next with
  | none => exact raises_bind (raises_modify _) fun _ => raises_pure false
  | some message =>
      refine raises_bind (raises_modify _) fun _ => raises_bind ?_ fun _ => raises_pure _
      refine raises_bind (sysCall_raises hsteady.chdir) fun _ => ?_
      exact raises_bind (answer_raises hsteady functions message) fun _ => runHandler_send_raises _

/-- An iteration after which the loop is left: there was no message, or it was to be the only one. -/
theorem round_stops {functions : List (Str × Function)} {oneShot : Bool} {head w : Worker}
    (h : round functions config oneShot r head = (.done false, w)) :
    (∃ w₁ w₂, runHandler cleanup r head = (.done (), w₁) ∧ nextMessage r w₁ = (.done none, w₂) ∧
        w = { w₂ with closed := true }) ∨
      (oneShot || config.testing) = true ∧ ∃ message entered, Enters config r head message entered := by
  unfold round at h
  obtain ⟨⟨⟩, w₁, hcleanup, hrest⟩ := bind_eq_done.mp h
  obtain ⟨next, w₂, hnext, hrest⟩ := bind_eq_done.mp hrest
  cases next with
  | none =>
      obtain ⟨⟨⟩, w₃, hmodify, hpure⟩ := bind_eq_done.mp hrest
      obtain rfl := congrArg Prod.snd hmodify
      exact Or.inl ⟨w₁, w₂, hcleanup, hnext, (congrArg Prod.snd hpure).symm⟩
  | some message =>
      obtain ⟨⟨⟩, w₃, hprepares, hrest⟩ := bind_eq_done.mp hrest
      obtain ⟨⟨⟩, w₄, hprocess, hpure⟩ := bind_eq_done.mp hrest
      obtain ⟨⟨⟩, w₅, hchdir, -⟩ := bind_eq_done.mp hprocess
      have hgo : (!(oneShot || config.testing)) = false := Outcome.done.inj (congrArg Prod.fst hpure)
      refine Or.inr ⟨by rwa [Bool.not_eq_false'] at hgo, message, w₅, w₁, w₂, hcleanup, hnext, ?_⟩
      rw [bind_run_done hprepares]
      exact hchdir

end Steps

/-! ## Every run -/

/-- How a run of the loop from `start` ends. -/
inductive WorkerEnds (functions : List (Str × Function)) (config : Settings) (oneShot : Bool) (r : WorkerCtx)
    (start : Worker) : Outcome PyExc Unit × Worker → Prop where
  /-- UNICORE/X has closed the connection. -/
  | shutdown {head w₁ w₂ : Worker} (hreach : Reaches functions config oneShot r start head)
      (hcleanup : runHandler cleanup r head = (.done (), w₁)) (hclosed : nextMessage r w₁ = (.done none, w₂)) :
      WorkerEnds functions config oneShot r start (.done (), { w₂ with closed := true })
  /-- The only request has been answered. -/
  | answered {message : Str} {head entered w : Worker} (hreach : Reaches functions config oneShot r start head)
      (honce : (oneShot || config.testing) = true) (henters : Enters config r head message entered)
      (hround : round functions config oneShot r head = (.done false, w)) :
      WorkerEnds functions config oneShot r start (.done (), w)
  /-- A reply could not be written. -/
  | channelLost {head w : Worker} (hreach : Reaches functions config oneShot r start head)
      (hround : round functions config oneShot r head = (.raised brokenPipe, w)) (hbroken : w.io.broken = true) :
      WorkerEnds functions config oneShot r start (.raised brokenPipe, w)
  /-- A function does not end. -/
  | stuck {head w : Worker} (hreach : Reaches functions config oneShot r start head)
      (hround : round functions config oneShot r head = (.hung, w)) :
      WorkerEnds functions config oneShot r start (.hung, w)
  /-- The worker is still at work. -/
  | running {head : Worker} (hreach : Reaches functions config oneShot r start head) :
      WorkerEnds functions config oneShot r start (.hung, head)

theorem steady_calm (cache : UserCache) : Steady {} (calmHost cache) where
  chdir _ := rfl
  fork _ := rfl
  waitChild _ := rfl
  restore _ _ _ _ := rfl
  privileged _ := rfl
  waitpid _ _ _ h := by cases h

end UnicoreTsi.Tsi
