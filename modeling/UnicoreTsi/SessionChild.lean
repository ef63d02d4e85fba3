/-
# UnicoreTsi.SessionChild — the PAM session of a child, from its opening to its end.

The child of a spawning request opens a PAM session, becomes the user, calls the function, restores the identity and
closes the session.  The cleanup comes after a handler for every exception, and it uses a variable that is assigned
when the PAM object has been made.  So the session is closed as it was opened if it was opened; without a PAM object
the child does not get to its `os._exit(0)`, and with one that failed to open a session it closes a session all the
same (`closes_as_opened_iff`).
-/
import UnicoreTsi.IdentityLifecycle
import UnicoreTsi.OneStatus
import UnicoreTsi.PamSessions

set_option autoImplicit false

namespace UnicoreTsi.Tsi

open UnicoreTsi.Text UnicoreTsi.Effects UnicoreTsi.Processes UnicoreTsi.Utils UnicoreTsi.Connector UnicoreTsi.BssCommon
open UnicoreTsi.BecomeUser

/-! ## Opening a session -/

/-- The first part of `assumeIdentity`, up to the open session. -/
def openFor (msg : Str) (config : Settings) : WorkerM (Str × List Str) := do
  let (user, groups) ← ofExcept (match requestedIdentity msg with
    | some info => .ok info
    | none => .error noUserInfo)
  loadPam config.pamModule
  openSession user
  return (user, groups)

theorem assumeIdentity_eq (msg : Str) (config : Settings) :
    assumeIdentity msg true config = (openFor msg config >>= fun p => do
      let _ ← becomeUser p.1 p.2 config) := by
  rw [assumeIdentity, openFor, bind_assoc]
  refine congrArg _ (funext fun info => ?_)
  obtain ⟨user, groups⟩ := info
  dsimp only
  rw [if_pos rfl, bind_assoc, bind_assoc]
  refine congrArg _ (funext fun _ => congrArg _ (funext fun _ => ?_))
  exact (pure_bind _ _).symm

/-- The session can be opened at this time: the message names a user, the PAM object can be made, and PAM opens a
session for the name. -/
def OpensSession (msg : Str) (config : Settings) (host : Host) (tick : Nat) : Prop :=
  ∃ user groups, requestedIdentity msg = some (user, groups) ∧ isAscii config.pamModule = true ∧
    host.sysCall tick (.loadPam config.pamModule) = none ∧ isAscii user = true ∧
    host.pam (tick + 2) "pam_open_session".toList = 0

section Opening

variable {r : WorkerCtx} {w : Worker}

/-- A name is handed to PAM if it is ASCII. -/
theorem asciiBytes_run (s : Str) (r : WorkerCtx) (w : Worker) :
    (isAscii s = true ∧ (Effects.ofExcept (asciiBytes s) : WorkerM Unit) r w = (.done (), w)) ∨
      (isAscii s = false ∧ ∃ e, (Effects.ofExcept (asciiBytes s) : WorkerM Unit) r w = (.raised e, w)) := by
  unfold asciiBytes
  cases isAscii s with
  | true => exact Or.inl ⟨rfl, rfl⟩
  | false => exact Or.inr ⟨rfl, _, rfl⟩

theorem runHandler_sysCall_done {c : SysCall} (h : r.host.sysCall w.io.tick c = none) :
    runHandler (sysCall c) r w = (.done (), { w with io := { w.io with tick := w.io.tick + 1 } }) := by
  rw [runHandler_run, sysCall, attempt_run]
  dsimp only
  rw [h]

theorem runHandler_sysCall_raised {c : SysCall} {e : PyExc} (h : r.host.sysCall w.io.tick c = some e) :
    runHandler (sysCall c) r w = (.raised e, { w with io := { w.io with tick := w.io.tick + 1 } }) := by
  rw [runHandler_run, sysCall, attempt_run]
  dsimp only
  rw [h]

theorem loadPam_cases (moduleName : Str) (r : WorkerCtx) (w : Worker) :
    (loadPam moduleName r w = (.done (), { w with io := { w.io with tick := w.io.tick + 1 }, pamSession := true }) ∧
      isAscii moduleName = true ∧ r.host.sysCall w.io.tick (.loadPam moduleName) = none) ∨
    ((∃ e w', loadPam moduleName r w = (.raised e, w') ∧ w'.pamEvents = w.pamEvents) ∧
      ¬ (isAscii moduleName = true ∧ r.host.sysCall w.io.tick (.loadPam moduleName) = none)) := by
  unfold loadPam
  rcases asciiBytes_run moduleName r w with ⟨hascii, hbytes⟩ | ⟨hascii, e, hbytes⟩
  · rw [bind_run_done hbytes]
    cases hcall : r.host.sysCall w.io.tick (.loadPam moduleName) with
    | none =>
        rw [bind_run_done (runHandler_sysCall_done hcall)]
        exact Or.inl ⟨rfl, hascii, rfl⟩
    | some e =>
        rw [bind_run_raised (runHandler_sysCall_raised hcall)]
        exact Or.inr ⟨⟨e, _, rfl, rfl⟩, fun h => absurd h.2 (by simp)⟩
  · rw [bind_run_raised hbytes, hascii]
    exact Or.inr ⟨⟨e, w, rfl, rfl⟩, fun h => absurd h.1 Bool.false_ne_true⟩

theorem openSession_cases (user : Str) (r : WorkerCtx) (w : Worker) :
    (openSession user r w =
        (.done (), { w with
          io := { w.io with tick := w.io.tick + 2 }
          pamEvents := w.pamEvents ++ [.opened user] }) ∧
      isAscii user = true ∧ r.host.pam (w.io.tick + 1) "pam_open_session".toList = 0) ∨
    ((∃ e w', openSession user r w = (.raised e, w') ∧ w'.pamEvents = w.pamEvents) ∧
      ¬ (isAscii user = true ∧ r.host.pam (w.io.tick + 1) "pam_open_session".toList = 0)) := by
  unfold openSession
  rcases asciiBytes_run user r w with ⟨hascii, hbytes⟩ | ⟨hascii, e, hbytes⟩
  · -- a failing `pam_start` is only logged
    have hpam : (runHandler (consult fun h t => h.pam t "pam_start".toList) >>= fun _ =>
        runHandler (consult fun h t => h.pam t "pam_open_session".toList)) r w =
          (.done (r.host.pam (w.io.tick + 1) "pam_open_session".toList),
            { w with io := { w.io with tick := w.io.tick + 2 } }) := rfl
    rw [bind_run_done hbytes, ← bind_assoc, bind_run_done hpam]
    by_cases herr : r.host.pam (w.io.tick + 1) "pam_open_session".toList = 0
    · rw [if_neg (not_not.mpr herr)]
      exact Or.inl ⟨rfl, hascii, herr⟩
    · rw [if_pos herr]
      exact Or.inr ⟨⟨_, _, rfl, rfl⟩, fun h => herr h.2⟩
  · rw [bind_run_raised hbytes, hascii]
    exact Or.inr ⟨⟨e, w, rfl, rfl⟩, fun h => absurd h.1 Bool.false_ne_true⟩

theorem openFor_opens {msg : Str} {config : Settings} (h : OpensSession msg config r.host w.io.tick) :
    ∃ user groups w', openFor msg config r w = (.done (user, groups), w') ∧
      w'.pamEvents = w.pamEvents ++ [.opened user] ∧ w'.pamSession = true := by
  obtain ⟨user, groups, hidentity, hmodule, hload, huser, hopen⟩ := h
  rcases loadPam_cases config.pamModule r w with ⟨hloaded, -⟩ | ⟨-, hfails⟩
  · rcases openSession_cases user r { w with io := { w.io with tick := w.io.tick + 1 }, pamSession := true } with
      ⟨hopened, -⟩ | ⟨-, hfails⟩
    · refine ⟨user, groups, { w with
        io := { w.io with tick := w.io.tick + 3 }
        pamEvents := w.pamEvents ++ [.opened user]
        pamSession := true }, ?_, rfl, rfl⟩
      rw [openFor, hidentity]
      show ((loadPam config.pamModule >>= fun _ => openSession user >>= fun _ => pure (user, groups)) r w) = _
      rw [bind_run_done hloaded, bind_run_done hopened]
      rfl
    · exact absurd ⟨huser, hopen⟩ hfails
  · exact absurd ⟨hmodule, hload⟩ hfails

theorem openFor_manages (msg : Str) (config : Settings) : Within Manages (openFor msg config) := by
  refine within_bind (within_ofExcept _) fun info => ?_
  refine within_bind (loadPam_manages _) fun _ => ?_
  exact within_bind (openSession_manages info.1) fun _ => within_pure _

theorem openFor_fails {msg : Str} {config : Settings} (h : ¬ OpensSession msg config r.host w.io.tick) :
    ∃ e w', openFor msg config r w = (.raised e, w') ∧ w'.pamEvents = w.pamEvents := by
  rw [openFor]
  cases hidentity : requestedIdentity msg with
  | none => exact ⟨noUserInfo, w, rfl, rfl⟩
  | some info =>
      obtain ⟨user, groups⟩ := info
      show ∃ e w', (loadPam config.pamModule >>= fun _ => openSession user >>= fun _ => pure (user, groups)) r w = _ ∧ _
      rcases loadPam_cases config.pamModule r w with ⟨hloaded, hmodule, hload⟩ | ⟨⟨e, w', hraised, hevents⟩, -⟩
      · rw [bind_run_done hloaded]
        rcases openSession_cases user r { w with io := { w.io with tick := w.io.tick + 1 }, pamSession := true } with
          ⟨-, huser, hopen⟩ | ⟨⟨e, w', hraised, hevents⟩, -⟩
        · exact absurd ⟨user, groups, hidentity, hmodule, hload, huser, hopen⟩ h
        · exact ⟨e, w', bind_run_raised hraised, hevents⟩
      · exact ⟨e, w', bind_run_raised hraised, hevents⟩

end Opening

/-! ## The child -/

/-- A request for a spawning command with sessions on, in the child that has been forked for it. -/
structure SpawningRequest where
  function : Function
  command : Str
  msg : Str
  config : Settings
  ctx : WorkerCtx
  worker : Worker
  spawns : command ∈ spawningCommands
  switchUid : config.switchUid = true
  sessions : config.openUserSessions = true

namespace SpawningRequest

variable (q : SpawningRequest)

/-- The `try` block. -/
def attempted : Outcome PyExc Unit × Worker :=
  attemptFunction q.function q.command q.msg (userSession q.command q.config) q.config q.ctx
    { q.worker with pamSession := false }

/-- The `try` block with its handler. -/
def caught : Outcome PyExc Unit × Worker :=
  handle (attemptFunction q.function q.command q.msg (userSession q.command q.config) q.config)
    (fun e => runHandler (failed (some e.text))) q.ctx { q.worker with pamSession := false }

/-- `restore_id` after it. -/
def restored : Outcome PyExc Unit × Worker := restoreId q.config q.ctx q.caught.2

/-- The child up to its end; it has no value if it ends with `os._exit(0)`. -/
def child : Outcome PyExc (Option Unit) × Worker :=
  (runFunctionProg q.function q.command q.msg q.config (userSession q.command q.config)).run ownLocals q.ctx q.worker

/-- What has been done with PAM sessions since the fork. -/
def since (w : Worker) : List PamEvent := w.pamEvents.drop q.worker.pamEvents.length

/-- `open_session` has come to its end in the child. -/
def Opened : Prop := ∃ user, .opened user ∈ q.since q.child.2

/-- The calls of `close_session`. -/
def closings (w : Worker) : Nat := (q.since w).count .closed

/-- The session can be opened. -/
def Opens : Prop := OpensSession q.msg q.config q.ctx.host q.worker.io.tick

theorem userSession_eq : userSession q.command q.config = true := by
  simp [userSession, q.spawns, q.switchUid, q.sessions]

theorem command_ne : q.command ≠ startForwarding := by
  intro h
  exact absurd (h ▸ q.spawns) (by decide)

end SpawningRequest

/-- The function returns or raises, an exception can be reported, and the identity restored. -/
structure SessionChild extends SpawningRequest where
  ends : toSpawningRequest.attempted.1 ≠ .hung
  writable : ∀ e w, toSpawningRequest.attempted = (.raised e, w) →
    w.io.broken = false ∧ ctx.host.channelGone w.io.tick = false
  restores : toSpawningRequest.restored.1 = .done ()

namespace SessionChild

variable (c : SessionChild)

/-- What the child owes: it closes the session once if it was opened and not at all otherwise, when the identity is
restored; it reports one exception that keeps the function from being called; it ends with `os._exit(0)`. -/
structure ClosesAsOpened : Prop where
  once : c.Opened → c.closings c.child.2 = 1
  not_at_all : ¬ c.Opened → c.closings c.child.2 = 0
  after_restore : c.closings c.restored.2 = 0 ∧ Neutral c.config c.restored.2
  reported : c.child.2.invocations = c.worker.invocations →
    ∃ m, c.child.2.io.calls = c.worker.io.calls ++ [.failed m]
  exits : c.child.1 = .done none

theorem caught_done : c.caught.1 = .done () := by
  have hends := c.ends
  have hwritable := c.writable
  unfold SpawningRequest.attempted at hends hwritable
  unfold SpawningRequest.caught
  rcases hrun : attemptFunction c.function c.command c.msg (userSession c.command c.config) c.config c.ctx
    { c.worker with pamSession := false } with ⟨⟨⟩ | e | _, w⟩
  · rw [handle_run_done hrun]
  · obtain ⟨hbroken, hgone⟩ := hwritable e w hrun
    rw [handle_run_raised hrun, runHandler_run, failed, send_run, hbroken, hgone]
    rfl
  · rw [hrun] at hends
    exact absurd rfl hends

/-- The end of the child, from the restored identity. -/
theorem child_eq : c.child = (closeSession >>= fun _ => pure none) c.ctx c.restored.2 := by
  have hcaught : handle (attemptFunction c.function c.command c.msg (userSession c.command c.config) c.config)
      (fun e => runHandler (failed (some e.text))) c.ctx { c.worker with pamSession := false } =
        (.done (), c.caught.2) := Prod.ext c.caught_done rfl
  have hrestored : restoreId c.config c.ctx c.caught.2 = (.done (), c.restored.2) := Prod.ext c.restores rfl
  have hcleanup : (c.config.switchUid && decide (c.command ≠ startForwarding)) = true := by
    rw [c.switchUid, Bool.true_and]
    exact decide_eq_true c.command_ne
  rw [SpawningRequest.child, runFunctionProg_run, runFunction, bind_assoc, bind_run_done (modify_run _), bind_assoc,
    bind_run_done hcaught, if_pos hcleanup, bind_assoc, bind_run_done hrestored, c.userSession_eq, if_pos rfl, if_pos rfl]

/-! ## What is left alone -/

/-- Nothing has been done with PAM. -/
def KeepsPam (w w' : Worker) : Prop := w'.pamEvents = w.pamEvents ∧ w'.pamSession = w.pamSession

instance : Std.Refl KeepsPam := ⟨fun _ => ⟨rfl, rfl⟩⟩

instance : IsTrans Worker KeepsPam := ⟨fun _ _ _ h h' => ⟨h'.1.trans h.1, h'.2.trans h.2⟩⟩

theorem keepsPam_of_switches {α : Type} {x : WorkerM α} (hx : Within Switches x) : Within KeepsPam x := by
  intro r w
  obtain ⟨_, _, _, _, h⟩ := hx r w
  rw [h]
  exact ⟨rfl, rfl⟩

theorem runHandler_keepsPam {α : Type} (h : Handler α) : Within KeepsPam (runHandler h) := fun _ _ => ⟨rfl, rfl⟩

/-- What the `try` block does in the open session. -/
def inSession (user : Str) (groups : List Str) : WorkerM Unit :=
  becomeUser user groups c.config >>= fun _ => invoke c.function c.command c.msg c.config

theorem inSession_keepsPam (user : Str) (groups : List Str) : Within KeepsPam (c.inSession user groups) := by
  refine within_bind (keepsPam_of_switches (becomeUser_switches user c.config groups)) fun _ => ?_
  exact within_bind (within_modify fun _ => ⟨rfl, rfl⟩) fun _ => runHandler_keepsPam _

theorem attemptFunction_eq :
    attemptFunction c.function c.command c.msg (userSession c.command c.config) c.config =
      openFor c.msg c.config >>= fun p => c.inSession p.1 p.2 := by
  rw [attemptFunction, c.userSession_eq, if_pos c.switchUid, assumeIdentity_eq, bind_assoc]
  refine congrArg _ (funext fun p => ?_)
  rw [bind_assoc]
  rfl

theorem restored_keepsPam : KeepsPam c.caught.2 c.restored.2 :=
  keepsPam_of_switches (restoreId_switches c.config) c.ctx c.caught.2

theorem caught_opens (h : c.Opens) :
    ∃ user groups w, openFor c.msg c.config c.ctx { c.worker with pamSession := false } = (.done (user, groups), w) ∧
      c.caught = handle (c.inSession user groups) (fun e => runHandler (failed (some e.text))) c.ctx w ∧
      w.pamEvents = c.worker.pamEvents ++ [.opened user] ∧ w.pamSession = true := by
  obtain ⟨user, groups, w, hopened, hevents, hsession⟩ :=
    openFor_opens (r := c.ctx) (w := { c.worker with pamSession := false }) h
  refine ⟨user, groups, w, hopened, ?_, hevents, hsession⟩
  rw [SpawningRequest.caught, attemptFunction_eq, handle, bind_run_done hopened]
  rfl

theorem caught_fails (h : ¬ c.Opens) : c.caught.2.pamEvents = c.worker.pamEvents := by
  obtain ⟨e, w, hraised, hevents⟩ := openFor_fails (r := c.ctx) (w := { c.worker with pamSession := false }) h
  rw [SpawningRequest.caught, attemptFunction_eq, handle_run_raised (bind_run_raised hraised)]
  exact hevents

/-! ## The cleanup -/

theorem closeSession_open {r : WorkerCtx} {w : Worker} (h : w.pamSession = true) :
    closeSession r w = (.done (), { w with
      io := { w.io with tick := w.io.tick + 2 }
      pamEvents := w.pamEvents ++ [.closed] }) := by
  rw [closeSession, bind_run_done get_run, if_pos h]
  rfl

theorem closeSession_unbound {r : WorkerCtx} {w : Worker} (h : w.pamSession = false) :
    ∃ e, closeSession r w = (.raised e, w) := by
  rw [closeSession, bind_run_done get_run, h]
  exact ⟨_, rfl⟩

/-- The end of the child when the variable is assigned. -/
theorem child_closes (h : c.restored.2.pamSession = true) :
    c.child = (.done none, { c.restored.2 with
      io := { c.restored.2.io with tick := c.restored.2.io.tick + 2 }
      pamEvents := c.restored.2.pamEvents ++ [.closed] }) := by
  rw [child_eq, bind_run_done (closeSession_open h)]
  rfl

/-- The end of the child when it is not. -/
theorem child_raises (h : c.restored.2.pamSession = false) : ∃ e, c.child = (.raised e, c.restored.2) := by
  obtain ⟨e, hraised⟩ := closeSession_unbound (r := c.ctx) h
  exact ⟨e, by rw [child_eq, bind_run_raised hraised]⟩

theorem since_eq {w : Worker} {events : List PamEvent} (h : w.pamEvents = c.worker.pamEvents ++ events) :
    c.since w = events := by
  rw [SpawningRequest.since, h, List.drop_left]

theorem neutral_restored : Neutral c.config c.restored.2 :=
  restoreId_done c.switchUid (Prod.ext c.restores rfl : restoreId c.config c.ctx c.caught.2 = (.done (), c.restored.2))

end SessionChild

/-- The connector and the table of functions are left alone. -/
theorem Manages.same {w w' : Worker} (h : Manages w w') :
    w'.io.calls = w.io.calls ∧ w'.invocations = w.invocations := by
  obtain ⟨_, _, _, _, _, _, rfl⟩ := h
  exact ⟨rfl, rfl⟩

namespace SessionChild

variable (c : SessionChild)

/-- The calls of the connector and the functions called are those of the `try` block and its handler. -/
theorem child_calls : c.child.2.io.calls = c.caught.2.io.calls ∧ c.child.2.invocations = c.caught.2.invocations := by
  have hrestored : Manages c.caught.2 c.restored.2 := restoreId_manages c.config c.ctx c.caught.2
  have hclosed : Manages c.restored.2 c.child.2 := by
    rw [child_eq]
    exact within_bind closeSession_manages (fun _ => within_pure _) c.ctx c.restored.2
  exact Manages.same (trans_of Manages hrestored hclosed)

/-- An exception in front of the function is reported once. -/
theorem reported_once {user : Str} {groups : List Str} {w : Worker} (hstart : Manages c.worker w)
    (hcaught : c.caught = handle (c.inSession user groups) (fun e => runHandler (failed (some e.text))) c.ctx w)
    (hnone : c.caught.2.invocations = c.worker.invocations) :
    ∃ m, c.caught.2.io.calls = c.worker.io.calls ++ [.failed m] := by
  have hdone := c.caught_done
  have hmanages := becomeUser_manages user c.config groups c.ctx w
  rw [hcaught] at hdone hnone ⊢
  rcases hbecome : becomeUser user groups c.config c.ctx w with ⟨b | e | _, v⟩
  · -- the function is called, and stays in the list
    rw [hbecome] at hmanages
    have hinvocations : v.invocations = c.worker.invocations := (Manages.same (trans_of Manages hstart hmanages)).2
    have hinvoked : ∃ inv, (c.inSession user groups c.ctx w).2.invocations = c.worker.invocations ++ [inv] := by
      rw [inSession, bind_run_done hbecome, ← hinvocations]
      exact ⟨_, rfl⟩
    have hcalled : ∃ inv, (handle (c.inSession user groups) (fun e => runHandler (failed (some e.text))) c.ctx
        w).2.invocations = c.worker.invocations ++ [inv] := by
      refine handle_post (P := fun v : Worker => ∃ inv, v.invocations = c.worker.invocations ++ [inv]) hinvoked ?_
      intro e t ht
      rw [ht] at hinvoked
      exact hinvoked
    obtain ⟨inv, hinv⟩ := hcalled
    rw [hinv] at hnone
    exact absurd hnone (by simp)
  · rw [hbecome] at hmanages
    have hcalls : v.io.calls = c.worker.io.calls := (Manages.same (trans_of Manages hstart hmanages)).1
    have hraised : c.inSession user groups c.ctx w = (.raised e, v) := bind_run_raised hbecome
    rw [handle_run_raised hraised, runHandler_run] at hdone ⊢
    refine ⟨some e.text, ?_⟩
    rw [← hcalls]
    exact (send_done (Prod.ext hdone rfl)).2
  · rw [inSession, handle, bind_run, hbecome] at hdone
    cases hdone

/-! ## The two cases -/

theorem closes_of_opens (h : c.Opens) : c.ClosesAsOpened := by
  obtain ⟨user, groups, w, hopened, hcaught, hevents, hsession⟩ := c.caught_opens h
  have hin : KeepsPam w c.caught.2 := by
    rw [hcaught]
    exact within_handle (c.inSession_keepsPam user groups) (fun _ => runHandler_keepsPam _) c.ctx w
  have hkept := trans_of KeepsPam hin c.restored_keepsPam
  have hrestoredEvents : c.restored.2.pamEvents = c.worker.pamEvents ++ [.opened user] := hkept.1.trans hevents
  have hchild := c.child_closes (hkept.2.trans hsession)
  have hchildEvents : c.child.2.pamEvents = c.worker.pamEvents ++ [.opened user, .closed] := by
    rw [hchild]
    show c.restored.2.pamEvents ++ [.closed] = _
    rw [hrestoredEvents, List.append_assoc]
    rfl
  have hsince : c.since c.child.2 = [.opened user, .closed] := c.since_eq hchildEvents
  refine ⟨fun _ => ?_, fun hnone => ?_, ⟨?_, c.neutral_restored⟩, fun hinvocations => ?_, ?_⟩
  · rw [SpawningRequest.closings, hsince]
    rfl
  · refine absurd ⟨user, ?_⟩ hnone
    rw [hsince]
    exact List.mem_cons_self
  · rw [SpawningRequest.closings, c.since_eq hrestoredEvents]
    rfl
  · rw [c.child_calls.2] at hinvocations
    rw [c.child_calls.1]
    refine c.reported_once ?_ hcaught hinvocations
    have hopening := openFor_manages c.msg c.config c.ctx { c.worker with pamSession := false }
    rw [hopened] at hopening
    exact hopening
  · rw [hchild]

theorem not_closes_of_not_opens (h : ¬ c.Opens) : ¬ c.ClosesAsOpened := by
  intro hcloses
  have hevents : c.restored.2.pamEvents = c.worker.pamEvents := c.restored_keepsPam.1.trans (c.caught_fails h)
  cases hsession : c.restored.2.pamSession with
  | true =>
      -- a session is closed that has not been opened
      have hchild := c.child_closes hsession
      have hsince : c.since c.child.2 = [.closed] := by
        refine c.since_eq ?_
        rw [hchild, ← hevents]
      have hnotOpened : ¬ c.Opened := by
        rintro ⟨user, huser⟩
        rw [hsince] at huser
        cases List.mem_singleton.mp huser
      have hnone := hcloses.not_at_all hnotOpened
      rw [SpawningRequest.closings, hsince] at hnone
      exact absurd hnone (by decide)
  | false =>
      obtain ⟨e, hchild⟩ := c.child_raises hsession
      have hexits := hcloses.exits
      rw [hchild] at hexits
      cases hexits

/-- **Sessions of children.**  The session is closed as it was opened if and only if it can be opened. -/
theorem closes_as_opened_iff : c.ClosesAsOpened ↔ c.Opens := by
  constructor
  · intro hcloses
    by_contra h
    exact c.not_closes_of_not_opens h hcloses
  · exact c.closes_of_opens

end SessionChild

/-! ### Two scripts -/

/-- A script in a child, on a host on which nothing goes wrong. -/
def scriptRequest (msg : Str) : SpawningRequest where
  function := executeScript
  command := "TSI_EXECUTESCRIPT".toList
  msg := msg
  config := sessionConfig
  ctx := { host := calmHost UserDb.empty.cache, fuel := 0 }
  worker := .fresh []
  spawns := by decide
  switchUid := rfl
  sessions := rfl

theorem scriptRequest_writable (msg : Str) (hbroken : (scriptRequest msg).attempted.2.io.broken = false) (e : PyExc)
    (w : Worker) (h : (scriptRequest msg).attempted = (.raised e, w)) :
    w.io.broken = false ∧ (scriptRequest msg).ctx.host.channelGone w.io.tick = false := by
  rw [h] at hbroken
  exact ⟨hbroken, rfl⟩

/-- The user is not known, and the session is closed after all. -/
def strangerChild : SessionChild where
  toSpawningRequest := scriptRequest "#TSI_EXECUTESCRIPT\n#TSI_IDENTITY eva NONE\ndate\n".toList
  ends := by decide +kernel
  writable := scriptRequest_writable _ (by decide +kernel)
  restores := by decide +kernel

example : strangerChild.since strangerChild.child.2 = [.opened "eva".toList, .closed] := by decide +kernel

/-- The script without an identity line. -/
def nobodyChild : SessionChild where
  toSpawningRequest := scriptRequest "#TSI_EXECUTESCRIPT\ndate\n".toList
  ends := by decide +kernel
  writable := scriptRequest_writable _ (by decide +kernel)
  restores := by decide +kernel

/-- Its child ends with an exception. -/
theorem nobody_does_not_exit : ¬ ∀ c : SessionChild, c.ClosesAsOpened := by
  intro h
  have hraised : nobodyChild.child.1 ≠ .done none := by decide +kernel
  exact hraised (h nobodyChild).exits

end UnicoreTsi.Tsi
