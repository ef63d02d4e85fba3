/-
# UnicoreTsi.OneStatus — how many statuses a request is answered with.

A request is answered with one status for each call of `ok` or `failed` between reading it and writing its
`ENDOFMESSAGE`.  The catch-all of `handle_function` reports one for every exception, so the number is the one
the function of the table owes (`Replies`), whatever fails before the function is called and whether or not
it runs in a forked child.  It is one unless `ls` lets an exception escape after its status, `process_acl`
does nothing for NFS, or `process_acl` reports missing parameters and goes on (`one_status_iff`).
-/
import UnicoreTsi.Dispatch
import UnicoreTsi.Replies
import UnicoreTsi.Runs

set_option autoImplicit false

namespace UnicoreTsi.Tsi

open UnicoreTsi.Text UnicoreTsi.Effects UnicoreTsi.Effects.Ledger UnicoreTsi.Utils UnicoreTsi.Connector
open UnicoreTsi.BecomeUser UnicoreTsi.BssCommon UnicoreTsi.Replies

/-! ## The ledger of a worker -/

/-- The connector calls of a worker and of the children it has waited for. -/
def workerReplies : Ledger Worker ConnCall where
  log w := w.io.calls
  counts := ConnCall.isStatus
  excused w := w.io.broken = true

theorem runHandler_owed {α : Type} {t : Nat} {n : α → Nat} {h : Handler α} {r : WorkerCtx} {w : Worker}
    (hh : replies.Owed t n w.io (h { host := r.host, environ := w.environ, fuel := r.fuel } w.io)) :
    workerReplies.Owed t n w (runHandler h r w) := by
  rw [runHandler_run]
  revert hh
  rcases h { host := r.host, environ := w.environ, fuel := r.fuel } w.io with ⟨a | e | _, io⟩
  · exact id
  · exact id
  · exact id

theorem books_of_manages {w w' : Worker} (h : Manages w w') : workerReplies.Books (· = 0) w w' := by
  obtain ⟨_, _, _, _, _, _, rfl⟩ := h
  exact Books.unchanged rfl id

theorem failed_sends_worker (m : Option Str) : workerReplies.Sends 1 (runHandler (failed m)) :=
  fun _ _ => runHandler_owed (failed_sends m _ _)

/-! ## The identity of a request -/

theorem loadPam_manages (moduleName : Str) : Within Manages (loadPam moduleName) := by
  refine within_bind (within_ofExcept _) fun _ => ?_
  refine within_bind (runHandler_manages (sysCall_ticks _)) fun _ => ?_
  exact within_modify fun w => ⟨w.io.tick, w.cred, w.environ, w.idCalls, w.pamEvents, true, rfl⟩

theorem openSession_manages (user : Str) : Within Manages (openSession user) := by
  refine within_bind (within_ofExcept _) fun _ => ?_
  refine within_bind (runHandler_manages (consult_ticks _)) fun _ => ?_
  refine within_bind (runHandler_manages (consult_ticks _)) fun err => ?_
  split
  · exact within_bind (within_raise _) fun _ =>
      within_modify fun w => ⟨w.io.tick, w.cred, w.environ, w.idCalls, _, w.pamSession, rfl⟩
  · exact within_modify fun w => ⟨w.io.tick, w.cred, w.environ, w.idCalls, _, w.pamSession, rfl⟩

theorem closeSession_manages : Within Manages closeSession := by
  refine within_bind within_get fun w => ?_
  split
  · refine within_bind (runHandler_manages (consult_ticks _)) fun _ => ?_
    refine within_bind (runHandler_manages (consult_ticks _)) fun _ => ?_
    exact within_modify fun w => ⟨w.io.tick, w.cred, w.environ, w.idCalls, _, w.pamSession, rfl⟩
  · exact within_raise _

theorem assumeIdentity_manages (msg : Str) (openUserSession : Bool) (config : Settings) :
    Within Manages (assumeIdentity msg openUserSession config) := by
  refine within_bind (within_ofExcept _) ?_
  rintro ⟨user, groups⟩
  have hbecome : Within Manages (becomeUser user groups config >>= fun _ => pure ()) :=
    within_bind (becomeUser_manages user config groups) fun _ => within_pure _
  dsimp only
  split
  · refine within_bind (loadPam_manages _) fun _ => ?_
    exact within_bind (openSession_manages user) fun _ => hbecome
  · exact hbecome

/-! ## One call of a function of the table -/

section Call

variable {bss : Bss} {config : Settings} {r : WorkerCtx} {command message : Str} {openUserSession : Bool}

/-- The `try` block of `handle_function`, entered in `w`, gets as far as calling the function of the table,
and does so in the state `v`. -/
def Starts (config : Settings) (r : WorkerCtx) (message : Str) (openUserSession : Bool) (w v : Worker) :
    Prop :=
  if config.switchUid then
    assumeIdentity message openUserSession config r { w with pamSession := false } = (.done (), v)
  else v = { w with pamSession := false }

theorem Starts.manages {w v : Worker} (h : Starts config r message openUserSession w v) : Manages w v := by
  have hreset : Manages w { w with pamSession := false } :=
    ⟨w.io.tick, w.cred, w.environ, w.idCalls, w.pamEvents, false, rfl⟩
  unfold Starts at h
  split at h
  · have hassume := assumeIdentity_manages message openUserSession config r { w with pamSession := false }
    rw [h] at hassume
    exact trans_of Manages hreset hassume
  · rw [h]
    exact hreset

/-- What a handler called in the state `v` of a worker is run in. -/
def handlerCtx (r : WorkerCtx) (v : Worker) : HandlerCtx :=
  { host := r.host, environ := v.environ, fuel := r.fuel }

/-- The number of statuses the `try` block owes: that of the function if it is called, else one for the
exception that prevents it. -/
def CallReports (config : Settings) (r : WorkerCtx) (command message : Str) (openUserSession : Bool)
    (w : Worker) (t : Nat) : Prop :=
  (∃ v, Starts config r message openUserSession w v ∧
    Reports command message config (handlerCtx r v) v.io t) ∨
  (∀ v, ¬ Starts config r message openUserSession w v) ∧ t = 1

theorem invoke_owed {function : Function} {v : Worker} {t : Nat}
    (hreporting : Reporting (command, function)) (hchunk : command ∉ chunkCommands)
    (ht : Reports command message config (handlerCtx r v) v.io t) :
    workerReplies.Owed t (fun _ => t) v (invoke function command message config r v) := by
  unfold invoke
  rw [bind_run_done (modify_run _)]
  exact runHandler_owed (w := { v with invocations := _ })
    (hreporting hchunk message config (handlerCtx r v) v.io t ht)

theorem Starts.unique {w v v' : Worker} (hv : Starts config r message openUserSession w v)
    (hv' : Starts config r message openUserSession w v') : v = v' := by
  unfold Starts at hv hv'
  split at hv
  · rename_i hswitch
    rw [if_pos hswitch, hv] at hv'
    exact congrArg Prod.snd hv'
  · rename_i hswitch
    rw [if_neg hswitch] at hv'
    rw [hv, hv']

theorem CallReports.of_starts {w v : Worker} {t : Nat}
    (ht : CallReports config r command message openUserSession w t)
    (hv : Starts config r message openUserSession w v) :
    Reports command message config (handlerCtx r v) v.io t := by
  rcases ht with ⟨v', hv', ht⟩ | ⟨hnone, -⟩
  · rwa [hv'.unique hv] at ht
  · exact absurd hv (hnone v)

theorem attemptFunction_owed {function : Function} {w : Worker} {t : Nat}
    (hreporting : Reporting (command, function)) (hchunk : command ∉ chunkCommands)
    (ht : CallReports config r command message openUserSession w t) :
    workerReplies.Owed t (fun _ => t) w
      (attemptFunction function command message openUserSession config r { w with pamSession := false }) := by
  have hcall : ∀ v, Starts config r message openUserSession w v →
      workerReplies.Owed t (fun _ => t) w (invoke function command message config r v) := by
    intro v hv
    exact (invoke_owed hreporting hchunk (ht.of_starts hv)).after (books_of_manages hv.manages)
  unfold attemptFunction
  by_cases hswitch : config.switchUid = true
  · rw [if_pos hswitch]
    have hassume := assumeIdentity_manages message openUserSession config r { w with pamSession := false }
    rcases hrun : assumeIdentity message openUserSession config r { w with pamSession := false } with
      ⟨_ | e | _, v⟩
    · rw [bind_run_done hrun]
      exact hcall v ((if_pos hswitch).mpr hrun)
    · -- the exception is reported instead
      rw [bind_run_raised hrun]
      rw [hrun] at hassume
      have hnone : ∀ v, ¬ Starts config r message openUserSession w v := by
        intro v hv
        rw [Starts, if_pos hswitch, hrun] at hv
        cases hv
      obtain rfl : t = 1 := by
        rcases ht with ⟨v, hv, -⟩ | ⟨-, h⟩
        · exact absurd hv (hnone v)
        · exact h
      have hbooks : workerReplies.Books (· = 0) w v := books_of_manages hassume
      exact hbooks.mono fun c hc => congrArg (· + 1) hc
    · rw [bind_run, hrun]
      trivial
  · rw [if_neg hswitch]
    exact hcall _ ((if_neg hswitch).mpr rfl)

/-- What `handle_function` does after the call of the function. -/
theorem afterCall_manages (config : Settings) (command : Str) (openUserSession : Bool) :
    Within Manages (do
      if config.switchUid && command ≠ startForwarding then
        restoreId config
        if openUserSession then
          closeSession : WorkerM Unit) := by
  split
  · refine within_bind (restoreId_manages config) fun _ => ?_
    split
    · exact closeSession_manages
    · exact within_pure _
  · exact within_pure _

/-- However `handle_function` ends, the `try` block and its catch-all have reported. -/
theorem runFunction_books {function : Function} {w : Worker} {t : Nat}
    (hreporting : Reporting (command, function)) (hchunk : command ∉ chunkCommands)
    (ht : CallReports config r command message openUserSession w t)
    (hends : (runFunction function command message openUserSession config r w).1 ≠ .hung) :
    workerReplies.Books (· = t) w (runFunction function command message openUserSession config r w).2 := by
  have hcall := owed_handle (attemptFunction_owed hreporting hchunk ht)
    fun e : PyExc => failed_sends_worker (some e.text)
  unfold runFunction at hends ⊢
  rw [bind_run_done (modify_run _)] at hends ⊢
  rw [bind_run] at hends ⊢
  revert hcall hends
  rcases handle (attemptFunction function command message openUserSession config)
    (fun e => runHandler (failed (some e.text))) r { w with pamSession := false } with ⟨_ | e | _, w₁⟩
  · intro _ (hcall : workerReplies.Books (· = t) w w₁)
    have hafter := books_of_manages (afterCall_manages config command openUserSession r w₁)
    exact hcall.trans hafter fun c d hc hd => by omega
  · intro _ (hcall : workerReplies.Books (· + 1 = 0) w w₁)
    exact hcall.excused Nat.succ_ne_zero
  · exact fun hends _ => absurd rfl hends

end Call

/-! ## One request -/

section Request

variable {bss : Bss} {config : Settings} {r : WorkerCtx} {command message : Str}

/-- The commands run in forked children report one status, whatever state they start from. -/
theorem callReports_spawning (hspawns : command ∈ spawningCommands) {openUserSession : Bool} {w : Worker}
    {t : Nat} : CallReports config r command message openUserSession w t ↔ t = 1 := by
  have hone : ∀ v, Reports command message config (handlerCtx r v) v.io t ↔ t = 1 := by
    intro v
    have hls : command ≠ "TSI_LS".toList := by
      rintro rfl
      revert hspawns
      decide
    have hacl : command ≠ "TSI_FILE_ACL".toList := by
      rintro rfl
      revert hspawns
      decide
    rw [Reports, if_neg hls, if_neg hacl]
  unfold CallReports
  simp only [hone]
  constructor
  · rintro (⟨-, -, h⟩ | ⟨-, h⟩)
    · exact h
    · exact h
  · intro h
    by_cases hstarts : ∃ v, Starts config r message openUserSession w v
    · obtain ⟨v, hv⟩ := hstarts
      exact Or.inl ⟨v, hv, h⟩
    · exact Or.inr ⟨fun v hv => hstarts ⟨v, hv⟩, h⟩

theorem inChild_done {x : WorkerM Unit} {w w' : Worker} (h : inChild x r w = (.done (), w')) :
    (x r w).1 ≠ .hung ∧ w' = afterChild w (x r w).2 := by
  unfold inChild at h
  rcases hx : x r w with ⟨_ | e | _, v⟩ <;> rw [hx] at h
  · exact ⟨nofun, (congrArg Prod.snd h).symm⟩
  · exact ⟨nofun, (congrArg Prod.snd h).symm⟩
  · cases h

theorem handleFunction_books {function : Function} {w w' : Worker} {t : Nat}
    (hreporting : Reporting (command, function)) (hchunk : command ∉ chunkCommands)
    (ht : CallReports config r command message (userSession command config) w t)
    (hdone : handleFunction function command message config r w = (.done (), w')) :
    workerReplies.Books (· = t) w w' := by
  unfold handleFunction at hdone
  by_cases hfork : (userSession command config && command ≠ startForwarding) = true
  · -- a forked child, which may have ended with an exception
    rw [if_pos hfork] at hdone
    have hspawns : command ∈ spawningCommands := by
      simp only [userSession, Bool.and_eq_true, decide_eq_true_eq] at hfork
      exact hfork.1.1.2
    obtain ⟨⟨⟩, w₁, hforked, hdone⟩ := bind_eq_done.mp hdone
    obtain ⟨⟨⟩, w₂, hchild, hwait⟩ := bind_eq_done.mp hdone
    obtain ⟨hends, hafterChild⟩ := inChild_done hchild
    have hstart := runHandler_manages (sysCall_ticks .fork) r w
    rw [hforked] at hstart
    have hwaited := runHandler_manages (sysCall_ticks .waitChild) r w₂
    rw [hwait] at hwaited
    have hreports : CallReports config r command message (userSession command config) w₁ t :=
      (callReports_spawning hspawns).mpr ((callReports_spawning hspawns).mp ht)
    have hran : workerReplies.Books (· = t) w₁ w₂ := by
      rw [hafterChild]
      exact runFunction_books hreporting hchunk hreports hends
    have hbefore : workerReplies.Books (· = t) w w₂ :=
      (books_of_manages hstart).trans hran fun c d hc hd => by omega
    exact hbefore.trans (books_of_manages hwaited) fun c d hc hd => by omega
  · rw [if_neg hfork] at hdone
    have hran := runFunction_books hreporting hchunk ht (r := r) (by rw [hdone]; nofun)
    rwa [hdone] at hran

/-- The number of statuses a message is answered with when it is taken up in the state `w`. -/
def MessageReports (functions : List (Str × Function)) (config : Settings) (r : WorkerCtx) (w : Worker)
    (message : Str) (t : Nat) : Prop :=
  match findCommand functions message with
  | none => t = 1
  | some (command, _) =>
      if command = "TSI_PING".toList then t = 1
      else CallReports config r command message (userSession command config) w t

theorem answer_books (hbss : BssAnswers bss)
    (hchunk : ∀ command function, findCommand (initFunctions bss) message = some (command, function) →
      command ∉ chunkCommands) {w w' : Worker} {t : Nat}
    (ht : MessageReports (initFunctions bss) config r w message t)
    (hdone : answer (initFunctions bss) message config r w = (.done (), w')) :
    workerReplies.Books (· = t) w w' := by
  have hsent : ∀ {x : Handler Unit}, replies.Sends 1 x → t = 1 → runHandler x r w = (.done (), w') →
      workerReplies.Books (· = t) w w' := by
    rintro x hx rfl hrun
    have howed := runHandler_owed (r := r) (w := w) (hx _ _)
    rwa [hrun] at howed
  unfold MessageReports at ht
  unfold answer at hdone
  cases hfind : findCommand (initFunctions bss) message with
  | none =>
      rw [hfind] at ht hdone
      exact hsent (failed_sends _) ht hdone
  | some entry =>
      obtain ⟨command, function⟩ := entry
      rw [hfind] at ht hdone
      dsimp only at ht hdone
      split at hdone
      · rename_i hping
        rw [if_pos hping] at ht
        exact hsent (ok_sends _) ht hdone
      · rename_i hping
        rw [if_neg hping] at ht
        have hmem : (command, function) ∈ initFunctions bss := List.mem_of_find?_eq_some hfind
        exact handleFunction_books (initFunctions_reporting hbss _ hmem) (hchunk _ _ hfind) ht hdone

theorem exists_messageReports (functions : List (Str × Function)) (config : Settings) (r : WorkerCtx)
    (w : Worker) (message : Str) : ∃ t, MessageReports functions config r w message t := by
  unfold MessageReports
  split
  · exact ⟨1, rfl⟩
  · rename_i command function _
    split
    · exact ⟨1, rfl⟩
    · by_cases hstarts : ∃ v, Starts config r message (userSession command config) w v
      · obtain ⟨v, hv⟩ := hstarts
        obtain ⟨t, ht⟩ := exists_reports command message config (handlerCtx r v) v.io
        exact ⟨t, Or.inl ⟨v, hv, ht⟩⟩
      · exact ⟨1, Or.inr ⟨fun v hv => hstarts ⟨v, hv⟩, rfl⟩⟩

/-- A response that comes to its end is a reply, with the number of statuses the request is due, and the
end mark. -/
theorem respond_reply (hbss : BssAnswers bss)
    (hchunk : ∀ command function, findCommand (initFunctions bss) message = some (command, function) →
      command ∉ chunkCommands) {w w' : Worker} {t : Nat}
    (ht : MessageReports (initFunctions bss) config r w message t)
    (hdone : respond (initFunctions bss) message config r w = (.done (), w')) :
    ∃ reply, w'.io.calls = w.io.calls ++ reply ++ [.message endOfMessage] ∧
      reply.countP ConnCall.isStatus = t := by
  obtain ⟨⟨⟩, w₂, hanswer, hwrite⟩ := bind_eq_done.mp hdone
  have hbooks := answer_books hbss hchunk ht hanswer
  rw [runHandler_run, Prod.mk.injEq] at hwrite
  obtain ⟨hsent, rfl⟩ := hwrite
  obtain ⟨hbroken, hcalls⟩ := send_done (Prod.ext hsent rfl)
  obtain ⟨reply, hlog, -, hcount⟩ := hbooks
  refine ⟨reply, ?_, ?_⟩
  · rw [show w₂.io.calls = w.io.calls ++ reply from hlog] at hcalls
    exact hcalls
  · rcases hcount with hexcused | hcount
    · have hexcused : w₂.io.broken = true := hexcused
      rw [hbroken] at hexcused
      cases hexcused
    · exact hcount

/-! ## When it is one -/

/-- The function of a command is called from the state `v` of the worker without reporting too much or too
little: listing meets no exception other than an `OSError`, and an ACL request is one that is answered. -/
def ReportsOnce (config : Settings) (r : WorkerCtx) (message command : Str) (v : Worker) : Prop :=
  (command = "TSI_LS".toList → ¬ ListFault message (handlerCtx r v) v.io) ∧
    (command = "TSI_FILE_ACL".toList → AclAnswered message config r.host v.io.tick)

theorem reports_eq_one_iff {v : Worker} {t : Nat}
    (ht : Reports command message config (handlerCtx r v) v.io t) :
    t = 1 ↔ ReportsOnce config r message command v := by
  unfold Reports at ht
  unfold ReportsOnce
  by_cases hls : command = "TSI_LS".toList
  · have hacl : command ≠ "TSI_FILE_ACL".toList := by
      rw [hls]
      decide
    rw [if_pos hls] at ht
    rcases ht with ⟨rfl, hfault⟩ | ⟨rfl, hfault⟩
    · exact iff_of_true rfl ⟨fun _ => hfault, fun h => absurd h hacl⟩
    · exact iff_of_false (by omega) fun h => h.1 hls hfault
  · rw [if_neg hls] at ht
    by_cases hacl : command = "TSI_FILE_ACL".toList
    · rw [if_pos hacl] at ht
      rw [ht, aclStatuses_eq_one_iff]
      exact ⟨fun h => ⟨fun hop => absurd hop hls, fun _ => h⟩, fun h => h.2 hacl⟩
    · rw [if_neg hacl] at ht
      exact iff_of_true ht ⟨fun h => absurd h hls, fun h => absurd h hacl⟩

/-- Taking up a message in the state `w`, the worker calls the function of a command from the state `v`. -/
def Calls (functions : List (Str × Function)) (config : Settings) (r : WorkerCtx) (w : Worker)
    (message command : Str) (v : Worker) : Prop :=
  ∃ w₁ function, runHandler (sysCall (.chdir config.safeDir)) r w = (.done (), w₁) ∧
    findCommand functions message = some (command, function) ∧
    Starts config r message (userSession command config) w₁ v

theorem messageReports_eq_one_iff {functions : List (Str × Function)} {w w₁ : Worker} {t : Nat}
    (hchdir : runHandler (sysCall (.chdir config.safeDir)) r w = (.done (), w₁))
    (ht : MessageReports functions config r w₁ message t) :
    t = 1 ↔ ∀ command v, Calls functions config r w message command v →
      ReportsOnce config r message command v := by
  have hsame : ∀ {w₂}, runHandler (sysCall (.chdir config.safeDir)) r w = (.done (), w₂) → w₁ = w₂ :=
    fun h => congrArg Prod.snd (hchdir.symm.trans h)
  unfold MessageReports at ht
  cases hfind : findCommand functions message with
  | none =>
      rw [hfind] at ht
      refine iff_of_true ht ?_
      rintro command v ⟨_, _, -, hfind', -⟩
      rw [hfind] at hfind'
      cases hfind'
  | some entry =>
      obtain ⟨command, function⟩ := entry
      rw [hfind] at ht
      have hcommand : ∀ {command' v}, Calls functions config r w message command' v →
          command' = command ∧ Starts config r message (userSession command config) w₁ v := by
        rintro command' v ⟨w₂, _, hchdir', hfind', hstarts⟩
        obtain ⟨rfl, -⟩ : command = command' ∧ _ := Prod.mk.inj (Option.some.inj (hfind.symm.trans hfind'))
        obtain rfl := hsame hchdir'
        exact ⟨rfl, hstarts⟩
      dsimp only at ht
      split at ht
      · rename_i hping
        refine iff_of_true ht ?_
        intro command' v hcalls
        rw [(hcommand hcalls).1, hping]
        exact ⟨fun h => absurd h (by decide), fun h => absurd h (by decide)⟩
      · constructor
        · intro hone command' v hcalls
          obtain ⟨rfl, hstarts⟩ := hcommand hcalls
          exact (reports_eq_one_iff (ht.of_starts hstarts)).mp hone
        · intro honce
          rcases ht with ⟨v, hstarts, hreports⟩ | ⟨-, hone⟩
          · exact (reports_eq_one_iff hreports).mpr (honce command v ⟨w₁, function, hchdir, hfind, hstarts⟩)
          · exact hone

end Request

/-! ## An ACL request on an NFS path -/

/-- A worker that does not switch users, with one path on NFS. -/
def nfsSettings : Settings :=
  { switchUid := false, effectiveUid := 1000, acl := [("/nfs".toList, "NFS".toList)] }

/-- A host that matches patterns without special characters. -/
def nfsHost : Host :=
  { calmHost UserDb.empty.cache with
    reMatch := fun pattern text =>
      .ok (if pattern.tail.isPrefixOf text then some (pattern.length - 1) else none) }

/-- A request to read the ACL of a path. -/
def getfaclRequest (path : String) : Str :=
  "#TSI_FILE_ACL\n#TSI_ACL_OPERATION GETFACL\n#TSI_ACL_PATH ".toList ++ path.toList ++ "\n".toList

theorem findCommand_getfaclRequest (path : String) (hlines : ∀ name ∈ namesBefore "TSI_FILE_ACL".toList,
    ∀ l ∈ completeLines (getfaclRequest path), ¬EndsWithTag name l)
    (hown : ∃ l ∈ completeLines (getfaclRequest path), EndsWithTag "TSI_FILE_ACL".toList l) :
    findCommand (initFunctions BssNobatch.nobatch) (getfaclRequest path) =
      some ("TSI_FILE_ACL".toList, Acl.processAcl) :=
  (findCommand_iff_lines BssNobatch.nobatch (by simp [initFunctions]) hown).mpr hlines

theorem answer_of_find {functions : List (Str × Function)} {message command : Str} {function : Function}
    (config : Settings) (hfind : findCommand functions message = some (command, function))
    (hping : command ≠ "TSI_PING".toList) :
    answer functions message config = handleFunction function command message config := by
  rw [answer, hfind]
  exact if_neg hping

end UnicoreTsi.Tsi
