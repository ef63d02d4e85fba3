/-
# UnicoreTsi.Submission — what stands behind the reply to a submission.

A submission computes one call of the connector and makes it last (`submit_eq`), so the reply is justified by
the steps that were taken before it: an id by a submit command that ended with exit code 0 and has the id in
its output, the bare `TSI_OK` of an allocation by a script with the allocation command in it.  The second
fails for the variants that inherit `create_alloc_script`, because the inherited function returns an empty
script and raises nothing.
-/
import UnicoreTsi.Commands
import UnicoreTsi.Tsi
import UnicoreTsi.Variants

set_option autoImplicit false

namespace UnicoreTsi.BssCommon

open UnicoreTsi.Text UnicoreTsi.Effects UnicoreTsi.Regex UnicoreTsi.Utils UnicoreTsi.Connector

/-! ## The reply, before it is sent -/

section Submission

variable (hooks : BssHooks)

/-- The script for the batch system, or why there is none. -/
def scriptOrRefusal (msg jobMode : Str) (config : Settings) : Handler (Except Str (List Str)) := do
  if jobMode = "normal".toList then
    let cmds ← ofExcept (hooks.createSubmitScript config msg)
    return .ok cmds
  else if jobMode = "raw".toList then
    match extractParameter msg "JOB_FILE".toList with
    | none => return .error "Job mode 'raw' requires TSI_JOB_FILE".toList
    | some file =>
        let text ← attempt fun h t => h.readText t file
        return .ok [text]
  else if "alloc".toList.isPrefixOf jobMode then
    match hooks.createAllocScript config msg with
    | .ok cmds => return .ok cmds
    | .error _ => return .error "Allocation mode not (yet) supported!".toList
  else
    return .error (illegalMode jobMode)

/-- The call that reports the result of the command. -/
def verdict (isAlloc : Bool) (result : Bool × Str) : ConnCall :=
  if !result.1 then .failed (some result.2)
  else if isAlloc then .ok none
  else
    match hooks.extractJobId result.2 with
    | some jobId => .ok (some jobId)
    | none => .failed (some (submitFailed result.2))

/-- The mode of a job. -/
def jobMode (msg : Str) : Str := (extractParameter msg "JOB_MODE".toList).getD "normal".toList

/-- Whether the job is an allocation. -/
def isAlloc (msg : Str) : Bool := "alloc".toList.isPrefixOf (jobMode msg)

/-- What `submit` replies to a message whose variables are expanded. -/
def submission (msg : Str) (config : Settings) : Handler ConnCall := do
  let uspaceDir ← ofExcept (pathArg (extractParameter msg "USPACE_DIR".toList))
  sysCall (.chdir uspaceDir)
  match ← scriptOrRefusal hooks msg (jobMode msg) config with
  | .error text => return .failed (some text)
  | .ok cmds =>
      let result ← runSubmission msg uspaceDir (isAlloc msg) cmds config
      return verdict hooks (isAlloc msg) result

theorem submitCommands_eq (msg mode : Str) (config : Settings) :
    submitCommands hooks msg mode config = (do
      match ← scriptOrRefusal hooks msg mode config with
      | .error text =>
          send (.failed (some text))
          return none
      | .ok cmds => return some cmds) := by
  unfold submitCommands scriptOrRefusal
  split
  · rw [bind_assoc]
    rfl
  · split
    · cases extractParameter msg "JOB_FILE".toList with
      | none => rfl
      | some file =>
          dsimp only
          rw [bind_assoc]
          rfl
    · split
      · cases hooks.createAllocScript config msg <;> rfl
      · rfl

theorem send_verdict (alloc : Bool) (result : Bool × Str) :
    send (verdict hooks alloc result) =
      if !result.1 then failed (some result.2)
      else if alloc then ok none
      else
        match hooks.extractJobId result.2 with
        | some jobId => ok (some jobId)
        | none => failed (some (submitFailed result.2)) := by
  unfold verdict
  split
  · rfl
  · split
    · rfl
    · split <;> rfl

/-- The reply is sent when everything else is done. -/
theorem submit_eq (raw : Str) (config : Settings) (r : HandlerCtx) (s : HandlerState) :
    submit hooks raw config r s = (submission hooks (expandVariables r.environ raw) config >>= send) r s := by
  generalize hmsg : expandVariables r.environ raw = msg
  rw [submit, bind_run_done ask_run, hmsg, submission, bind_assoc]
  refine congrFun (congrFun (congrArg _ (funext fun uspaceDir => ?_)) r) s
  rw [bind_assoc]
  refine congrArg _ (funext fun _ => ?_)
  show submitCommands hooks msg (jobMode msg) config >>= _ = _
  rw [submitCommands_eq, bind_assoc, bind_assoc]
  refine congrArg _ (funext fun script => ?_)
  cases script with
  | error text =>
      show (send (.failed (some text)) >>= fun _ => pure none) >>= _ = pure (.failed (some text)) >>= send
      rw [bind_assoc, pure_bind]
      exact bind_pure _
  | ok cmds =>
      show runSubmission msg uspaceDir (isAlloc msg) cmds config >>= _ = (runSubmission _ _ _ _ _ >>= _) >>= send
      rw [bind_assoc]
      refine congrArg _ (funext fun result => ?_)
      rw [pure_bind, send_verdict]
      rfl

end Submission

/-! ## Nothing is said before it -/

/-- The connector has not been called. -/
def Mute (s s' : HandlerState) : Prop := s'.calls = s.calls

instance : Std.Refl Mute := ⟨fun _ => rfl⟩

instance : IsTrans HandlerState Mute := ⟨fun _ _ _ h h' => Eq.trans h' h⟩

theorem attempt_mute {α : Type} (f : Host → Nat → Except PyExc α) : Ends Mute (attempt f) := by
  refine ends_bind (fun _ _ => ⟨nofun, rfl⟩) ?_
  intro answer
  exact ends_ofExcept answer

theorem sysCall_mute (c : SysCall) : Ends Mute (sysCall c) := attempt_mute _

theorem addperms_mute (path : Str) (mode : Nat) : Ends Mute (addperms path mode) :=
  ends_bind (attempt_mute _) fun _ => sysCall_mute _

theorem writeText_mute (path content : Str) : Ends Mute (Io.writeText path content) := by
  refine ends_bind (sysCall_mute _) fun _ => ?_
  refine ends_bind (ends_handle (ends_modify fun _ => rfl) fun e => ?_) fun _ => ?_
  · exact ends_bind (sysCall_mute _) fun _ => ends_raise e
  · exact ends_bind (sysCall_mute _) fun _ => ends_pure ()

theorem runCommand_mute (cmd : Str) (discard keepPid loginShell : Bool) :
    Ends Mute (runCommand cmd discard keepPid loginShell) := by
  refine ends_bind (ends_modify fun _ => rfl) fun _ => ?_
  split
  · refine ends_bind (attempt_mute _) fun pid => ?_
    split
    · exact ends_bind (ends_modify fun _ => rfl) fun _ => ends_pure _
    · exact ends_pure _
  · refine ends_bind (attempt_mute _) ?_
    rintro ⟨code, raw⟩
    refine ends_bind (ends_ofExcept _) fun output => ?_
    split
    · exact ends_pure _
    · exact ends_pure _

theorem scriptOrRefusal_mute (hooks : BssHooks) (msg mode : Str) (config : Settings) :
    Ends Mute (scriptOrRefusal hooks msg mode config) := by
  unfold scriptOrRefusal
  split
  · exact ends_bind (ends_ofExcept _) fun _ => ends_pure _
  · split
    · split
      · exact ends_pure _
      · exact ends_bind (attempt_mute _) fun _ => ends_pure _
    · split
      · split
        · exact ends_pure _
        · exact ends_pure _
      · exact ends_pure _

theorem runSubmission_mute (msg uspaceDir : Str) (alloc : Bool) (cmds : List Str) (config : Settings) :
    Ends Mute (runSubmission msg uspaceDir alloc cmds config) := by
  refine ends_bind (fun _ _ => ⟨nofun, rfl⟩) fun submitId => ?_
  split
  · exact ends_bind (writeText_mute _ _) fun _ => runCommand_mute _ _ _ _
  · refine ends_bind (writeText_mute _ _) fun _ => ?_
    refine ends_bind (addperms_mute _ _) fun _ => ?_
    refine ends_bind (writeText_mute _ _) fun _ => ?_
    refine ends_bind (addperms_mute _ _) fun _ => ?_
    exact ends_bind (ends_ofExcept _) fun submitCmd => runCommand_mute _ _ _ _

theorem submission_mute (hooks : BssHooks) (msg : Str) (config : Settings) :
    Ends Mute (submission hooks msg config) := by
  refine ends_bind (ends_ofExcept _) fun uspaceDir => ?_
  refine ends_bind (sysCall_mute _) fun _ => ?_
  refine ends_bind (scriptOrRefusal_mute hooks _ _ _) fun script => ?_
  cases script with
  | error text => exact ends_pure _
  | ok cmds => exact ends_bind (runSubmission_mute _ _ _ _ _) fun result => ends_pure _

/-! ## The request as it is answered -/

/-- The `try` block of `handle_function` around a function: an exception is answered with its text. -/
def answered (x : Handler Unit) : Handler Unit := handle x fun e => failed (some e.text)

/-- What `handle_function` does with a function once the identity is settled. -/
theorem handle_invoke (function : Tsi.Function) (command msg : Str) (config : Settings) :
    handle (Tsi.invoke function command msg config) (fun e => runHandler (failed (some e.text))) = (do
      modify fun w => { w with
        invocations := w.invocations ++ [{ command := command, message := msg, cred := w.cred }] }
      runHandler (answered (function msg config))) := by
  funext r w
  rw [bind_run_done (modify_run _)]
  unfold handle Tsi.invoke
  rw [bind_run_done (modify_run _), runHandler_run, runHandler_run, answered, handle]
  rcases function msg config _ _ with ⟨_ | e | _, s⟩ <;> rfl

/-- A call whose failure is answered for: it is the only one, or the channel is broken. -/
theorem answered_send (c : ConnCall) (r : HandlerCtx) (s : HandlerState) :
    ∃ new, (answered (send c) r s).2.calls = s.calls ++ new ∧ c ∈ new ∧
      (∀ c' ∈ new, c' = c ∨ ∃ m, c' = .failed m) ∧
      ((answered (send c) r s).2.broken = true ∨ new = [c]) ∧
      (answered (send c) r s).2.commands = s.commands := by
  by_cases hgone : (s.broken || r.host.channelGone s.tick) = true
  · have hsend : send c r s =
        (.raised brokenPipe, { s with tick := s.tick + 1, calls := s.calls ++ [c], broken := true }) := by
      rw [send_run, if_pos hgone]
    rw [answered, handle_run_raised hsend, failed, send_run, if_pos (Bool.true_or _)]
    refine ⟨[c, .failed (some brokenPipe.text)], List.append_assoc .., List.mem_cons_self, ?_, Or.inl rfl, rfl⟩
    intro c' hc'
    rcases List.mem_cons.mp hc' with rfl | hc'
    · exact Or.inl rfl
    · exact Or.inr ⟨_, List.mem_singleton.mp hc'⟩
  · have hsend : send c r s =
        (.done (), acknowledge c { s with tick := s.tick + 1, calls := s.calls ++ [c] }) := by
      rw [send_run, if_neg hgone]
    rw [answered, handle_run_done hsend]
    refine ⟨[c], acknowledge_calls c _, List.mem_cons_self, ?_, Or.inr rfl, acknowledge_commands c _⟩
    exact fun c' hc' => Or.inl (List.mem_singleton.mp hc')

/-- What `submit` and the handler around it call. -/
theorem answered_submit (hooks : BssHooks) (raw : Str) (config : Settings) (r : HandlerCtx) (s : HandlerState) :
    ∃ new, (answered (submit hooks raw config) r s).2.calls = s.calls ++ new ∧
      ((answered (submit hooks raw config) r s).2.broken = true ∨ ∃ c, new = [c]) ∧
      (∀ c ∈ new, (∃ m, c = .failed m) ∨
        ∃ s₁, submission hooks (expandVariables r.environ raw) config r s = (.done c, s₁) ∧
          (answered (submit hooks raw config) r s).2.commands = s₁.commands) ∧
      ∀ c s₁, submission hooks (expandVariables r.environ raw) config r s = (.done c, s₁) → c ∈ new ∧
        (answered (submit hooks raw config) r s).2.commands = s₁.commands := by
  obtain ⟨hends, hmute⟩ := submission_mute hooks (expandVariables r.environ raw) config r s
  have hrun : answered (submit hooks raw config) r s =
      answered (submission hooks (expandVariables r.environ raw) config >>= send) r s := by
    rw [answered, handle, submit_eq]
    rfl
  rw [hrun]
  rcases hsubmission : submission hooks (expandVariables r.environ raw) config r s with ⟨c | e | _, s₁⟩
  · rw [hsubmission] at hmute
    have hcalls : s₁.calls = s.calls := hmute
    have hsent : answered (submission hooks (expandVariables r.environ raw) config >>= send) r s =
        answered (send c) r s₁ := by
      rw [answered, handle, bind_run_done hsubmission]
      rfl
    obtain ⟨new, hnew, hmem, hfailed, hone, hcommands⟩ := answered_send c r s₁
    rw [hcalls] at hnew
    rw [hsent]
    refine ⟨new, hnew, hone.imp_right fun h => ⟨c, h⟩, ?_, ?_⟩
    · intro c' hc'
      rcases hfailed c' hc' with rfl | hm
      · exact Or.inr ⟨s₁, rfl, hcommands⟩
      · exact Or.inl hm
    · rintro _ _ ⟨⟩
      exact ⟨hmem, hcommands⟩
  · rw [hsubmission] at hmute
    have hcalls : s₁.calls = s.calls := hmute
    have hraised : answered (submission hooks (expandVariables r.environ raw) config >>= send) r s =
        failed (some e.text) r s₁ := handle_run_raised (bind_run_raised hsubmission)
    rw [hraised, failed, send_run, hcalls]
    refine ⟨[.failed (some e.text)], ?_, Or.inr ⟨_, rfl⟩, ?_, ?_⟩
    · split
      · rfl
      · exact acknowledge_calls _ _
    · exact fun c hc => Or.inl ⟨_, List.mem_singleton.mp hc⟩
    · rintro _ _ ⟨⟩
  · rw [hsubmission] at hends
    exact absurd rfl hends

/-! ## The steps behind a reply -/

section Steps

variable {r : HandlerCtx} {s s' : HandlerState}

/-- The host lets a file be opened for writing and closed. -/
def Writable (host : Host) (t : Nat) (path : Str) : Prop :=
  host.sysCall t (.open path "w".toList) = none ∧ host.sysCall (t + 1) (.close path) = none

theorem writeText_eq_done {path content : Str} :
    Io.writeText path content r s = (.done (), s') ↔ Writable r.host s.tick path ∧
      s' = { s with tick := s.tick + 2, scripts := s.scripts ++ [(path, content)] } := by
  unfold Io.writeText Io.withFile
  rw [bind_eq_done]
  constructor
  · rintro ⟨⟨⟩, s₁, hopen, hrest⟩
    obtain ⟨hopens, rfl⟩ := sysCall_eq_done.mp hopen
    rw [bind_run_done (handle_run_done (modify_run _)), bind_eq_done] at hrest
    obtain ⟨⟨⟩, s₂, hclose, hpure⟩ := hrest
    obtain ⟨hcloses, rfl⟩ := sysCall_eq_done.mp hclose
    exact ⟨⟨hopens, hcloses⟩, (congrArg Prod.snd hpure).symm⟩
  · rintro ⟨⟨hopen, hclose⟩, rfl⟩
    refine ⟨(), _, sysCall_eq_done.mpr ⟨hopen, rfl⟩, ?_⟩
    rw [bind_run_done (handle_run_done (modify_run _)), bind_run_done (sysCall_eq_done.mpr ⟨hclose, rfl⟩)]
    rfl

theorem addperms_done {path : Str} {mode : Nat} (h : addperms path mode r s = (.done (), s')) :
    s' = { s with tick := s.tick + 2 } := by
  obtain ⟨info, s₁, hstat, hchmod⟩ := bind_eq_done.mp h
  obtain ⟨-, rfl⟩ := attempt_eq_done.mp hstat
  exact (sysCall_eq_done.mp hchmod).2

/-- A command that succeeds in the foreground ends with exit code 0. -/
theorem runCommand_foreground {cmd output : Str} {keepPid loginShell : Bool}
    (h : runCommand cmd false keepPid loginShell r s = (.done (true, output), s')) :
    (∃ raw, r.host.checkOutput s.tick (shellArgs cmd loginShell) = .ok (0, raw) ∧ decode raw = .ok output) ∧
      s'.commands = s.commands ++ [shellArgs cmd loginShell] := by
  rw [runCommand, logCommand, bind_run_done (modify_run _), if_neg Bool.false_ne_true, bind_eq_done] at h
  obtain ⟨⟨code, raw⟩, s₁, hcheck, hrest⟩ := h
  obtain ⟨hchecked, rfl⟩ := attempt_eq_done.mp hcheck
  obtain ⟨text, s₂, hdecode, hrest⟩ := bind_eq_done.mp hrest
  obtain ⟨hdecoded, rfl⟩ := ofExcept_eq_done.mp hdecode
  dsimp only at hrest
  split at hrest
  · rename_i hcode
    rw [pure_run, Prod.mk.injEq, Outcome.done.injEq, Prod.mk.injEq] at hrest
    obtain ⟨⟨-, rfl⟩, rfl⟩ := hrest
    exact ⟨⟨raw, hcode ▸ hchecked, hdecoded⟩, rfl⟩
  · cases hrest

theorem runCommand_background {cmd : Str} {loginShell : Bool} {result : Bool × Str} :
    runCommand cmd true true loginShell r s = (.done result, s') ↔
      result = (true, []) ∧ ∃ pid, r.host.popen s.tick (shellArgs cmd loginShell) = .ok pid ∧
        s' = { s with
          tick := s.tick + 1
          commands := s.commands ++ [shellArgs cmd loginShell]
          childPids := s.childPids ++ [pid] } := by
  rw [runCommand, logCommand, bind_run_done (modify_run _), if_pos rfl, bind_eq_done]
  constructor
  · rintro ⟨pid, s₁, hpopen, hrest⟩
    obtain ⟨hstarted, rfl⟩ := attempt_eq_done.mp hpopen
    rw [if_pos rfl, bind_run_done (modify_run _)] at hrest
    obtain ⟨hresult, hstate⟩ := Prod.mk.inj (hrest : (Outcome.done (true, ([] : Str)), _) = _)
    exact ⟨(Outcome.done.inj hresult).symm, pid, hstarted, hstate.symm⟩
  · rintro ⟨rfl, pid, hpopen, rfl⟩
    refine ⟨pid, _, attempt_eq_done.mpr ⟨hpopen, rfl⟩, ?_⟩
    rw [if_pos rfl, bind_run_done (modify_run _)]
    rfl

/-- The command line of the submit command. -/
def submitArgs (config : Settings) (submitCmd submitId : Str) : List Str :=
  shellArgs (submitCmd ++ " ./".toList ++ ("bss_submit_".toList ++ submitId)) config.useLoginShell

/-- The command line that runs the allocation in the background. -/
def allocArgs (config : Settings) (msg : Str) (cmds : List Str) : List Str :=
  shellArgs (allocScript msg cmds) config.useLoginShell

/-- A submission that succeeds has run the submit command, as the tenth thing it asked of the host. -/
theorem runSubmission_foreground {msg uspaceDir output : Str} {cmds : List Str} {config : Settings}
    (h : runSubmission msg uspaceDir false cmds config r s = (.done (true, output), s')) :
    ∃ submitCmd submitId raw, config.submitCmd = some submitCmd ∧
      r.host.checkOutput (s.tick + 9) (submitArgs config submitCmd submitId) = .ok (0, raw) ∧
      decode raw = .ok output ∧ s'.commands = s.commands ++ [submitArgs config submitCmd submitId] := by
  rw [runSubmission, bind_run_done (consult_run _ _ _), if_neg Bool.false_ne_true] at h
  obtain ⟨⟨⟩, s₁, hjob, h⟩ := bind_eq_done.mp h
  obtain ⟨-, rfl⟩ := writeText_eq_done.mp hjob
  obtain ⟨⟨⟩, s₂, hperms, h⟩ := bind_eq_done.mp h
  obtain rfl := addperms_done hperms
  obtain ⟨⟨⟩, s₃, hfile, h⟩ := bind_eq_done.mp h
  obtain ⟨-, rfl⟩ := writeText_eq_done.mp hfile
  obtain ⟨⟨⟩, s₄, hperms', h⟩ := bind_eq_done.mp h
  obtain rfl := addperms_done hperms'
  obtain ⟨submitCmd, s₅, hcmd, h⟩ := bind_eq_done.mp h
  obtain ⟨hcmd', rfl⟩ := ofExcept_eq_done.mp hcmd
  obtain ⟨⟨raw, hcheck, hdecode⟩, hcommands⟩ := runCommand_foreground h
  exact ⟨submitCmd, r.host.randomString s.tick, raw, configured_eq_ok.mp hcmd', hcheck, hdecode, hcommands⟩

theorem runSubmission_background {msg uspaceDir : Str} {cmds : List Str} {config : Settings}
    {result : Bool × Str} :
    runSubmission msg uspaceDir true cmds config r s = (.done result, s') ↔ result = (true, []) ∧
      Writable r.host (s.tick + 1) ("UNICORE_Job_".toList ++ r.host.randomString s.tick) ∧
      ∃ pid, r.host.popen (s.tick + 3) (allocArgs config msg cmds) = .ok pid ∧
        s' = { s with
          tick := s.tick + 4
          scripts := s.scripts ++ [("UNICORE_Job_".toList ++ r.host.randomString s.tick, allocScript msg cmds)]
          commands := s.commands ++ [allocArgs config msg cmds]
          childPids := s.childPids ++ [pid] } := by
  rw [runSubmission, bind_run_done (consult_run _ _ _), if_pos rfl, bind_eq_done]
  constructor
  · rintro ⟨⟨⟩, s₁, hjob, hrun⟩
    obtain ⟨hwritable, rfl⟩ := writeText_eq_done.mp hjob
    obtain ⟨hresult, hstarts⟩ := runCommand_background.mp hrun
    exact ⟨hresult, hwritable, hstarts⟩
  · rintro ⟨hresult, hwritable, hstarts⟩
    exact ⟨(), _, writeText_eq_done.mpr ⟨hwritable, rfl⟩, runCommand_background.mpr ⟨hresult, hstarts⟩⟩

end Steps

/-! ## Submissions that succeed -/

section Succeeds

variable {hooks : BssHooks} {message : Str} {config : Settings} {r : HandlerCtx} {s s' : HandlerState}

/-- A raw job is read from its file first. -/
def scriptTicks (mode : Str) : Nat := if mode = "raw".toList then 1 else 0

theorem scriptOrRefusal_done {mode : Str} {cmds : List Str}
    (h : scriptOrRefusal hooks message mode config r s = (.done (.ok cmds), s')) :
    s' = { s with tick := s.tick + scriptTicks mode } ∧
      ("alloc".toList.isPrefixOf mode = true → hooks.createAllocScript config message = .ok cmds) := by
  unfold scriptOrRefusal at h
  unfold scriptTicks
  split at h
  · rename_i hmode
    obtain ⟨_, s₁, hscript, hpure⟩ := bind_eq_done.mp h
    obtain ⟨-, rfl⟩ := ofExcept_eq_done.mp hscript
    rw [hmode]
    exact ⟨(congrArg Prod.snd hpure).symm, fun halloc => absurd halloc (by decide)⟩
  · split at h
    · rename_i hmode
      rw [if_pos hmode, hmode]
      cases hfile : extractParameter message "JOB_FILE".toList with
      | none =>
          rw [hfile] at h
          cases h
      | some file =>
          rw [hfile] at h
          obtain ⟨_, s₁, hread, hpure⟩ := bind_eq_done.mp h
          obtain ⟨-, rfl⟩ := attempt_eq_done.mp hread
          exact ⟨(congrArg Prod.snd hpure).symm, fun halloc => absurd halloc (by decide)⟩
    · rename_i hraw
      rw [if_neg hraw]
      split at h
      · cases hscript : hooks.createAllocScript config message with
        | error e =>
            rw [hscript] at h
            cases h
        | ok cmds' =>
            rw [hscript] at h
            obtain ⟨hcmds, hstate⟩ := Prod.mk.inj (h : (Outcome.done (Except.ok cmds'), s) = _)
            obtain rfl := Except.ok.inj (Outcome.done.inj hcmds)
            exact ⟨hstate.symm, fun _ => rfl⟩
      · cases h

/-- A submission that is not refused. -/
theorem submission_done {reply : Option Str}
    (h : submission hooks message config r s = (.done (.ok reply), s')) :
    ∃ uspaceDir cmds result, extractParameter message "USPACE_DIR".toList = some uspaceDir ∧
      r.host.sysCall s.tick (.chdir uspaceDir) = none ∧
      (isAlloc message = true → hooks.createAllocScript config message = .ok cmds) ∧
      runSubmission message uspaceDir (isAlloc message) cmds config r
        { s with tick := s.tick + 1 + scriptTicks (jobMode message) } = (.done result, s') ∧
      verdict hooks (isAlloc message) result = .ok reply := by
  obtain ⟨uspaceDir, s₁, hdir, hrest⟩ := bind_eq_done.mp h
  obtain ⟨hpath, rfl⟩ := ofExcept_eq_done.mp hdir
  obtain ⟨⟨⟩, s₂, hchdir, hscripted⟩ := bind_eq_done.mp hrest
  obtain ⟨hchanged, rfl⟩ := sysCall_eq_done.mp hchdir
  obtain ⟨script, s₃, hscript, hsubmitted⟩ := bind_eq_done.mp hscripted
  cases script with
  | error text => cases hsubmitted
  | ok cmds =>
      obtain ⟨rfl, halloc⟩ := scriptOrRefusal_done hscript
      obtain ⟨result, s₄, hrun, hpure⟩ := bind_eq_done.mp hsubmitted
      obtain ⟨hverdict, rfl⟩ := Prod.mk.inj (hpure : (Outcome.done (verdict _ _ _), s₄) = _)
      have hdir' : extractParameter message "USPACE_DIR".toList = some uspaceDir := by
        unfold pathArg at hpath
        split at hpath
        · rename_i p hp
          rw [hp, Except.ok.inj hpath]
        · cases hpath
      exact ⟨uspaceDir, cmds, result, hdir', hchanged, halloc, hrun, Outcome.done.inj hverdict⟩

/-- A submission is answered with a status. -/
theorem submission_status {c : ConnCall} (h : submission hooks message config r s = (.done c, s')) :
    (∃ m, c = .failed m) ∨ ∃ reply, c = .ok reply := by
  obtain ⟨uspaceDir, s₁, -, hrest⟩ := bind_eq_done.mp h
  obtain ⟨⟨⟩, s₂, -, hscripted⟩ := bind_eq_done.mp hrest
  obtain ⟨script, s₃, -, hsubmitted⟩ := bind_eq_done.mp hscripted
  cases script with
  | error text => exact Or.inl ⟨some text, (Outcome.done.inj (congrArg Prod.fst hsubmitted)).symm⟩
  | ok cmds =>
      obtain ⟨result, s₄, -, hpure⟩ := bind_eq_done.mp hsubmitted
      obtain rfl : verdict hooks (isAlloc message) result = c := Outcome.done.inj (congrArg Prod.fst hpure)
      unfold verdict
      split
      · exact Or.inl ⟨_, rfl⟩
      · split
        · exact Or.inr ⟨_, rfl⟩
        · split
          · exact Or.inr ⟨_, rfl⟩
          · exact Or.inl ⟨_, rfl⟩

/-- What is reported as a success is an allocation, or a job with an id in the output. -/
theorem verdict_ok {alloc : Bool} {result : Bool × Str} {reply : Option Str}
    (h : verdict hooks alloc result = .ok reply) :
    result.1 = true ∧ ((alloc = true ∧ reply = none) ∨
      (alloc = false ∧ ∃ jobId, reply = some jobId ∧ hooks.extractJobId result.2 = some jobId)) := by
  obtain ⟨success, output⟩ := result
  unfold verdict at h
  cases success with
  | false => cases h
  | true =>
      refine ⟨rfl, ?_⟩
      cases alloc with
      | true => exact Or.inl ⟨rfl, (ConnCall.ok.inj h).symm⟩
      | false =>
          dsimp only at h
          cases hid : hooks.extractJobId output with
          | none =>
              rw [hid] at h
              cases h
          | some jobId =>
              rw [hid] at h
              exact Or.inr ⟨rfl, jobId, (ConnCall.ok.inj h).symm, rfl⟩

/-- A submission that is answered with an id. -/
theorem submission_id {jobId : Str}
    (h : submission hooks message config r s = (.done (.ok (some jobId)), s')) :
    isAlloc message = false ∧ ∃ submitCmd submitId raw output, config.submitCmd = some submitCmd ∧
      s'.commands = s.commands ++ [submitArgs config submitCmd submitId] ∧
      r.host.checkOutput (s.tick + 10 + scriptTicks (jobMode message)) (submitArgs config submitCmd submitId) =
        .ok (0, raw) ∧
      decode raw = .ok output ∧ hooks.extractJobId output = some jobId := by
  obtain ⟨uspaceDir, cmds, ⟨success, output⟩, -, -, -, hrun, hverdict⟩ := submission_done h
  obtain ⟨hsuccess, ⟨-, hnone⟩ | ⟨halloc, id, hid, hextract⟩⟩ := verdict_ok hverdict
  · cases hnone
  · obtain rfl : success = true := hsuccess
    obtain rfl := Option.some.inj hid
    rw [halloc] at hrun
    obtain ⟨submitCmd, submitId, raw, hcmd, hcheck, hdecode, hcommands⟩ := runSubmission_foreground hrun
    refine ⟨halloc, submitCmd, submitId, raw, output, hcmd, hcommands, ?_, hdecode, hextract⟩
    have htick : s.tick + 10 + scriptTicks (jobMode message) =
        s.tick + 1 + scriptTicks (jobMode message) + 9 := by omega
    rw [htick]
    exact hcheck

/-- The host takes every step of an allocation with the given script. -/
def StartsAllocation (config : Settings) (message : Str) (cmds : List Str) (host : Host) (t : Nat) : Prop :=
  ∃ uspaceDir pid, extractParameter message "USPACE_DIR".toList = some uspaceDir ∧
    host.sysCall t (.chdir uspaceDir) = none ∧
    Writable host (t + 2) ("UNICORE_Job_".toList ++ host.randomString (t + 1)) ∧
    host.popen (t + 4) (allocArgs config message cmds) = .ok pid

theorem scriptTicks_alloc (halloc : isAlloc message = true) : scriptTicks (jobMode message) = 0 := by
  apply if_neg
  intro hraw
  rw [isAlloc, hraw] at halloc
  revert halloc
  decide

/-- A submission that is answered without one. -/
theorem submission_alloc (h : submission hooks message config r s = (.done (.ok none), s')) :
    isAlloc message = true ∧ ∃ cmds, hooks.createAllocScript config message = .ok cmds ∧
      StartsAllocation config message cmds r.host s.tick ∧
      s'.commands = s.commands ++ [allocArgs config message cmds] := by
  obtain ⟨uspaceDir, cmds, result, hdir, hchdir, hscript, hrun, hverdict⟩ := submission_done h
  obtain ⟨-, ⟨halloc, -⟩ | ⟨-, id, hid, -⟩⟩ := verdict_ok hverdict
  · rw [halloc, scriptTicks_alloc halloc] at hrun
    obtain ⟨-, hwritable, pid, hpopen, rfl⟩ := runSubmission_background.mp hrun
    exact ⟨halloc, cmds, hscript halloc, ⟨uspaceDir, pid, hdir, hchdir, hwritable, hpopen⟩, rfl⟩
  · cases hid

/-- A script that can be made for it makes an allocation a success. -/
theorem submission_starts {cmds : List Str} (halloc : isAlloc message = true)
    (hscript : hooks.createAllocScript config message = .ok cmds)
    (hstarts : StartsAllocation config message cmds r.host s.tick) :
    ∃ s', submission hooks message config r s = (.done (.ok none), s') := by
  obtain ⟨uspaceDir, pid, hdir, hchdir, hwritable, hpopen⟩ := hstarts
  have hmodes : jobMode message ≠ "normal".toList ∧ jobMode message ≠ "raw".toList := by
    rw [isAlloc] at halloc
    constructor
    · intro hmode
      rw [hmode] at halloc
      exact absurd halloc (by decide)
    · intro hmode
      rw [hmode] at halloc
      exact absurd halloc (by decide)
  have hcmds : scriptOrRefusal hooks message (jobMode message) config = pure (.ok cmds) := by
    have halloc' : "alloc".toList.isPrefixOf (jobMode message) = true := halloc
    rw [scriptOrRefusal, if_neg hmodes.1, if_neg hmodes.2, if_pos halloc', hscript]
  have hpath : (ofExcept (pathArg (some uspaceDir)) : Handler Str) r s = (.done uspaceDir, s) := rfl
  have hrun : ∃ s', runSubmission message uspaceDir true cmds config r { s with tick := s.tick + 1 } =
      (.done (true, []), s') := ⟨_, runSubmission_background.mpr ⟨rfl, hwritable, pid, hpopen, rfl⟩⟩
  obtain ⟨s', hrun⟩ := hrun
  refine ⟨s', ?_⟩
  rw [submission, hdir, bind_run_done hpath, bind_run_done (sysCall_eq_done.mpr ⟨hchdir, rfl⟩), hcmds, pure_bind]
  dsimp only
  rw [halloc, bind_run_done hrun]
  rfl

end Succeeds

/-! ## Which replies are justified -/

/-- A line of the script that runs in the background starts with the allocation command. -/
def RunsAllocation (config : Settings) (message script : Str) : Prop :=
  ∃ cmds line allocCmd, script = allocScript message cmds ∧ line ∈ cmds ∧ config.allocCmd = some allocCmd ∧
    allocCmd <+: line

/-- What has happened since the state `s` when a reply is made: for an id the submit command is the one command
that was run, with exit code 0 and the id in its output; in an allocation mode it is a script with the
allocation command. -/
def Justified (config : Settings) (message : Str) (r : HandlerCtx) (s s' : HandlerState) : ConnCall → Prop
  | .ok (some jobId) => isAlloc message = false ∧ ∃ submitCmd submitId raw output,
      config.submitCmd = some submitCmd ∧ s'.commands = s.commands ++ [submitArgs config submitCmd submitId] ∧
      r.host.checkOutput (s.tick + 10 + scriptTicks (jobMode message)) (submitArgs config submitCmd submitId) =
        .ok (0, raw) ∧
      decode raw = .ok output ∧ jobId <:+: output
  | .ok none => isAlloc message = true ∧ ∃ script,
      s'.commands = s.commands ++ [shellArgs script config.useLoginShell] ∧ RunsAllocation config message script
  | .failed _ => True
  | .message _ => False

/-- A submission is answered by one justified reply (or the channel is broken), and an allocation by a failure
where the variant has no function for it. -/
def HonestReply (v : Variant) (config : Settings) (raw : Str) (r : HandlerCtx) (s : HandlerState) : Prop :=
  ∃ new, (answered (v.bss.submit raw config) r s).2.calls = s.calls ++ new ∧
    ((answered (v.bss.submit raw config) r s).2.broken = true ∨ ∃ c, new = [c]) ∧
    (∀ c ∈ new, Justified config (expandVariables r.environ raw) r s (answered (v.bss.submit raw config) r s).2 c) ∧
    (v.hooks.createAllocScript = baseHooks.createAllocScript →
      isAlloc (expandVariables r.environ raw) = true → ∀ c ∈ new, ∃ m, c = .failed m)

theorem bss_submit_eq {v : Variant} (hv : v ≠ .nobatch) : v.bss.submit = submit v.hooks := by
  cases v with
  | nobatch => exact absurd rfl hv
  | slurm => rfl
  | torque => rfl
  | lsf => rfl

/-- The number an id is read from stands in the output. -/
theorem extractJobId_infix {v : Variant} {output jobId : Str} (h : v.hooks.extractJobId output = some jobId) :
    jobId <:+: output := by
  have hbase : extractJobId output = some jobId → jobId <:+: output := by
    intro h
    unfold extractJobId at h
    split at h
    · rename_i _ id _ hsearch
      obtain rfl := Option.some.inj h
      exact search_group hsearch (by simp)
    · cases h
  cases v with
  | nobatch => exact hbase h
  | slurm =>
      have hslurm : BssSlurm.extractJobId output = some jobId := h
      unfold BssSlurm.extractJobId at hslurm
      split at hslurm
      · rename_i _ _ id _ hsearch
        obtain rfl := Option.some.inj hslurm
        exact search_group hsearch (by simp)
      · cases hslurm
  | torque => exact hbase h
  | lsf => exact hbase h

/-- The allocation script of the Slurm variant starts with the configured command. -/
theorem slurm_allocLine {config : Settings} {message : Str} {cmds : List Str}
    (h : BssSlurm.createAllocScript config message = .ok cmds) :
    RunsAllocation config message (allocScript message cmds) := by
  obtain ⟨allocOptions, -, hrest⟩ := except_bind_eq_ok.mp h
  obtain ⟨allocCmd, hcmd, hcmds⟩ := except_bind_eq_ok.mp hrest
  obtain rfl := Except.ok.inj hcmds
  refine ⟨_, _, allocCmd, rfl, List.mem_cons_self, configured_eq_ok.mp hcmd, ?_⟩
  simp only [List.append_assoc]
  exact List.prefix_append allocCmd _

/-- An empty script has no such line. -/
theorem not_runsAllocation_nil (config : Settings) (message : Str) :
    ¬ RunsAllocation config message (allocScript message []) := by
  rintro ⟨cmds, line, -, hscript, hline, -⟩
  unfold allocScript at hscript
  simp only [List.append_assoc, List.append_cancel_left_eq, List.flatMap_nil, List.nil_append] at hscript
  have hempty : cmds.flatMap (fun line => line ++ " ; ".toList) = [] := (List.self_eq_append_left.mp hscript)
  have hnil := List.flatMap_eq_nil_iff.mp hempty line hline
  exact absurd (List.append_eq_nil_iff.mp hnil).2 (by decide)

theorem createAllocScript_base {v : Variant} (hv : v ≠ .slurm) :
    v.hooks.createAllocScript = baseHooks.createAllocScript := by
  cases v with
  | slurm => exact absurd rfl hv
  | nobatch => rfl
  | torque => rfl
  | lsf => rfl

theorem slurm_createAllocScript : Variant.slurm.hooks.createAllocScript ≠ baseHooks.createAllocScript := by
  intro h
  -- without the command in the configuration the function of the variant raises
  have hraised : (.error _ : Except PyExc (List Str)) = .ok [] := congrFun (congrFun h {}) []
  cases hraised

theorem shellArgs_injective {cmd cmd' : Str} {loginShell : Bool}
    (h : shellArgs cmd loginShell = shellArgs cmd' loginShell) : cmd = cmd' := by
  cases loginShell with
  | true => simpa [shellArgs] using h
  | false => simpa [shellArgs] using h

section Honest

variable {v : Variant} {config : Settings} {message : Str} {r : HandlerCtx} {s s₁ s' : HandlerState}

/-- A variant without a function for allocations starts one with an empty script. -/
theorem unjustified_alloc (hv : v ≠ .slurm) (hdone : submission v.hooks message config r s = (.done (.ok none), s₁))
    (hcommands : s'.commands = s₁.commands) : ¬ Justified config message r s s' (.ok none) := by
  rintro ⟨-, script, hscripts, hruns⟩
  obtain ⟨-, cmds, hcmds, -, hstarted⟩ := submission_alloc hdone
  rw [createAllocScript_base hv] at hcmds
  obtain rfl : [] = cmds := Except.ok.inj hcmds
  rw [hcommands, hstarted, List.append_cancel_left_eq, List.singleton_inj] at hscripts
  rw [← shellArgs_injective hscripts] at hruns
  exact not_runsAllocation_nil config message hruns

/-- An allocation that is answered with a success is one of Slurm, if the variant does as it should. -/
theorem slurm_of_alloc (hcond : v = .slurm ∨ isAlloc message = false ∨ ¬ StartsAllocation config message [] r.host s.tick)
    (hdone : submission v.hooks message config r s = (.done (.ok none), s₁)) : v = .slurm := by
  obtain ⟨halloc, cmds, hscript, hstarts, -⟩ := submission_alloc hdone
  rcases hcond with hslurm | hnotAlloc | hfails
  · exact hslurm
  · rw [hnotAlloc] at halloc
    cases halloc
  · by_contra hv
    rw [createAllocScript_base hv] at hscript
    obtain rfl : [] = cmds := Except.ok.inj hscript
    exact absurd hstarts hfails

/-- What is answered when the command has been run. -/
theorem justified_answer {c : ConnCall}
    (hslurm : ∀ s₁, submission v.hooks message config r s = (.done (.ok none), s₁) → v = .slurm)
    (hdone : submission v.hooks message config r s = (.done c, s₁)) (hcommands : s'.commands = s₁.commands) :
    Justified config message r s s' c := by
  rcases submission_status hdone with ⟨m, rfl⟩ | ⟨_ | jobId, rfl⟩
  · exact trivial
  · obtain ⟨halloc, cmds, hscript, -, hstarted⟩ := submission_alloc hdone
    obtain rfl := hslurm s₁ hdone
    exact ⟨halloc, allocScript message cmds, hcommands.trans hstarted, slurm_allocLine hscript⟩
  · obtain ⟨hnotAlloc, submitCmd, submitId, raw, output, hcmd, hrun, hcheck, hdecode, hid⟩ := submission_id hdone
    exact ⟨hnotAlloc, submitCmd, submitId, raw, output, hcmd, hcommands.trans hrun, hcheck, hdecode,
      extractJobId_infix hid⟩

end Honest

/-- **Honest replies.**  The reply to a submission is justified unless a variant without a function for it is
asked for an allocation and nothing else goes wrong. -/
theorem submit_honest_iff {v : Variant} (hv : v ≠ .nobatch) (config : Settings) (raw : Str) (r : HandlerCtx)
    (s : HandlerState) :
    HonestReply v config raw r s ↔ (v = .slurm ∨ isAlloc (expandVariables r.environ raw) = false ∨
      ¬ StartsAllocation config (expandVariables r.environ raw) [] r.host s.tick) := by
  unfold HonestReply
  rw [bss_submit_eq hv]
  obtain ⟨new, hcalls, hone, hnew, hsubmitted⟩ := answered_submit v.hooks raw config r s
  generalize expandVariables r.environ raw = message at *
  constructor
  · rintro ⟨new', hcalls', -, hjustified, -⟩
    obtain rfl : new = new' := List.append_cancel_left (hcalls.symm.trans hcalls')
    by_contra hcond
    obtain ⟨hslurm, halloc, hstarts⟩ : v ≠ .slurm ∧ isAlloc message = true ∧
        StartsAllocation config message [] r.host s.tick := by
      simpa only [not_or, Bool.not_eq_false, not_not] using hcond
    have hscript : v.hooks.createAllocScript config message = .ok [] := by
      rw [createAllocScript_base hslurm]
      rfl
    obtain ⟨s₁, hdone⟩ := submission_starts halloc hscript hstarts
    obtain ⟨hmem, hcommands⟩ := hsubmitted _ _ hdone
    exact unjustified_alloc hslurm hdone hcommands (hjustified _ hmem)
  · intro hcond
    have hslurm : ∀ s₁, submission v.hooks message config r s = (.done (.ok none), s₁) → v = .slurm :=
      fun s₁ hdone => slurm_of_alloc hcond hdone
    refine ⟨new, hcalls, hone, ?_, ?_⟩
    · intro c hc
      rcases hnew c hc with ⟨m, rfl⟩ | ⟨s₁, hdone, hcommands⟩
      · exact trivial
      · exact justified_answer hslurm hdone hcommands
    · intro hbase halloc c hc
      rcases hnew c hc with hm | ⟨s₁, hdone, -⟩
      · exact hm
      · rcases submission_status hdone with hm | ⟨_ | jobId, rfl⟩
        · exact hm
        · obtain rfl := hslurm s₁ hdone
          exact absurd hbase slurm_createAllocScript
        · rw [(submission_id hdone).1] at halloc
          cases halloc

/-! ### A job with an id, and an allocation without a command -/

/-- A host on which every command prints the reply of `sbatch`. -/
def slurmHost : Host :=
  { calmHost UserDb.empty.cache with
    checkOutput := fun _ _ => .ok (0, encodeUtf8 "Submitted batch job 17\n".toList) }

/-- A function called on this host, without a login environment. -/
def calledOn (host : Host) : HandlerCtx := { host := host, environ := ⟨none, none, none⟩, fuel := 0 }

def slurmJob : Str := "#TSI_USPACE_DIR /u\n".toList

/-- The reply to a job is its id, which `sbatch` has printed. -/
theorem submit_honest_slurmJob :
    (answered (BssSlurm.slurm.submit slurmJob BssSlurm.defaults) (calledOn slurmHost) .fresh).2.calls = [.ok (some "17".toList)] ∧
    HonestReply .slurm BssSlurm.defaults slurmJob (calledOn slurmHost) .fresh := by
  refine ⟨by decide +kernel, ?_⟩
  exact (submit_honest_iff (by decide) BssSlurm.defaults slurmJob (calledOn slurmHost) .fresh).mpr (Or.inl rfl)

def allocationRequest : Str := "#TSI_USPACE_DIR /u\n#TSI_JOB_MODE allocate\n".toList

/-- Torque has no function for allocations, and reports one that does not exist. -/
theorem torque_allocation_reported :
    ¬ ∀ (v : Variant) (config : Settings) (raw : Str) (r : HandlerCtx) (s : HandlerState), v ≠ .nobatch →
      HonestReply v config raw r s := by
  intro h
  obtain ⟨new, hcalls, -, -, hfailed⟩ :=
    h .torque BssTorque.defaults allocationRequest (calledOn (calmHost UserDb.empty.cache)) .fresh (by decide)
  have hok : (answered (BssTorque.torque.submit allocationRequest BssTorque.defaults) (calledOn (calmHost UserDb.empty.cache)) .fresh).2.calls =
      [.ok none] := by decide +kernel
  obtain rfl : [.ok none] = new := hok.symm.trans hcalls
  obtain ⟨m, hm⟩ := hfailed rfl (by decide +kernel) _ List.mem_cons_self
  cases hm

end UnicoreTsi.BssCommon
