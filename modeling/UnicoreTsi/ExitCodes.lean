/-
# UnicoreTsi.ExitCodes — the exit code of a command, and the bytes it prints.

`run_command` decodes what a command in the foreground has printed, whether the command succeeded or not, and a
`UnicodeDecodeError` is not caught.  So the exit code decides about the success exactly for an output that is
UTF-8 (`runCommand_decoded`, `runCommand_undecodable`).

`ComesTo` lists the functions that run a command of this kind, with the state in which they start it and with
what they do with its result.  Each of them goes on as after a success, for a command that exits with 0, or ends
with the exception of the decoding (`exit_code_decides_iff`).
-/
import UnicoreTsi.AclRequests

set_option autoImplicit false

namespace UnicoreTsi.BssCommon

open UnicoreTsi.Text UnicoreTsi.Effects UnicoreTsi.Utils UnicoreTsi.Connector
open UnicoreTsi.Acl (ran)

/-! ## Running a command -/

section Command

variable {cmd output : Str} {keepPid loginShell : Bool} {r : HandlerCtx} {s : HandlerState} {code : Int}
  {raw : List UInt8}

/-- What is returned for an exit code and the text that was printed. -/
def commandResult (cmd : Str) (code : Int) (output : Str) : Bool × Str :=
  if code = 0 then (true, output) else (false, failedCommandText cmd code output)

theorem commandResult_flag : (commandResult cmd code output).1 = true ↔ code = 0 := by
  unfold commandResult
  split
  · rename_i hcode
    exact iff_of_true rfl hcode
  · rename_i hcode
    exact iff_of_false Bool.false_ne_true hcode

theorem runCommand_decoded (hcheck : r.host.checkOutput s.tick (shellArgs cmd loginShell) = .ok (code, raw))
    (hdecode : decode raw = .ok output) :
    runCommand cmd false keepPid loginShell r s =
      (.done (commandResult cmd code output), ran (shellArgs cmd loginShell) s) := by
  show runCommand cmd false false loginShell r s = _
  rw [Acl.runCommand_run, hcheck]
  dsimp only
  rw [hdecode, commandResult]
  dsimp only
  split <;> rfl

theorem runCommand_undecodable (hcheck : r.host.checkOutput s.tick (shellArgs cmd loginShell) = .ok (code, raw))
    {e : PyExc} (hdecode : decode raw = .error e) :
    runCommand cmd false keepPid loginShell r s = (.raised e, ran (shellArgs cmd loginShell) s) := by
  show runCommand cmd false false loginShell r s = _
  rw [Acl.runCommand_run, hcheck]
  dsimp only
  rw [hdecode]

/-- What a command that returns has printed, and with which exit code. -/
theorem runCommand_returns {result : Bool × Str} {s' : HandlerState}
    (h : runCommand cmd false keepPid loginShell r s = (.done result, s')) :
    ∃ code raw output, r.host.checkOutput s.tick (shellArgs cmd loginShell) = .ok (code, raw) ∧
      decode raw = .ok output ∧ result = commandResult cmd code output ∧ s' = ran (shellArgs cmd loginShell) s := by
  cases hcheck : r.host.checkOutput s.tick (shellArgs cmd loginShell) with
  | error e =>
      replace h : runCommand cmd false false loginShell r s = (.done result, s') := h
      rw [Acl.runCommand_run, hcheck] at h
      cases h
  | ok p =>
      obtain ⟨code, raw⟩ := p
      cases hdecode : decode raw with
      | error e =>
          rw [runCommand_undecodable hcheck hdecode] at h
          cases h
      | ok output =>
          rw [runCommand_decoded hcheck hdecode] at h
          cases h
          exact ⟨code, raw, output, rfl, hdecode, rfl, rfl⟩

theorem decode_eq_ok_iff : (∃ text, decode raw = .ok text) ↔ (decodeUtf8 raw).isSome = true := by
  unfold decode
  cases decodeUtf8 raw with
  | none => exact iff_of_false (by simp) Bool.false_ne_true
  | some text => exact iff_of_true ⟨text, rfl⟩ rfl

/-- The command returns, and the exit code decides about its success. -/
def DecidedByExitCode (cmd : Str) (keepPid loginShell : Bool) (r : HandlerCtx) (s : HandlerState) (code : Int) :
    Prop :=
  ∃ success output s', runCommand cmd false keepPid loginShell r s = (.done (success, output), s') ∧
    (success = true ↔ code = 0)

theorem decidedByExitCode_iff
    (hcheck : r.host.checkOutput s.tick (shellArgs cmd loginShell) = .ok (code, raw)) :
    DecidedByExitCode cmd keepPid loginShell r s code ↔ (decodeUtf8 raw).isSome = true := by
  rw [← decode_eq_ok_iff]
  constructor
  · rintro ⟨success, output, s', hrun, -⟩
    cases hdecode : decode raw with
    | ok text => exact ⟨text, rfl⟩
    | error e =>
        rw [runCommand_undecodable hcheck hdecode] at hrun
        cases hrun
  · rintro ⟨text, hdecode⟩
    exact ⟨_, _, _, runCommand_decoded hcheck hdecode, commandResult_flag⟩

end Command

/-! ## The functions that run a command in the foreground -/

/-- `run_and_report` and `execute_script`: the output is the reply. -/
def reportOutput (result : Bool × Str) : Handler Unit :=
  if result.1 then ok (some result.2) else failed (some result.2)

def reportListing (hooks : BssHooks) (host : Host) (result : Bool × Str) : Handler Unit :=
  if result.1 then do
    let listing ← ofExcept (parseStatusListing hooks host result.2)
    ok (some listing)
  else failed (some result.2)

def reportSubmission (hooks : BssHooks) (result : Bool × Str) : Handler Unit := send (verdict hooks false result)

/-- The files of a submission are written: the command that submits them. -/
def writeSubmission (msg uspaceDir : Str) (cmds : List Str) (config : Settings) : Handler Str := do
  let submitId ← consult fun h t => h.randomString t
  let userjobFile := "UNICORE_Job_".toList ++ submitId
  Io.writeText userjobFile msg
  addperms userjobFile 0o770
  let cmds := cmds ++ [uspaceDir ++ "/".toList ++ userjobFile]
  let submitFile := "bss_submit_".toList ++ submitId
  Io.writeText submitFile (unlines cmds)
  addperms submitFile 0o770
  let submitCmd ← ofExcept (configured "tsi.submit_cmd" config.submitCmd)
  return submitCmd ++ " ./".toList ++ submitFile

/-- What `submit` does before the command, for a message whose variables are expanded; `none` if the request is
refused, or the command runs in the background. -/
def beforeSubmission (hooks : BssHooks) (msg : Str) (config : Settings) : Handler (Option Str) := do
  let uspaceDir ← ofExcept (pathArg (extractParameter msg "USPACE_DIR".toList))
  sysCall (.chdir uspaceDir)
  match ← scriptOrRefusal hooks msg (jobMode msg) config with
  | .error _ => return none
  | .ok cmds =>
      if isAlloc msg then return none
      else
        let cmd ← writeSubmission msg uspaceDir cmds config
        return some cmd

theorem runSubmission_eq (msg uspaceDir : Str) (cmds : List Str) (config : Settings) :
    runSubmission msg uspaceDir false cmds config = (do
      let cmd ← writeSubmission msg uspaceDir cmds config
      runCommand cmd false false config.useLoginShell) := by
  unfold runSubmission writeSubmission
  simp only [bind_assoc, pure_bind, Bool.false_eq_true, if_false]

/-- The submission from the command on. -/
theorem submit_from_command {hooks : BssHooks} {raw msg cmd : Str} {config : Settings} {r : HandlerCtx}
    {s s₁ : HandlerState} (hmsg : expandVariables r.environ raw = msg)
    (h : beforeSubmission hooks msg config r s = (.done (some cmd), s₁)) :
    submit hooks raw config r s =
      (runCommand cmd false false config.useLoginShell >>= reportSubmission hooks) r s₁ := by
  obtain ⟨uspaceDir, s₂, hdir, h⟩ := bind_eq_done.mp h
  obtain ⟨⟨⟩, s₃, hchdir, h⟩ := bind_eq_done.mp h
  obtain ⟨script, s₄, hscript, h⟩ := bind_eq_done.mp h
  rw [submit_eq, hmsg, submission, bind_assoc, bind_run_done hdir, bind_assoc, bind_run_done hchdir, bind_assoc,
    bind_run_done hscript]
  cases script with
  | error text => cases h
  | ok cmds =>
      dsimp only at h ⊢
      cases halloc : isAlloc msg with
      | true =>
          rw [halloc, if_pos rfl] at h
          cases h
      | false =>
          rw [halloc, if_neg Bool.false_ne_true] at h
          obtain ⟨cmd', s₅, hwrite, h⟩ := bind_eq_done.mp h
          obtain ⟨hcmd, rfl⟩ := Prod.mk.inj h
          obtain rfl := Option.some.inj (Outcome.done.inj hcmd)
          rw [runSubmission_eq, bind_assoc, bind_assoc, bind_run_done hwrite]
          simp only [pure_bind]
          rfl

/-- The function `x` comes from state `s` to a command in the foreground, starts it in state `s₁`, and goes on with
its result as `k` says. -/
inductive ComesTo (hooks : BssHooks) (config : Settings) (r : HandlerCtx) :
    Handler Unit → HandlerState → Str → Bool → HandlerState → (Bool × Str → Handler Unit) → Prop where
  | executeScript {msg : Str} (s : HandlerState) (hkeep : contains "#TSI_DISCARD_OUTPUT true\n".toList msg = false) :
      ComesTo hooks config r (Tsi.executeScript msg config) s msg config.useLoginShell s reportOutput
  | getStatusListing (msg : Str) (s : HandlerState) :
      ComesTo hooks config r (getStatusListing hooks msg config) s config.qstatCmd true s
        (reportListing hooks r.host)
  | abortJob {msg cmd : Str} (s : HandlerState)
      (hcmd : formatOne (optText (extractParameter msg "BSSID".toList)) true config.abortCmd = .ok cmd) :
      ComesTo hooks config r (abortJob msg config) s cmd config.useLoginShell s reportOutput
  | holdJob {msg bssid command : Str} (s : HandlerState) (hid : extractParameter msg "BSSID".toList = some bssid)
      (hcommand : config.holdCmd = some command) :
      ComesTo hooks config r (holdJob msg config) s (command ++ " ".toList ++ bssid) config.useLoginShell s
        reportOutput
  | resumeJob {msg bssid command : Str} (s : HandlerState) (hid : extractParameter msg "BSSID".toList = some bssid)
      (hcommand : config.resumeCmd = some command) :
      ComesTo hooks config r (resumeJob msg config) s (command ++ " ".toList ++ bssid) config.useLoginShell s
        reportOutput
  | submit {raw msg cmd : Str} {s s₁ : HandlerState} (hmsg : expandVariables r.environ raw = msg)
      (hcmd : beforeSubmission hooks msg config r s = (.done (some cmd), s₁)) :
      ComesTo hooks config r (submit hooks raw config) s cmd config.useLoginShell s₁ (reportSubmission hooks)

section Handlers

variable {hooks : BssHooks} {config : Settings} {r : HandlerCtx} {x : Handler Unit} {s s₁ : HandlerState}
  {cmd : Str} {loginShell : Bool} {k : Bool × Str → Handler Unit} {raw : List UInt8}

theorem controlJob_run {key : String} {command bssid msg : Str} {configured : Option Str}
    (hid : extractParameter msg "BSSID".toList = some bssid) (hcommand : configured = some command) :
    controlJob key configured msg config r s =
      (runCommand (command ++ " ".toList ++ bssid) false false config.useLoginShell >>= reportOutput) r s := by
  rw [controlJob, hid, hcommand]
  rfl

theorem ComesTo.run (h : ComesTo hooks config r x s cmd loginShell s₁ k) :
    ∃ keepPid, x r s = (runCommand cmd false keepPid loginShell >>= k) r s₁ := by
  cases h with
  | executeScript s hkeep =>
      refine ⟨true, ?_⟩
      rw [Tsi.executeScript, hkeep]
      rfl
  | getStatusListing msg s =>
      refine ⟨false, ?_⟩
      rw [BssCommon.getStatusListing, bind_run_done ask_run]
      rfl
  | abortJob s hcmd =>
      refine ⟨false, ?_⟩
      rw [BssCommon.abortJob, hcmd]
      rfl
  | holdJob s hid hcommand => exact ⟨false, controlJob_run hid hcommand⟩
  | resumeJob s hid hcommand => exact ⟨false, controlJob_run hid hcommand⟩
  | submit hmsg hcmd => exact ⟨false, submit_from_command hmsg hcmd⟩

/-- The function ends with the exception that the decoding of the bytes raised; `handle_function` answers with
TSI_FAILED and its text. -/
def FailsByBytes (x : Handler Unit) (r : HandlerCtx) (s : HandlerState) (raw : List UInt8) : Prop :=
  ∃ e, decode raw = .error e ∧ (x r s).1 = .raised e

/-- After a command that exited with 0 the function goes on as after a success. -/
def GoesOn (x : Handler Unit) (r : HandlerCtx) (s : HandlerState) (cmd : Str) (loginShell : Bool)
    (s₁ : HandlerState) (k : Bool × Str → Handler Unit) : Prop :=
  ∃ output, x r s = k (true, output) r (ran (shellArgs cmd loginShell) s₁)

theorem ComesTo.decoded (h : ComesTo hooks config r x s cmd loginShell s₁ k)
    (hcheck : r.host.checkOutput s₁.tick (shellArgs cmd loginShell) = .ok (0, raw)) {output : Str}
    (hdecode : decode raw = .ok output) : x r s = k (true, output) r (ran (shellArgs cmd loginShell) s₁) := by
  obtain ⟨keepPid, hrun⟩ := h.run
  rw [hrun, bind_run_done (runCommand_decoded hcheck hdecode)]
  rfl

theorem ComesTo.undecodable (h : ComesTo hooks config r x s cmd loginShell s₁ k)
    (hcheck : r.host.checkOutput s₁.tick (shellArgs cmd loginShell) = .ok (0, raw)) {e : PyExc}
    (hdecode : decode raw = .error e) : x r s = (.raised e, ran (shellArgs cmd loginShell) s₁) := by
  obtain ⟨keepPid, hrun⟩ := h.run
  rw [hrun, bind_run_raised (runCommand_undecodable hcheck hdecode)]

theorem ComesTo.goesOn_iff (h : ComesTo hooks config r x s cmd loginShell s₁ k)
    (hcheck : r.host.checkOutput s₁.tick (shellArgs cmd loginShell) = .ok (0, raw)) :
    (GoesOn x r s cmd loginShell s₁ k ∧ ¬ FailsByBytes x r s raw) ↔ (decodeUtf8 raw).isSome = true := by
  rw [← decode_eq_ok_iff]
  constructor
  · rintro ⟨-, hnot⟩
    cases hdecode : decode raw with
    | ok text => exact ⟨text, rfl⟩
    | error e =>
        refine absurd ⟨e, hdecode, ?_⟩ hnot
        rw [h.undecodable hcheck hdecode]
  · rintro ⟨text, hdecode⟩
    refine ⟨⟨text, h.decoded hcheck hdecode⟩, ?_⟩
    rintro ⟨e, hraised, -⟩
    rw [hdecode] at hraised
    cases hraised

end Handlers

/-- A host on which every command exits with 0 and prints these bytes. -/
def printing (raw : List UInt8) : HandlerCtx :=
  ⟨{ Acl.plainHost with checkOutput := fun _ _ => .ok (0, raw) }, ⟨none, none, none⟩, 10⟩

end UnicoreTsi.BssCommon
