/-
# UnicoreTsi.PamSessions — requests that are served by a forked child.

With PAM sessions a command that starts processes of the user is handled in a child of the worker, so that parent
and child run the same code on the same channels.  `handleFunctionProg` and `processProg` are `handle_function`
and the loop of `process` as programs of processes that fork and wait (`UnicoreTsi.Lib.Processes`); every piece of
code may end with an exception wherever it can in the source.  The result is about all interleavings
(`sessions_ordered`): the child stays out of the loop, the parent out of the work of the child, and what the child
does for a request lies between the reading of this request and the parent's `ENDOFMESSAGE` for it.  It follows that
the sequential model of `UnicoreTsi.Tsi`, in which a child runs to its end at the fork, has all that the processes
can do together (`process_of_runs`).
-/
import UnicoreTsi.Lib.Processes
import UnicoreTsi.Tsi

set_option autoImplicit false

namespace UnicoreTsi.Tsi

open UnicoreTsi.Text UnicoreTsi.Effects UnicoreTsi.Steps UnicoreTsi.Processes UnicoreTsi.Utils UnicoreTsi.Connector
open UnicoreTsi.BecomeUser UnicoreTsi.BssCommon

/-! ## The code as a program of processes -/

/-- The pieces of the code. -/
inductive Label where
  | cleanup
  | readMessage
  | closeConnector
  | prepare
  | chdir
  | unknownCommand
  | ping
  | fork
  | waitpid
  | enter
  | tryBlock (command : Str)
  | failed
  | restoreId
  | closeSession
  | endOfMessage
  deriving DecidableEq, Repr

/-- A program of the worker; the only value that one of its pieces hands on is a message. -/
abbrev WorkerProg (α : Type) := Prog WorkerCtx Worker PyExc (Option Str) Label α

/-- A piece of code without a value. -/
def perform (label : Label) (x : WorkerM Unit) : WorkerProg (Option Str) :=
  .call label do
    x
    return none

/-- What a process has to itself. -/
structure Own where
  cred : Cred
  environ : Environ
  childPids : List Int
  pamSession : Bool

def ownLocals : Locals Worker Own where
  get w := { cred := w.cred, environ := w.environ, childPids := w.io.childPids, pamSession := w.pamSession }
  set own w := { w with
    io := { w.io with childPids := own.childPids }
    cred := own.cred
    environ := own.environ
    pamSession := own.pamSession }

section Code

variable (function : Function) (command msg : Str) (config : Settings)

/-- The end of `handle_function`. -/
def finishProg (openUserSession : Bool) : WorkerProg Unit := do
  if config.switchUid && command ≠ startForwarding then
    let _ ← perform .restoreId (restoreId config)
    if openUserSession then
      let _ ← perform .closeSession closeSession
      .exit
    else
      return ()
  else if openUserSession then
    .exit
  else
    return ()

/-- `handle_function` after the decision to fork. -/
def runFunctionProg (openUserSession : Bool) : WorkerProg Unit := do
  let _ ← perform .enter (modify fun w => { w with pamSession := false })
  let _ ← (perform (.tryBlock command) (attemptFunction function command msg openUserSession config)).catching
    fun e => perform .failed (runHandler (failed (some e.text)))
  finishProg command config openUserSession

def handleFunctionProg : WorkerProg Unit := do
  let openUserSession := userSession command config
  if openUserSession && command ≠ startForwarding then
    let _ ← perform .fork (runHandler (sysCall .fork))
    let child ← Prog.forking
    if child then
      runFunctionProg function command msg config openUserSession
    else
      Prog.waiting
      let _ ← perform .waitpid (runHandler (sysCall .waitChild))
  else
    runFunctionProg function command msg config openUserSession

end Code

/-- Answer one message, without the final `ENDOFMESSAGE`. -/
def answerProg (functions : List (Str × Function)) (message : Str) (config : Settings) : WorkerProg Unit :=
  match findCommand functions message with
  | none => do
      let _ ← perform .unknownCommand (runHandler (failed (some unknownCommand)))
  | some (command, function) =>
      if command = "TSI_PING".toList then do
        let _ ← perform .ping (runHandler (ping message config))
      else
        handleFunctionProg function command message config

/-- What `process` does with a message. -/
def processMessageProg (functions : List (Str × Function)) (message : Str) (config : Settings) : WorkerProg Unit := do
  let _ ← perform .chdir (runHandler (sysCall (.chdir config.safeDir)))
  answerProg functions message config
  let _ ← perform .endOfMessage (runHandler (writeMessage endOfMessage))

/-- The loop of `process`, for a number of rounds. -/
def processProg (functions : List (Str × Function)) (config : Settings) (oneShot : Bool) : ℕ → WorkerProg Unit
  | 0 => .stuck
  | fuel + 1 => do
      let _ ← perform .cleanup (runHandler cleanup)
      let message ← Prog.call .readMessage nextMessage
      match message with
      | none =>
          let _ ← perform .closeConnector (modify fun w => { w with closed := true })
      | some message =>
          let _ ← perform .prepare peerPrepares
          processMessageProg functions message config
          if !(oneShot || config.testing) then
            processProg functions config oneShot fuel

/-! ## What the processes may do -/

/-- Between two messages, or with one at hand. -/
inductive Phase where
  | idle
  | busy
  deriving DecidableEq, Repr

/-- With PAM sessions the parent reads a message, answers it and writes `ENDOFMESSAGE` by turns, and leaves
spawning commands to a child; a child runs one command. -/
def sessionDiscipline : Discipline Label Phase where
  move
    | .idle, .cleanup => some .idle
    | .idle, .readMessage => some .busy
    | .busy, .endOfMessage => some .idle
    | .busy, .tryBlock command => if command ∈ spawningCommands then none else some .busy
    | .busy, .closeConnector => some .busy
    | .busy, .prepare => some .busy
    | .busy, .chdir => some .busy
    | .busy, .unknownCommand => some .busy
    | .busy, .ping => some .busy
    | .busy, .fork => some .busy
    | .busy, .waitpid => some .busy
    | .busy, .enter => some .busy
    | .busy, .failed => some .busy
    | .busy, .restoreId => some .busy
    | _, _ => none
  forks phase := phase = .busy
  inChild
    | .enter | .tryBlock _ | .failed | .restoreId | .closeSession => true
    | _ => false

section Keeps

variable {function : Function} {command msg : Str} {config : Settings}

/-- The phase in which a piece of the parent returns, whatever its value is. -/
def ReturnsIn {α : Type} (phase : Phase) : α → Phase → Prop := fun _ phase' => phase' = phase

/-- A piece of the parent with what follows it. -/
theorem obeys_call_bind {α : Type} {Q : α → Phase → Prop} {label : Label} {phase phase' : Phase}
    (h : sessionDiscipline.move phase label = some phase') (x : WorkerM (Option Str)) {f : Option Str → WorkerProg α}
    (hf : ∀ b, Obeys sessionDiscipline Q false phase' (f b)) :
    Obeys sessionDiscipline Q false phase (.call label x >>= f) := by
  refine (Obeys.call (Q := ReturnsIn phase') h (fun _ => rfl) x).bind ?_
  rintro b _ rfl
  exact hf b

/-- The child ends when it has run the function, whatever has been raised on the way. -/
theorem runFunctionProg_leaves : Leaves sessionDiscipline (runFunctionProg function command msg config true) := by
  refine (Stays.call rfl _).leaves_bind fun _ => ?_
  refine ((Stays.call rfl _).catching fun e => Stays.call rfl _).leaves_bind fun _ => ?_
  unfold finishProg
  split
  · refine (Stays.call rfl _).leaves_bind fun _ => ?_
    exact (Stays.call rfl _).leaves_bind fun _ => trivial
  · trivial

/-- Without a session the parent runs the function itself. -/
theorem runFunctionProg_obeys (hcommand : command ∉ spawningCommands) :
    Obeys sessionDiscipline (ReturnsIn .busy) false .busy (runFunctionProg function command msg config false) := by
  have htry : sessionDiscipline.move .busy (.tryBlock command) = some .busy := if_neg hcommand
  refine obeys_call_bind rfl _ fun _ => ?_
  refine (Obeys.catching_call (Q := ReturnsIn .busy) htry (fun _ => rfl) (fun e => ?_) _).bind ?_
  · have hfailed : sessionDiscipline.move .busy .failed = some .busy := rfl
    exact Obeys.call (Q := ReturnsIn .busy) hfailed (fun _ => rfl) _
  · rintro _ _ rfl
    unfold finishProg
    split
    · exact obeys_call_bind rfl _ fun _ => rfl
    · rfl

/-- A spawning command is left to a child. -/
theorem handleFunctionProg_obeys (hswitch : config.switchUid = true) (hsessions : config.openUserSessions = true) :
    Obeys sessionDiscipline (ReturnsIn .busy) false .busy (handleFunctionProg function command msg config) := by
  by_cases hcommand : command ∈ spawningCommands
  · have hsession : userSession command config = true := by simp [userSession, hswitch, hsessions, hcommand]
    have hnot : command ≠ startForwarding := by
      rintro rfl
      exact absurd hcommand (by decide)
    rw [handleFunctionProg, hsession, if_pos (by simpa using hnot)]
    refine obeys_call_bind rfl _ fun _ => ?_
    refine ⟨rfl, runFunctionProg_leaves, ?_⟩
    show Obeys sessionDiscipline (ReturnsIn .busy) false .busy
      (perform .waitpid (runHandler (sysCall .waitChild)) >>= fun _ => pure ())
    exact obeys_call_bind rfl _ fun _ => rfl
  · have hsession : userSession command config = false := by simp [userSession, hcommand]
    rw [handleFunctionProg, hsession, if_neg (by simp)]
    exact runFunctionProg_obeys hcommand

theorem answerProg_obeys (functions : List (Str × Function)) (hswitch : config.switchUid = true)
    (hsessions : config.openUserSessions = true) :
    Obeys sessionDiscipline (ReturnsIn .busy) false .busy (answerProg functions msg config) := by
  unfold answerProg
  split
  · exact obeys_call_bind rfl _ fun _ => rfl
  · split
    · exact obeys_call_bind rfl _ fun _ => rfl
    · exact handleFunctionProg_obeys hswitch hsessions

theorem processMessageProg_obeys (functions : List (Str × Function)) (hswitch : config.switchUid = true)
    (hsessions : config.openUserSessions = true) :
    Obeys sessionDiscipline (ReturnsIn .idle) false .busy (processMessageProg functions msg config) := by
  refine obeys_call_bind rfl _ fun _ => (answerProg_obeys functions hswitch hsessions).bind ?_
  rintro _ _ rfl
  exact obeys_call_bind rfl _ fun _ => rfl

theorem processProg_obeys (functions : List (Str × Function)) (hswitch : config.switchUid = true)
    (hsessions : config.openUserSessions = true) (oneShot : Bool) (fuel : ℕ) :
    Obeys sessionDiscipline (fun _ _ => True) false .idle (processProg functions config oneShot fuel) := by
  induction fuel with
  | zero => trivial
  | succ fuel ih =>
      refine obeys_call_bind rfl _ fun _ => obeys_call_bind rfl _ fun message => ?_
      cases message with
      | none => exact obeys_call_bind rfl _ fun _ => trivial
      | some message =>
          refine obeys_call_bind rfl _ fun _ => (processMessageProg_obeys functions hswitch hsessions).bind ?_
          rintro _ _ rfl
          split
          · exact ih
          · trivial

end Keeps

/-! ## What has been done, and by whom -/

abbrev Trace := List (ℕ × Event Label)

/-- How many messages the parent has tried to read. -/
def reads (t : Trace) : ℕ := t.countP (· = (0, .did .readMessage))

/-- How often the parent has written `ENDOFMESSAGE`. -/
def ends (t : Trace) : ℕ := t.countP (· = (0, .did .endOfMessage))

/-- The command loop is single and ordered. -/
structure Ordered (t : Trace) : Prop where
  /-- A child neither reads a message nor writes the `ENDOFMESSAGE` of the loop. -/
  child_out_of_loop : ∀ c label, c ≠ 0 → (c, .did label) ∈ t → label ≠ .readMessage ∧ label ≠ .endOfMessage
  /-- The parent neither assumes an identity nor runs the function for a spawning command. -/
  parent_out_of_child : ∀ command, (0, .did (.tryBlock command)) ∈ t → command ∉ spawningCommands
  /-- What a child does follows its fork with nothing of another process between, and the fork lies between the
  reading of a request and the `ENDOFMESSAGE` for it. -/
  child_in_request : ∀ pre c e post, t = pre ++ (c, e) :: post → c ≠ 0 → ∃ front own,
    pre = front ++ (0, .forked c) :: own ∧ (∀ x ∈ own, x.1 = c) ∧ reads front = ends front + 1
  /-- A message is read when all before it have been answered. -/
  read_in_turn : ∀ pre post, t = pre ++ (0, .did .readMessage) :: post → reads pre = ends pre
  /-- `ENDOFMESSAGE` is written for the message that was read last. -/
  end_in_turn : ∀ pre post, t = pre ++ (0, .did .endOfMessage) :: post → reads pre = ends pre + 1

theorem countP_append_ne {t : Trace} {x y : ℕ × Event Label} (h : y ≠ x) :
    (t ++ [y]).countP (· = x) = t.countP (· = x) := by
  rw [List.countP_append, List.countP_singleton, if_neg (by simpa using h), Nat.add_zero]

theorem countP_append_self {t : Trace} {x : ℕ × Event Label} : (t ++ [x]).countP (· = x) = t.countP (· = x) + 1 := by
  rw [List.countP_append, List.countP_singleton, if_pos (by simp)]

/-- The phase of the parent says whether there is a message to be answered. -/
theorem reads_of_tidy {t : Trace} {phase : Phase} {waitsFor : Option ℕ}
    (h : Tidy sessionDiscipline .idle t phase waitsFor) :
    reads t = ends t + (if phase = .busy then 1 else 0) := by
  induction h with
  | start => rfl
  | @root t phase phase' label ht hmove ih =>
      unfold reads ends at ih ⊢
      by_cases hread : label = .readMessage
      · subst hread
        cases phase with
        | busy => cases hmove
        | idle =>
            obtain rfl := Option.some.inj hmove
            rw [countP_append_self, countP_append_ne (by decide), ih]
            rfl
      · by_cases hend : label = .endOfMessage
        · subst hend
          cases phase with
          | idle => cases hmove
          | busy =>
              obtain rfl := Option.some.inj hmove
              rw [countP_append_self, countP_append_ne (by decide), ih]
              rfl
        · have hphase : phase' = phase := by
            cases phase <;> cases label <;> simp_all [sessionDiscipline]
          rw [countP_append_ne (by simpa using hread), countP_append_ne (by simpa using hend), ih, hphase]
  | fork ht hforks hne ih =>
      unfold reads ends at ih ⊢
      rw [countP_append_ne (by simp), countP_append_ne (by simp), ih]
  | @child t phase c label ht hlabel ih =>
      have hne := (ht.waiting rfl).1
      unfold reads ends at ih ⊢
      rw [countP_append_ne (by simp [hne]), countP_append_ne (by simp [hne]), ih]
  | wait ht ih => exact ih

theorem ordered_of_tidy {t : Trace} {phase : Phase} {waitsFor : Option ℕ}
    (h : Tidy sessionDiscipline .idle t phase waitsFor) : Ordered t where
  child_out_of_loop c label hc hmem := by
    obtain ⟨pre, post, hsplit⟩ := List.append_of_mem hmem
    rcases h.entry hsplit with ⟨_, _, _, hx, -⟩ | ⟨_, _, hx, -⟩ | ⟨_, _, label', hx, -, hchild⟩
    · exact absurd (congrArg Prod.fst hx) hc
    · exact absurd (congrArg Prod.fst hx) hc
    · obtain ⟨-, hdid⟩ := Prod.mk.inj hx
      obtain rfl := Event.did.inj hdid
      constructor
      · rintro rfl
        cases hchild
      · rintro rfl
        cases hchild
  parent_out_of_child command hmem := by
    obtain ⟨pre, post, hsplit⟩ := List.append_of_mem hmem
    rcases h.entry hsplit with ⟨phase₁, _, _, hx, -, hmove⟩ | ⟨_, _, hx, -⟩ | ⟨_, c, _, hx, hwaits, -⟩
    · obtain rfl := Event.did.inj (congrArg Prod.snd hx)
      intro hspawning
      cases phase₁ with
      | idle => cases hmove
      | busy =>
          have hnone : sessionDiscipline.move .busy (.tryBlock command) = none := if_pos hspawning
          rw [hnone] at hmove
          cases hmove
    · cases congrArg Prod.snd hx
    · exact absurd (congrArg Prod.fst hx).symm (hwaits.waiting rfl).1
  child_in_request pre c e post hsplit hc := by
    rcases h.entry hsplit with ⟨_, _, _, hx, -⟩ | ⟨_, _, hx, -⟩ | ⟨phase₁, c', _, hx, hwaits, -⟩
    · exact absurd (congrArg Prod.fst hx) hc
    · exact absurd (congrArg Prod.fst hx) hc
    · obtain rfl : c = c' := congrArg Prod.fst hx
      obtain ⟨-, front, own, hpre, hown, hfront, hforks⟩ := hwaits.waiting rfl
      have hbusy : phase₁ = .busy := by simpa [sessionDiscipline] using hforks
      have hreads := reads_of_tidy hfront
      rw [if_pos hbusy] at hreads
      exact ⟨front, own, hpre, hown, hreads⟩
  read_in_turn pre post hsplit := by
    rcases h.entry hsplit with ⟨phase₁, _, _, hx, hbefore, hmove⟩ | ⟨_, _, hx, -⟩ | ⟨_, c, _, hx, hwaits, -⟩
    · obtain rfl := Event.did.inj (congrArg Prod.snd hx)
      cases phase₁ with
      | idle => exact reads_of_tidy hbefore
      | busy => cases hmove
    · cases congrArg Prod.snd hx
    · exact absurd (congrArg Prod.fst hx).symm (hwaits.waiting rfl).1
  end_in_turn pre post hsplit := by
    rcases h.entry hsplit with ⟨phase₁, _, _, hx, hbefore, hmove⟩ | ⟨_, _, hx, -⟩ | ⟨_, c, _, hx, hwaits, -⟩
    · obtain rfl := Event.did.inj (congrArg Prod.snd hx)
      cases phase₁ with
      | idle => cases hmove
      | busy => exact reads_of_tidy hbefore
    · cases congrArg Prod.snd hx
    · exact absurd (congrArg Prod.fst hx).symm (hwaits.waiting rfl).1

/-- **Requests under PAM sessions.**  In every interleaving of the parent and its children, whatever the requests
are and whatever goes wrong in a child. -/
theorem sessions_ordered {functions : List (Str × Function)} {config : Settings} (hswitch : config.switchUid = true)
    (hsessions : config.openUserSessions = true) {oneShot : Bool} {fuel : ℕ} {r : WorkerCtx} {w : Worker}
    {steps : List (System WorkerCtx Worker PyExc (Option Str) Label Own × ℕ)}
    {sys : System WorkerCtx Worker PyExc (Option Str) Label Own}
    (hruns : Runs (next ownLocals r) (start ownLocals w (processProg functions config oneShot fuel)) steps sys) :
    Ordered sys.trace := by
  obtain ⟨phase, waitsFor, h⟩ := tidy_of_runs (processProg_obeys functions hswitch hsessions oneShot fuel) hruns
  exact ordered_of_tidy h

/-! ## The sequential reading -/

section Sequential

variable {function : Function} {command msg : Str} {config : Settings}

theorem ownLocals_lawful : ownLocals.Lawful where
  get_set _ _ := rfl
  set_get _ := rfl
  set_set _ _ _ := rfl

theorem run_perform_bind {α : Type} (label : Label) (x : WorkerM Unit) (f : Option Str → WorkerProg α) :
    (perform label x >>= f).run ownLocals = x >>= fun _ => (f none).run ownLocals := by
  rw [perform, Prog.run_call_bind, bind_assoc]
  rfl

theorem finishProg_run (openUserSession : Bool) :
    (finishProg command config openUserSession).run ownLocals =
      (if config.switchUid && command ≠ startForwarding then do
        restoreId config
        if openUserSession then
          closeSession
      else pure ()) >>= fun _ => pure (if openUserSession then none else some ()) := by
  unfold finishProg
  split
  · rw [run_perform_bind]
    cases openUserSession with
    | true => rw [if_pos rfl, run_perform_bind, if_pos rfl, if_pos rfl, bind_assoc]; rfl
    | false => rw [bind_assoc]; rfl
  · cases openUserSession <;> rfl

theorem runFunctionProg_run (openUserSession : Bool) :
    (runFunctionProg function command msg config openUserSession).run ownLocals =
      runFunction function command msg openUserSession config >>= fun _ =>
        pure (if openUserSession then none else some ()) := by
  have htry : ((perform (.tryBlock command) (attemptFunction function command msg openUserSession config)).catching
      (fun e => perform .failed (runHandler (failed (some e.text)))) >>= fun _ =>
        finishProg command config openUserSession).run ownLocals =
      handle (attemptFunction function command msg openUserSession config)
        (fun e => runHandler (failed (some e.text))) >>= fun _ =>
          (finishProg command config openUserSession).run ownLocals := by
    funext r w
    rw [perform, Prog.run_catching_bind, bind_run, handle]
    dsimp only
    rw [bind_run]
    rcases attemptFunction function command msg openUserSession config r w with ⟨a | e | _, w'⟩
    · rfl
    · dsimp only
      rw [run_perform_bind]
      rfl
    · rfl
  rw [runFunctionProg, run_perform_bind, htry, finishProg_run, runFunction, bind_assoc, bind_assoc]

/-- Running the child at the fork and waiting for it is one step of the parent. -/
theorem handleFunctionProg_run :
    (handleFunctionProg function command msg config).run ownLocals =
      handleFunction function command msg config >>= fun _ => pure (some ()) := by
  unfold handleFunctionProg handleFunction
  dsimp only
  split
  · rename_i hsession
    have hopen : userSession command config = true := (Bool.and_eq_true_iff.mp hsession).1
    have hchild : (Prog.forking >>= fun child =>
        if child then runFunctionProg function command msg config (userSession command config)
        else do
          Prog.waiting
          let _ ← perform .waitpid (runHandler (sysCall .waitChild))).run ownLocals =
        inChild (runFunction function command msg (userSession command config) config) >>= fun _ =>
          runHandler (sysCall .waitChild) >>= fun _ => pure (some ()) := by
      funext r w
      show whenEnded (ownLocals.set (ownLocals.get w))
        ((runFunctionProg function command msg config (userSession command config)).run ownLocals r w)
        ((perform .waitpid (runHandler (sysCall .waitChild)) >>= fun _ => pure ()).run ownLocals r) = _
      rw [runFunctionProg_run, run_perform_bind, bind_run, bind_run, inChild]
      rcases runFunction function command msg (userSession command config) config r w with ⟨a | e | _, w'⟩ <;> rfl
    rw [run_perform_bind, hchild, bind_assoc, bind_assoc]
  · rename_i hsession
    have hclosed : userSession command config = false := by
      by_contra hopen
      have hspawns : command ∈ spawningCommands := by
        simp only [userSession, Bool.not_eq_false, Bool.and_eq_true, decide_eq_true_eq] at hopen
        exact hopen.1.2
      have hnot : command ≠ startForwarding := by
        rintro rfl
        exact absurd hspawns (by decide)
      exact hsession (Bool.and_eq_true_iff.mpr ⟨by simpa using hopen, by simpa using hnot⟩)
    rw [runFunctionProg_run, hclosed]
    rfl

theorem answerProg_run (functions : List (Str × Function)) :
    (answerProg functions msg config).run ownLocals = answer functions msg config >>= fun _ => pure (some ()) := by
  unfold answerProg answer
  cases findCommand functions msg with
  | none =>
      dsimp only
      rw [run_perform_bind]
      rfl
  | some entry =>
      dsimp only
      split
      · rw [run_perform_bind]
        rfl
      · exact handleFunctionProg_run

theorem processMessageProg_run (functions : List (Str × Function)) (hswitch : config.switchUid = true)
    (hsessions : config.openUserSessions = true) :
    (processMessageProg functions msg config).run ownLocals =
      processMessage functions msg config >>= fun _ => pure (some ()) := by
  have hanswer : Obeys _ _ _ _ (answerProg functions msg config) := answerProg_obeys functions hswitch hsessions
  rw [processMessageProg, run_perform_bind, Prog.run_bind hanswer, answerProg_run, processMessage, bind_assoc,
    bind_assoc, bind_assoc]
  refine congrArg _ (funext fun _ => congrArg _ (funext fun _ => ?_))
  rw [pure_bind, run_perform_bind]
  rfl

/-- The program of the processes computes what the loop of `process` does in the model of a single process. -/
theorem processProg_run (functions : List (Str × Function)) (hswitch : config.switchUid = true)
    (hsessions : config.openUserSessions = true) (oneShot : Bool) (fuel : ℕ) :
    (processProg functions config oneShot fuel).run ownLocals =
      process functions config oneShot fuel >>= fun _ => pure (some ()) := by
  induction fuel with
  | zero => rfl
  | succ fuel ih =>
      rw [processProg, run_perform_bind, process, round, bind_assoc, bind_assoc]
      refine congrArg _ (funext fun _ => ?_)
      rw [Prog.run_call_bind, bind_assoc]
      refine congrArg _ (funext fun message => ?_)
      cases message with
      | none =>
          rw [run_perform_bind, bind_assoc]
          rfl
      | some message =>
          have hmessage : Obeys _ _ _ _ (processMessageProg functions message config) :=
            processMessageProg_obeys functions hswitch hsessions
          rw [run_perform_bind, Prog.run_bind hmessage, processMessageProg_run functions hswitch hsessions, bind_assoc,
            bind_assoc]
          refine congrArg _ (funext fun _ => ?_)
          rw [bind_assoc]
          refine congrArg _ (funext fun _ => ?_)
          rw [pure_bind, pure_bind]
          dsimp only
          split
          · exact ih
          · rfl

/-- In whatever order parent and children have run, when the parent has ended they have done together what the
loop of `process` does. -/
theorem process_of_runs {functions : List (Str × Function)} (hswitch : config.switchUid = true)
    (hsessions : config.openUserSessions = true) {oneShot : Bool} {fuel : ℕ} {r : WorkerCtx} {w : Worker}
    {steps : List (System WorkerCtx Worker PyExc (Option Str) Label Own × ℕ)}
    {sys : System WorkerCtx Worker PyExc (Option Str) Label Own}
    (hruns : Runs (next ownLocals r) (start ownLocals w (processProg functions config oneShot fuel)) steps sys)
    {parent : Process WorkerCtx Worker PyExc (Option Str) Label Own} (hparent : sys.procs[0]? = some parent)
    (hended : parent.prog.ended = true) :
    (process functions config oneShot fuel >>= fun _ => pure (some ())) r w =
      (parent.prog.result, ownLocals.set parent.locals sys.world) := by
  rw [← processProg_run functions hswitch hsessions]
  exact run_of_runs ownLocals_lawful (processProg_obeys functions hswitch hsessions oneShot fuel) hruns hparent hended

end Sequential

/-- A worker that is sent a script without an identity line. -/
def nobodyScript : Worker :=
  .fresh ["#TSI_EXECUTESCRIPT\n".toList, "date\n".toList, "ENDOFMESSAGE\n".toList]

def sessionConfig : Settings := { openUserSessions := true }

/-- The processes that take the steps: the parent, the child up to its end, the parent again. -/
def sessionSchedule : List ℕ := [0, 0, 0, 0, 0, 0, 1, 1, 1, 1, 1, 0, 0, 0, 0]

theorem sessions_ordered_nobodyScript :
    ∃ steps sys, Runs (next ownLocals { host := calmHost UserDb.empty.cache, fuel := 0 })
        (start ownLocals nobodyScript (processProg (initFunctions BssNobatch.nobatch) sessionConfig false 2)) steps sys ∧
      sys.trace = [(0, .did .cleanup), (0, .did .readMessage), (0, .did .prepare), (0, .did .chdir), (0, .did .fork),
        (0, .forked 1), (1, .did .enter), (1, .did (.tryBlock "TSI_EXECUTESCRIPT".toList)), (1, .did .failed),
        (1, .did .restoreId), (1, .did .closeSession), (0, .did .waitpid), (0, .did .endOfMessage),
        (0, .did .cleanup)] ∧
      Ordered sys.trace := by
  have htrace : (trace (next ownLocals { host := calmHost UserDb.empty.cache, fuel := 0 })
      (start ownLocals nobodyScript (processProg (initFunctions BssNobatch.nobatch) sessionConfig false 2))
      sessionSchedule).map (fun p => p.2.trace) =
    some [(0, .did .cleanup), (0, .did .readMessage), (0, .did .prepare), (0, .did .chdir), (0, .did .fork),
      (0, .forked 1), (1, .did .enter), (1, .did (.tryBlock "TSI_EXECUTESCRIPT".toList)), (1, .did .failed),
      (1, .did .restoreId), (1, .did .closeSession), (0, .did .waitpid), (0, .did .endOfMessage),
      (0, .did .cleanup)] := by
    decide +kernel
  obtain ⟨⟨steps, sys⟩, hrun, hsys⟩ := Option.map_eq_some_iff.mp htrace
  have hruns := runs_of_trace hrun
  exact ⟨steps, sys, hruns, hsys, sessions_ordered rfl rfl hruns⟩

end UnicoreTsi.Tsi
