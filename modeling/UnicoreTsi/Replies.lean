/-
# UnicoreTsi.Replies — what the functions of the command table write on the control channel.

`replies` is the ledger of the connector calls a handler makes; the calls that count are the ones that
report a status, and a state whose channel is broken is excused.  Every function of the table but four
answers with exactly one status or raises before it has reported any (`Answers`).  The two chunk transfers
are not judged here, and for `ls` and `processAcl` the number is computed from the message and the host's
answers (`lsStatuses`, `aclStatuses`).
-/
import UnicoreTsi.Tsi

set_option autoImplicit false

namespace UnicoreTsi.Replies

open UnicoreTsi.Text UnicoreTsi.Effects UnicoreTsi.Effects.Ledger UnicoreTsi.Utils UnicoreTsi.Connector

/-- The calls of the connector; `ok` and `failed` count. -/
def replies : Ledger HandlerState ConnCall where
  log s := s.calls
  counts := ConnCall.isStatus
  excused s := s.broken = true

/-- A handler that reports one status, or raises before it has reported any. -/
abbrev Answers (x : Handler Unit) : Prop := replies.Totals 1 x

/-! ## The connector -/

/-- A change of the state that leaves the control channel alone. -/
theorem silent_modify {f : HandlerState → HandlerState} (hcalls : ∀ s, (f s).calls = s.calls)
    (hbroken : ∀ s, (f s).broken = s.broken) : replies.Silent (modify f : Handler Unit) := by
  intro r s
  apply Books.unchanged
  · exact hcalls s
  · intro (h : s.broken = true)
    show (f s).broken = true
    rw [hbroken, h]

theorem silent_of_ticks {α : Type} {x : Handler α} (hx : Within Ticks x) : replies.Silent x := by
  refine within_mono ?_ hx
  rintro s _ ⟨n, rfl⟩
  exact Books.unchanged rfl id

theorem consult_silent {α : Type} (f : Host → Nat → α) : replies.Silent (consult f) :=
  silent_of_ticks (consult_ticks f)

theorem attempt_silent {α : Type} (f : Host → Nat → Except PyExc α) : replies.Silent (attempt f) :=
  silent_of_ticks (attempt_ticks f)

theorem sysCall_silent (c : SysCall) : replies.Silent (sysCall c) := silent_of_ticks (sysCall_ticks c)

/-- A writing call logs itself; it raises only when the channel is broken. -/
theorem send_sends (c : ConnCall) : replies.Sends ([c].countP ConnCall.isStatus) (send c) := by
  intro r s
  rw [send_run]
  split
  · -- the channel is gone
    show replies.Books (· + 1 = 0) s _
    exact ⟨[c], rfl, fun _ => rfl, Or.inl rfl⟩
  · show replies.Books (· = [c].countP ConnCall.isStatus) s _
    refine ⟨[c], acknowledge_calls c _, ?_, Or.inr rfl⟩
    intro (h : s.broken = true)
    exact (acknowledge_broken c _).trans h

theorem ok_sends (m : Option Str) : replies.Sends 1 (ok m) := send_sends (.ok m)

theorem failed_sends (m : Option Str) : replies.Sends 1 (failed m) := send_sends (.failed m)

theorem writeMessage_sends (m : Str) : replies.Sends 0 (writeMessage m) := send_sends (.message m)

theorem ok_answers (m : Option Str) : Answers (ok m) := (ok_sends m).totals

theorem failed_answers (m : Option Str) : Answers (failed m) := (failed_sends m).totals

theorem writeMessage_silent (m : Str) : replies.Silent (writeMessage m) := by
  intro r s
  show replies.Books (· = 0) s (send (.message m) r s).2
  rw [send_run]
  split
  · exact ⟨[.message m], rfl, fun _ => rfl, Or.inl rfl⟩
  · exact ⟨[.message m], rfl, id, Or.inr rfl⟩

/-- Two ways to answer. -/
theorem answers_ite {c : Prop} [Decidable c] {x y : Handler Unit} (hx : Answers x) (hy : Answers y) :
    Answers (if c then x else y) := by
  split
  · exact hx
  · exact hy

/-! ## Helpers that write nothing -/

theorem runCommand_silent (cmd : Str) (discard keepPid loginShell : Bool) :
    replies.Silent (runCommand cmd discard keepPid loginShell) := by
  unfold runCommand logCommand
  refine within_bind (silent_modify (fun _ => rfl) fun _ => rfl) ?_
  intro _
  split
  · refine within_bind (attempt_silent _) ?_
    intro pid
    split
    · exact within_bind (silent_modify (fun _ => rfl) fun _ => rfl) fun _ => within_pure _
    · exact within_pure _
  · refine within_bind (attempt_silent _) ?_
    rintro ⟨code, raw⟩
    refine within_bind (within_ofExcept _) ?_
    intro output
    split
    · exact within_pure _
    · exact within_pure _

theorem addperms_silent (path : Str) (mode : Nat) : replies.Silent (addperms path mode) :=
  within_bind (attempt_silent _) fun _ => sysCall_silent _

theorem withFile_silent {α : Type} (path mode : Str) {body : Handler α} (hbody : replies.Silent body) :
    replies.Silent (Io.withFile path mode body) := by
  refine within_bind (sysCall_silent _) ?_
  intro _
  refine within_bind (within_handle hbody fun e => ?_) ?_
  · exact within_bind (sysCall_silent _) fun _ => within_raise e
  · exact fun _ => within_bind (sysCall_silent _) fun _ => within_pure _

theorem writeText_silent (path content : Str) : replies.Silent (Io.writeText path content) :=
  withFile_silent path _ (silent_modify (fun _ => rfl) fun _ => rfl)

theorem caught_silent {α : Type} {x : Handler α} (hx : replies.Silent x) :
    replies.Silent (Tsi.caught x) :=
  within_handle (within_bind hx fun _ => within_pure _) fun _ => within_pure _

/-! ## The functions of the module `TSI` -/

theorem ping_answers (msg : Str) (config : Settings) : Answers (Tsi.ping msg config) := ok_answers _

theorem pingUid_answers (msg : Str) (config : Settings) : Answers (Tsi.pingUid msg config) :=
  totals_bind_sends (ok_sends _) fun _ => (writeMessage_sends _).totals

theorem readKeyfiles_silent (home : Str) (keyfiles : List Str) (info : Tsi.UserInfo) :
    replies.Silent (Tsi.readKeyfiles home keyfiles info) := by
  induction keyfiles generalizing info with
  | nil => exact within_pure _
  | cons keyfile rest ih =>
      unfold Tsi.readKeyfiles
      refine within_bind (caught_silent (sysCall_silent _)) ?_
      intro opened
      cases opened with
      | error e => exact ih _
      | ok u =>
          refine within_bind (caught_silent (attempt_silent _)) ?_
          intro text
          cases text with
          | error e => exact ih _
          | ok text => exact ih _

theorem queryCommand_silent (what : String) (cmd : Option Str)
    (add : List Str → Tsi.UserInfo → Tsi.UserInfo) (config : Settings) (info : Tsi.UserInfo) :
    replies.Silent (Tsi.queryCommand what cmd add config info) := by
  cases cmd with
  | none => exact within_pure _
  | some cmd =>
      refine within_bind (caught_silent (runCommand_silent _ _ _ _)) ?_
      rintro (e | ⟨success, out⟩)
      · exact within_pure _
      · cases success <;> exact within_pure _

theorem getUserInfo_answers (msg : Str) (config : Settings) : Answers (Tsi.getUserInfo msg config) := by
  unfold Tsi.getUserInfo
  split
  · exact failed_answers _
  · rename_i user groups _
    refine totals_bind_silent (attempt_silent _) ?_
    intro home
    cases home with
    | none => exact totals_raise _
    | some home =>
        refine totals_bind_silent (readKeyfiles_silent _ _ _) ?_
        intro info
        refine totals_bind_silent (queryCommand_silent _ _ _ _ _) ?_
        intro info
        refine totals_bind_silent (queryCommand_silent _ _ _ _ _) ?_
        exact fun info => ok_answers _

theorem executeScript_answers (msg : Str) (config : Settings) : Answers (Tsi.executeScript msg config) := by
  refine totals_bind_silent (runCommand_silent _ _ _ _) ?_
  rintro ⟨success, output⟩
  exact answers_ite (ok_answers _) (failed_answers _)

/-! ## Running a command and reporting -/

theorem runAndReport_answers (cmd : Str) (loginShell : Bool) : Answers (runAndReport cmd loginShell) := by
  refine totals_bind_silent (runCommand_silent _ _ _ _) ?_
  rintro ⟨success, output⟩
  exact answers_ite (ok_answers _) (failed_answers _)

theorem uftp_answers (msg : Str) (config : Settings) : Answers (Uftp.uftp msg config) := by
  refine totals_bind_silent within_ask ?_
  intro r
  refine totals_bind_silent (within_ofExcept _) ?_
  intro cmd
  refine totals_bind_silent (runCommand_silent _ _ _ _) ?_
  rintro ⟨success, reply⟩
  exact answers_ite (ok_answers _) (failed_answers _)

theorem df_answers (msg : Str) (config : Settings) : Answers (Io.df msg config) := by
  refine totals_bind_silent within_ask ?_
  intro r
  refine totals_bind_silent (within_ofExcept _) ?_
  intro path
  refine totals_bind_silent (runCommand_silent _ _ _ _) ?_
  rintro ⟨success, result⟩
  refine answers_ite ?_ (failed_answers _)
  refine totals_bind_sends (n := 0) (ok_sends _) fun _ => Sends.totals ?_
  refine sends_bind (m := 0) (n := 0) (writeMessage_sends _) fun _ => ?_
  refine sends_bind (m := 0) (n := 0) (writeMessage_sends _) fun _ => ?_
  exact sends_bind (m := 0) (n := 0) (writeMessage_sends _) fun _ => writeMessage_sends _

/-! ## The functions of the batch system -/

section Bss

open UnicoreTsi.BssCommon

variable (hooks : BssHooks) (msg : Str) (config : Settings)

/-- What `submit_commands` has reported by the time it returns. -/
def reported (cmds : Option (List Str)) : Nat := if cmds.isNone then 1 else 0

theorem refused_owes (m : Option Str) :
    replies.Owes 1 reported (failed m >>= fun _ => (pure none : Handler (Option (List Str)))) := by
  intro r s
  refine owed_bind (failed_answers m r s) ?_
  intro _ s' _
  refine ⟨0, fun _ => 0, owes_pure none rfl r s', Or.inl rfl, ?_⟩
  intro b s'' h
  obtain rfl : none = b := Outcome.done.inj (congrArg Prod.fst h)
  rfl

theorem scripted_owes {α : Type} {x : Handler α} (hx : replies.Silent x) (script : α → List Str) :
    replies.Owes 1 reported (x >>= fun a => pure (some (script a))) := by
  intro r s
  refine owed_bind (hx.owes r s) ?_
  intro a s' _
  refine ⟨0, fun _ => 0, owes_pure (some (script a)) rfl r s', Or.inl rfl, ?_⟩
  intro b s'' h
  obtain rfl : some (script a) = b := Outcome.done.inj (congrArg Prod.fst h)
  rfl

/-- The script is there and nothing is reported yet, or the request has been answered. -/
theorem submitCommands_owes (jobMode : Str) :
    replies.Owes 1 reported (submitCommands hooks msg jobMode config) := by
  unfold submitCommands
  split
  · exact scripted_owes (within_ofExcept _) id
  · split
    · split
      · exact refused_owes _
      · exact scripted_owes (attempt_silent _) fun text => [text]
    · split
      · split
        · exact owes_pure _ rfl
        · exact refused_owes _
      · exact refused_owes _

theorem runSubmission_silent (uspaceDir : Str) (isAlloc : Bool) (cmds : List Str) :
    replies.Silent (runSubmission msg uspaceDir isAlloc cmds config) := by
  refine within_bind (consult_silent _) ?_
  intro submitId
  split
  · exact within_bind (writeText_silent _ _) fun _ => runCommand_silent _ _ _ _
  · refine within_bind (writeText_silent _ _) fun _ => ?_
    refine within_bind (addperms_silent _ _) fun _ => ?_
    refine within_bind (writeText_silent _ _) fun _ => ?_
    refine within_bind (addperms_silent _ _) fun _ => ?_
    exact within_bind (within_ofExcept _) fun _ => runCommand_silent _ _ _ _

theorem submit_answers : Answers (submit hooks msg config) := by
  refine totals_bind_silent within_ask fun r => ?_
  refine totals_bind_silent (within_ofExcept _) fun uspaceDir => ?_
  refine totals_bind_silent (sysCall_silent _) fun _ => ?_
  intro ctx s
  refine owed_bind (submitCommands_owes hooks _ config _ ctx s) ?_
  intro cmds s' hcmds
  cases cmds with
  | none => exact ⟨0, fun _ => 0, owes_pure () rfl ctx s', Or.inl rfl, fun _ _ _ => rfl⟩
  | some cmds =>
      -- nothing is reported yet
      refine ⟨1, fun _ => 1, ?_, Or.inr rfl, fun _ _ _ => rfl⟩
      clear hcmds
      revert ctx s'
      refine totals_bind_silent (runSubmission_silent _ _ _ _ _) ?_
      rintro ⟨success, reply⟩
      refine answers_ite (failed_answers _) (answers_ite (ok_answers _) ?_)
      split
      · exact ok_answers _
      · exact failed_answers _

theorem makeDir_silent (path : Str) : replies.Silent (makeDir path) := by
  refine within_bind (consult_silent _) fun found => ?_
  split
  · exact sysCall_silent _
  · exact within_pure _

theorem makeOutcomeDir_silent (path : Str) : replies.Silent (makeOutcomeDir path) := by
  refine within_bind (consult_silent _) fun found => ?_
  split
  · exact within_bind (sysCall_silent _) fun _ => addperms_silent _ _
  · exact within_pure _

theorem nobatchSubmit_answers : Answers (BssNobatch.submit msg config) := by
  refine totals_bind_silent within_ask fun r => ?_
  refine totals_bind_silent (within_ofExcept _) fun timeoutcmd => ?_
  refine totals_bind_silent (within_ofExcept _) fun uspaceDir => ?_
  refine totals_bind_silent (sysCall_silent _) fun _ => ?_
  refine totals_bind_silent (within_ofExcept _) fun outcomeDir => ?_
  refine totals_bind_silent (makeDir_silent _) fun _ => ?_
  refine totals_bind_silent (addperms_silent _ _) fun _ => ?_
  refine totals_bind_silent (consult_silent _) fun pid => ?_
  refine totals_bind_silent (consult_silent _) fun millis => ?_
  refine totals_bind_silent (writeText_silent _ _) fun _ => ?_
  refine totals_bind_silent (addperms_silent _ _) fun _ => ?_
  refine totals_bind_silent (silent_modify (fun _ => rfl) fun _ => rfl) fun _ => ?_
  refine totals_bind_silent (attempt_silent _) fun child => ?_
  refine totals_bind_silent (silent_modify (fun _ => rfl) fun _ => rfl) fun _ => ?_
  exact ok_answers _

theorem runOnLoginNode_answers : Answers (runOnLoginNode msg config) := by
  refine totals_bind_silent within_ask fun r => ?_
  refine totals_bind_silent (within_ofExcept _) fun uspaceDir => ?_
  refine totals_bind_silent (sysCall_silent _) fun _ => ?_
  refine totals_bind_silent (within_ofExcept _) fun outcomeDir => ?_
  refine totals_bind_silent (makeOutcomeDir_silent _) fun _ => ?_
  refine totals_bind_silent (consult_silent _) fun submitId => ?_
  refine totals_bind_silent (writeText_silent _ _) fun _ => ?_
  refine totals_bind_silent (addperms_silent _ _) fun _ => ?_
  refine totals_bind_silent (runCommand_silent _ _ _ _) ?_
  rintro ⟨success, reply⟩
  refine answers_ite ?_ (failed_answers _)
  refine totals_bind_silent within_get fun s => ?_
  split
  · exact ok_answers _
  · exact totals_raise _

/-- Run a command, then turn its output into the reply. -/
theorem parsed_answers {α : Type} (cmd : Str) (parse : Str → Except PyExc α) (reply : α → Str) :
    Answers (do
      let (success, output) ← runCommand cmd false false true
      if success then
        let result ← ofExcept (parse output)
        ok (some (reply result))
      else
        failed (some output)) := by
  refine totals_bind_silent (runCommand_silent _ _ _ _) ?_
  rintro ⟨success, output⟩
  exact answers_ite (totals_bind_silent (within_ofExcept _) fun _ => ok_answers _) (failed_answers _)

theorem getStatusListing_answers : Answers (getStatusListing hooks msg config) :=
  totals_bind_silent within_ask fun r => parsed_answers _ (parseStatusListing hooks r.host) id

theorem getProcessListing_answers : Answers (getProcessListing msg config) := runAndReport_answers _ _

theorem getJobDetails_answers : Answers (getJobDetails hooks msg config) := by
  refine totals_bind_silent (within_ofExcept _) fun detailsCmd => ?_
  refine totals_bind_silent (within_ofExcept _) fun cmd => ?_
  exact parsed_answers _ hooks.parseJobDetails fun result => jsonDumps result ++ "\n".toList

theorem getPartitions_answers : Answers (getPartitions hooks msg config) :=
  parsed_answers _ hooks.parsePartitions fun result => jsonDumps result ++ "\n".toList

theorem abortJob_answers : Answers (abortJob msg config) :=
  totals_bind_silent (within_ofExcept _) fun _ => runAndReport_answers _ _

theorem controlJob_answers (key : String) (command : Option Str) :
    Answers (controlJob key command msg config) := by
  refine totals_bind_silent (within_ofExcept _) fun command => ?_
  exact totals_bind_silent (within_ofExcept _) fun cmd => runAndReport_answers _ _

/-- Every function of a batch system answers. -/
structure BssAnswers (bss : Bss) : Prop where
  submit : ∀ msg config, Answers (bss.submit msg config)
  runOnLoginNode : ∀ msg config, Answers (bss.runOnLoginNode msg config)
  getStatusListing : ∀ msg config, Answers (bss.getStatusListing msg config)
  getProcessListing : ∀ msg config, Answers (bss.getProcessListing msg config)
  getJobDetails : ∀ msg config, Answers (bss.getJobDetails msg config)
  getPartitions : ∀ msg config, Answers (bss.getPartitions msg config)
  abortJob : ∀ msg config, Answers (bss.abortJob msg config)
  holdJob : ∀ msg config, Answers (bss.holdJob msg config)
  resumeJob : ∀ msg config, Answers (bss.resumeJob msg config)
  getBudget : ∀ msg config, Answers (bss.getBudget msg config)

theorem base_answers : BssAnswers (base hooks) where
  submit := submit_answers hooks
  runOnLoginNode := runOnLoginNode_answers
  getStatusListing := getStatusListing_answers hooks
  getProcessListing := getProcessListing_answers
  getJobDetails := getJobDetails_answers hooks
  getPartitions := getPartitions_answers hooks
  abortJob := abortJob_answers
  holdJob msg config := controlJob_answers msg config "tsi.hold_cmd" config.holdCmd
  resumeJob msg config := controlJob_answers msg config "tsi.resume_cmd" config.resumeCmd
  getBudget _ _ := ok_answers _

theorem nobatch_answers : BssAnswers BssNobatch.nobatch :=
  { base_answers BssNobatch.nobatchHooks with
    submit := nobatchSubmit_answers
    getJobDetails := fun _ _ => ok_answers _
    holdJob := fun _ _ => ok_answers _
    resumeJob := fun _ _ => ok_answers _ }

end Bss

/-! ## Access control lists -/

section Acl

open UnicoreTsi.Acl

variable (config : Settings)

/-- The kind of ACL `check_support` finds for a path, when the answer at `t` is the next. -/
def support (host : Host) (t : Nat) (path : Option Str) (acl : List (Str × Str)) : Except PyExc Str := do
  let path ← pathArg path
  if path.head? = some '/' then
    bestMatch host path acl 0 "NONE".toList
  else
    match host.sysCall t .getcwd with
    | none => bestMatch host path acl 0 "NONE".toList
    | some e => .error e

theorem checkSupport_run (path : Option Str) (acl : List (Str × Str)) (r : HandlerCtx)
    (s : HandlerState) :
    ∃ n, checkSupport path acl r s =
      (Outcome.ofExcept (support r.host s.tick path acl), { s with tick := n }) := by
  have hfind : ∀ (path : Str) (s : HandlerState),
      (ask >>= fun r : HandlerCtx => ofExcept (bestMatch r.host path acl 0 "NONE".toList) : Handler Str) r s =
        (Outcome.ofExcept (bestMatch r.host path acl 0 "NONE".toList), s) := by
    intro path s
    rw [bind_run_done ask_run]
    cases bestMatch r.host path acl 0 "NONE".toList <;> rfl
  unfold checkSupport
  cases path with
  | none => exact ⟨s.tick, rfl⟩
  | some path =>
      rw [bind_run_done (show (ofExcept (pathArg (some path)) : Handler Str) r s = (.done path, s) from rfl)]
      by_cases habs : path.head? = some '/'
      · refine ⟨s.tick, ?_⟩
        have hsupport : support r.host s.tick (some path) acl = bestMatch r.host path acl 0 "NONE".toList :=
          if_pos habs
        rw [hsupport, ← hfind path s]
        simp only [habs, ne_eq, not_true_eq_false, if_false]
      · refine ⟨s.tick + 1, ?_⟩
        have hsupport : support r.host s.tick (some path) acl = match r.host.sysCall s.tick .getcwd with
            | none => bestMatch r.host path acl 0 "NONE".toList
            | some e => .error e := if_neg habs
        simp only [habs, ne_eq, not_false_eq_true, if_true]
        rw [hsupport]
        cases hcwd : r.host.sysCall s.tick .getcwd with
        | none => rw [bind_run_done (by rw [sysCall_run, hcwd]), hfind]
        | some e => exact bind_run_raised (by rw [sysCall_run, hcwd])

theorem writeLines_sends (lines : List Str) : replies.Sends 0 (writeLines lines) := by
  induction lines with
  | nil => exact owes_pure () rfl
  | cons line rest ih =>
      unfold writeLines
      split
      · exact sends_bind (m := 0) (n := 0) (writeMessage_sends line) fun _ => ih
      · exact ih

theorem getfaclPosix_answers (path : Str) : Answers (getfaclPosix path config) := by
  refine totals_bind_silent (runCommand_silent _ _ _ _) ?_
  rintro ⟨success, result⟩
  refine answers_ite ?_ (failed_answers _)
  exact totals_bind_sends (ok_sends _) fun _ => (writeLines_sends _).totals

theorem runSetfacl_answers (command : Str) : Answers (runSetfacl command config) := by
  refine totals_bind_silent (runCommand_silent _ _ _ _) ?_
  rintro ⟨success, result⟩
  exact answers_ite (ok_answers _) (failed_answers _)

theorem setfaclPosix_answers (path : Str) (op val : Option Str) :
    Answers (setfaclPosix path op val config) := by
  refine totals_bind_silent (within_ofExcept _) fun isRecursive => ?_
  refine totals_bind_silent (within_ofExcept _) fun rmAll => ?_
  refine answers_ite (runSetfacl_answers config _) ?_
  refine totals_bind_silent (within_ofExcept _) fun val => ?_
  refine totals_bind_silent (within_ofExcept _) fun modify => ?_
  refine totals_bind_silent (within_ofExcept _) fun rm => ?_
  refine answers_ite (failed_answers _) ?_
  exact totals_bind_silent (within_ofExcept _) fun arg => runSetfacl_answers config _

/-- Whether a parameter is missing, as a number. -/
def missing (value : Option Str) : Nat := if value = none then 1 else 0

theorem reportMissing_sends (value : Option Str) (name : String) :
    replies.Sends (missing value) (reportMissing value name) := by
  unfold reportMissing missing
  split
  · exact failed_sends _
  · exact owes_pure () rfl

/-- The NFS functions are empty; everything else answers. -/
def answered (kind : Str) : Nat := if kind = "NFS".toList then 0 else 1

theorem answered_posix {kind : Str} (h : kind = "POSIX".toList) : answered kind = 1 := by
  rw [h]
  rfl

theorem getAcl_totals (kind : Str) (path : Option Str) :
    replies.Totals (answered kind) (getAcl kind path config) := by
  unfold getAcl
  split
  · rename_i hposix
    rw [answered_posix hposix]
    exact getfaclPosix_answers config _
  · unfold answered
    split
    · exact owes_pure () rfl
    · exact failed_answers _

theorem setAcl_totals (kind : Str) (path command commandSpec : Option Str) :
    replies.Totals (missing commandSpec + (missing command + answered kind))
      (setAcl kind path command commandSpec config) := by
  refine totals_bind_sends (reportMissing_sends _ _) fun _ => ?_
  refine totals_bind_sends (reportMissing_sends _ _) fun _ => ?_
  split
  · rename_i hposix
    rw [answered_posix hposix]
    exact setfaclPosix_answers config _ _ _
  · unfold answered
    split
    · exact owes_pure () rfl
    · exact failed_answers _

/-- The statuses `process_acl` reports for a path with this kind of ACL. -/
def aclStatusesOn (msg kind : Str) : Nat :=
  let operation := extractParameter msg "ACL_OPERATION".toList
  if operation = some "GETFACL".toList then answered kind
  else if operation = some "SETFACL".toList then
    missing (extractParameter msg "ACL_COMMAND_SPEC".toList) +
      (missing (extractParameter msg "ACL_COMMAND".toList) + answered kind)
  else 1

/-- The number of statuses `process_acl` reports, an exception counting as one. -/
def aclStatuses (msg : Str) (config : Settings) (host : Host) (t : Nat) : Nat :=
  match support host t (extractParameter msg "ACL_PATH".toList) config.acl with
  | .error _ => 1
  | .ok kind => aclStatusesOn msg kind

/-- After `check_support`, what remains is owed by the rest; an exception owes one. -/
theorem checkSupport_bind_owed {path : Option Str} {acl : List (Str × Str)} {f : Str → Handler Unit}
    {t : Str → Nat} (hf : ∀ kind, replies.Totals (t kind) (f kind)) (r : HandlerCtx) (s : HandlerState) :
    let owed := match support r.host s.tick path acl with
      | .error _ => 1
      | .ok kind => t kind
    replies.Owed owed (fun _ => owed) s ((checkSupport path acl >>= f) r s) := by
  obtain ⟨n, hrun⟩ := checkSupport_run path acl r s
  have hticks : replies.Books (· = 0) s { s with tick := n } := Books.unchanged rfl id
  cases hkind : support r.host s.tick path acl with
  | error e =>
      rw [hkind] at hrun
      rw [bind_run_raised hrun]
      exact hticks.mono fun c hc => congrArg (· + 1) hc
  | ok kind =>
      rw [hkind] at hrun
      show replies.Owed (t kind) (fun _ => t kind) s _
      have hcheck : replies.Owed (t kind) (fun _ => 0) s (checkSupport path acl r s) := by
        rw [hrun]
        exact hticks
      refine owed_bind hcheck ?_
      intro kind' s' h
      rw [hrun] at h
      obtain rfl : kind = kind' := Outcome.done.inj (congrArg Prod.fst h)
      exact ⟨t kind, fun _ => t kind, hf kind r s', Or.inr (Nat.zero_add _), fun _ _ _ => Nat.zero_add _⟩

theorem aclStatusesOn_other {msg : Str} {op : Option Str}
    (hop : extractParameter msg "ACL_OPERATION".toList = op) (hget : op ≠ some "GETFACL".toList)
    (hset : op ≠ some "SETFACL".toList) (kind : Str) : aclStatusesOn msg kind = 1 := by
  subst hop
  exact (if_neg hget).trans (if_neg hset)

theorem aclStatusesOn_set {msg : Str} (hop : extractParameter msg "ACL_OPERATION".toList = some "SETFACL".toList)
    (kind : Str) :
    aclStatusesOn msg kind = missing (extractParameter msg "ACL_COMMAND_SPEC".toList) +
      (missing (extractParameter msg "ACL_COMMAND".toList) + answered kind) := by
  have hget : extractParameter msg "ACL_OPERATION".toList ≠ some "GETFACL".toList := by
    rw [hop]
    decide
  exact (if_neg hget).trans (if_pos hop)

theorem processAcl_owed (msg : Str) (r : HandlerCtx) (s : HandlerState) :
    replies.Owed (aclStatuses msg config r.host s.tick) (fun _ => aclStatuses msg config r.host s.tick) s
      (processAcl msg config r s) := by
  unfold processAcl
  split
  · rename_i hop
    refine checkSupport_bind_owed (t := aclStatusesOn msg) (fun kind => ?_) r s
    rw [aclStatusesOn_other hop (by decide) (by decide)]
    exact answers_ite (ok_answers _) (ok_answers _)
  · split
    · rename_i hop
      refine checkSupport_bind_owed (t := aclStatusesOn msg) (fun kind => ?_) r s
      rw [show aclStatusesOn msg kind = answered kind from if_pos hop]
      exact getAcl_totals config kind _
    · split
      · rename_i hop
        refine checkSupport_bind_owed (t := aclStatusesOn msg) (fun kind => ?_) r s
        rw [aclStatusesOn_set hop]
        exact setAcl_totals config kind _ _ _
      · rename_i hget hset
        have hone : aclStatuses msg config r.host s.tick = 1 := by
          unfold aclStatuses
          split
          · rfl
          · exact aclStatusesOn_other rfl hget hset _
        rw [hone]
        exact failed_answers _ r s

/-- The kind of ACL and the parameters are such that `process_acl` reports one status: reading one needs a
kind other than NFS, and so does changing one, with both parameters given; on NFS a missing parameter is the
only thing reported. -/
def AclAnswered (msg : Str) (config : Settings) (host : Host) (t : Nat) : Prop :=
  ∀ kind, support host t (extractParameter msg "ACL_PATH".toList) config.acl = .ok kind →
    (extractParameter msg "ACL_OPERATION".toList = some "GETFACL".toList → kind ≠ "NFS".toList) ∧
    (extractParameter msg "ACL_OPERATION".toList = some "SETFACL".toList →
      if kind = "NFS".toList then
        (extractParameter msg "ACL_COMMAND_SPEC".toList = none ↔
          extractParameter msg "ACL_COMMAND".toList ≠ none)
      else extractParameter msg "ACL_COMMAND_SPEC".toList ≠ none ∧
        extractParameter msg "ACL_COMMAND".toList ≠ none)

theorem answered_eq_one_iff (kind : Str) : answered kind = 1 ↔ kind ≠ "NFS".toList := by
  unfold answered
  split
  · rename_i hnfs
    exact iff_of_false Nat.zero_ne_one (not_not.mpr hnfs)
  · rename_i hnfs
    exact iff_of_true rfl hnfs

/-- A change reports each missing parameter and, unless the kind is NFS, what came of it. -/
theorem setStatuses_eq_one_iff (spec command : Option Str) (kind : Str) :
    missing spec + (missing command + answered kind) = 1 ↔
      if kind = "NFS".toList then (spec = none ↔ command ≠ none) else spec ≠ none ∧ command ≠ none := by
  have hmissing : ∀ value : Option Str, missing value = if value.isNone then 1 else 0 := by
    rintro (_ | value) <;> rfl
  rw [hmissing, hmissing, answered]
  by_cases hnfs : kind = "NFS".toList
  · rw [if_pos hnfs, if_pos hnfs]
    cases spec <;> cases command <;> simp
  · rw [if_neg hnfs, if_neg hnfs]
    cases spec <;> cases command <;> simp

theorem aclStatuses_eq_one_iff (msg : Str) (config : Settings) (host : Host) (t : Nat) :
    aclStatuses msg config host t = 1 ↔ AclAnswered msg config host t := by
  have hdistinct : some "GETFACL".toList ≠ some "SETFACL".toList := by decide
  unfold aclStatuses AclAnswered
  cases hkind : support host t (extractParameter msg "ACL_PATH".toList) config.acl with
  | error e => exact iff_of_true rfl nofun
  | ok kind =>
      have hokay : ∀ {P : Str → Prop},
          (∀ k, (.ok kind : Except PyExc Str) = .ok k → P k) ↔ P kind :=
        ⟨fun h => h kind rfl, fun h k hk => Except.ok.inj hk ▸ h⟩
      rw [hokay]
      by_cases hget : extractParameter msg "ACL_OPERATION".toList = some "GETFACL".toList
      · have hset : extractParameter msg "ACL_OPERATION".toList ≠ some "SETFACL".toList := hget ▸ hdistinct
        have hstatuses : aclStatusesOn msg kind = answered kind := if_pos hget
        show aclStatusesOn msg kind = 1 ↔ _
        rw [hstatuses, answered_eq_one_iff]
        exact ⟨fun h => ⟨fun _ => h, fun hop => absurd hop hset⟩, fun h => h.1 hget⟩
      · by_cases hset : extractParameter msg "ACL_OPERATION".toList = some "SETFACL".toList
        · show aclStatusesOn msg kind = 1 ↔ _
          rw [aclStatusesOn_set hset, setStatuses_eq_one_iff]
          exact ⟨fun h => ⟨fun hop => absurd hop hget, fun _ => h⟩, fun h => h.2 hset⟩
        · refine iff_of_true (aclStatusesOn_other rfl hget hset kind) ?_
          exact ⟨fun hop => absurd hop hget, fun hop => absurd hop hset⟩

end Acl

/-! ## Listings -/

section Ls

open UnicoreTsi.Io

/-- The run ends with an exception that `except OSError` does not catch. -/
def Escapes {α : Type} (o : Outcome PyExc α × HandlerState) : Prop :=
  ∃ e, o.1 = .raised e ∧ e.isOSError = false

/-- The answer is an exception that `except OSError` does not catch. -/
def Uncaught {α : Type} (answer : Except PyExc α) : Prop := ∃ e, answer = .error e ∧ e.isOSError = false

/-- Among the answers `get_info` takes from `t` on is an exception other than an `OSError`: a user or a
group without an entry is a `KeyError`. -/
def InfoFault (host : Host) (t : Nat) (path : Str) : Prop :=
  Uncaught (host.stat t path) ∨ ∃ info, host.stat t path = .ok info ∧
    (Uncaught (host.getpwuid (t + 5) info.uid) ∨
      (∃ user, host.getpwuid (t + 5) info.uid = .ok user) ∧ Uncaught (host.getgrgid (t + 6) info.gid))

/-- An `attempt` in front: its exception escapes, or what follows a success does. -/
theorem escapes_attempt {α β : Type} (f : Host → Nat → Except PyExc α) (g : α → Handler β)
    (r : HandlerCtx) (s : HandlerState) :
    Escapes ((attempt f >>= g) r s) ↔ Uncaught (f r.host s.tick) ∨
      ∃ a, f r.host s.tick = .ok a ∧ Escapes (g a r { s with tick := s.tick + 1 }) := by
  have hrun := attempt_run f r s
  cases hf : f r.host s.tick with
  | error e =>
      rw [hf] at hrun
      rw [bind_run_raised hrun]
      simp [Escapes, Uncaught]
  | ok a =>
      rw [hf] at hrun
      rw [bind_run_done hrun]
      simp [Escapes, Uncaught]

theorem getInfo_escapes_iff (path : Str) (r : HandlerCtx) (s : HandlerState) :
    Escapes (getInfo path r s) ↔ InfoFault r.host s.tick path := by
  unfold getInfo InfoFault
  rw [escapes_attempt]
  refine or_congr_right (exists_congr fun info => and_congr_right fun _ => ?_)
  simp only [bind_run_done (consult_run _ _ _)]
  rw [escapes_attempt]
  refine or_congr_right ?_
  rw [← exists_and_right]
  refine exists_congr fun user => and_congr_right fun _ => ?_
  rw [escapes_attempt]
  refine or_iff_left ?_
  rintro ⟨group, -, e, he, -⟩
  cases he

theorem not_escapes_send (c : ConnCall) (r : HandlerCtx) (s : HandlerState) :
    ¬ Escapes (send c r s) := by
  rw [send_run]
  split
  · rintro ⟨e, he, hos⟩
    obtain rfl : brokenPipe = e := Outcome.raised.inj he
    cases hos
  · rintro ⟨e, he, -⟩
    cases he

/-- What escapes from a sequence whose second part lets nothing escape. -/
theorem escapes_bind_left {α β : Type} {x : Handler α} {g : α → Handler β}
    (hg : ∀ a r s, ¬ Escapes (g a r s)) (r : HandlerCtx) (s : HandlerState) :
    Escapes ((x >>= g) r s) ↔ Escapes (x r s) := by
  rw [bind_run]
  rcases x r s with ⟨a | e | _, s'⟩
  · exact iff_of_false (hg a r s') fun ⟨_, he, _⟩ => by cases he
  · constructor
    · rintro ⟨e', he, hos⟩
      exact ⟨e', congrArg Outcome.raised (Outcome.raised.inj he), hos⟩
    · rintro ⟨e', he, hos⟩
      exact ⟨e', congrArg Outcome.raised (Outcome.raised.inj he), hos⟩
  · exact iff_of_false (fun ⟨_, he, _⟩ => by cases he) fun ⟨_, he, _⟩ => by cases he

/-- The state in which `list_directory` starts to list the directory of a request taken up in `s`. -/
def listingStarted (s : HandlerState) : HandlerState :=
  { s with tick := s.tick + 3, calls := s.calls ++ [.ok (some "START_LISTING".toList)] }

/-- The request is for an existing path, and the listing of it meets an exception other than an `OSError`:
in `list_directory` for the entries of a directory, else in `get_info`. -/
def ListFault (msg : Str) (r : HandlerCtx) (s : HandlerState) : Prop :=
  ∃ path mode, expandVariablesOpt r.environ (extractParameter msg "FILE".toList) = .ok path ∧
    extractParameter msg "LS_MODE".toList = some mode ∧
    mode ∈ ["R".toList, "A".toList, "N".toList] ∧ r.host.pathExists (s.tick + 1) path = true ∧
    if r.host.isdir (s.tick + 2) path = true ∧ mode ≠ "A".toList then
      Escapes (listDirectory r.host.recursionLimit path (decide (mode = "R".toList)) r (listingStarted s))
    else InfoFault r.host (s.tick + 3) path

theorem listing_escapes_iff (path : Str) (asSingleFile recurse : Bool) (r : HandlerCtx)
    (s : HandlerState) :
    Escapes (listing path asSingleFile recurse r s) ↔
      if r.host.isdir s.tick path = true ∧ asSingleFile = false then
        Escapes (listDirectory r.host.recursionLimit path recurse r { s with tick := s.tick + 1 })
      else InfoFault r.host (s.tick + 1) path := by
  unfold listing
  simp only [bind_run_done ask_run, bind_run_done (consult_run _ _ _)]
  by_cases hdir : r.host.isdir s.tick path = true ∧ asSingleFile = false
  · simp only [hdir.1, hdir.2, Bool.not_false, Bool.and_self, if_true]
    simp
  · have hsingle : (r.host.isdir s.tick path && !asSingleFile) = false := by
      cases hd : r.host.isdir s.tick path <;> cases asSingleFile <;> simp_all
    simp only [hsingle, if_neg hdir, Bool.false_eq_true, if_false]
    have hwrite := escapes_bind_left (x := getInfo path) (g := fun info => writeMessage info)
      (fun info => not_escapes_send (.message info)) r { s with tick := s.tick + 1 }
    exact hwrite.trans (getInfo_escapes_iff path r _)

theorem getInfo_silent (path : Str) : replies.Silent (getInfo path) := by
  refine within_bind (attempt_silent _) fun _ => ?_
  refine within_bind (consult_silent _) fun _ => ?_
  refine within_bind (consult_silent _) fun _ => ?_
  refine within_bind (consult_silent _) fun _ => ?_
  refine within_bind (consult_silent _) fun _ => ?_
  refine within_bind (attempt_silent _) fun _ => ?_
  exact within_bind (attempt_silent _) fun _ => within_pure _

theorem writeInfo_silent (path : Str) : replies.Silent (writeInfo path) :=
  within_handle (within_bind (getInfo_silent path) fun info => writeMessage_silent info)
    fun _ => within_pure _

theorem listEntries_silent {descend : Str → Handler Unit} (hdescend : ∀ p, replies.Silent (descend p))
    (path : Str) (recursive : Bool) (entries : List Str) :
    replies.Silent (listEntries descend path recursive entries) := by
  induction entries with
  | nil => exact within_pure _
  | cons entry rest ih =>
      have hrest : replies.Silent (writeInfo (pathJoin path entry) >>= fun _ =>
          listEntries descend path recursive rest) :=
        within_bind (writeInfo_silent _) fun _ => ih
      unfold listEntries
      split
      · refine within_bind (consult_silent _) fun isdir => ?_
        split
        · refine within_bind (hdescend _) fun _ => ?_
          exact within_bind (writeMessage_silent _) fun _ => hrest
        · exact hrest
      · exact hrest


theorem listDirectory_silent (depth : Nat) (path : Str) (recursive : Bool) :
    replies.Silent (listDirectory depth path recursive) := by
  induction depth generalizing path with
  | zero => exact within_raise _
  | succ depth ih =>
      refine within_bind (attempt_silent _) fun entries => ?_
      exact listEntries_silent (fun subdir => ih subdir) path recursive entries

theorem listing_silent (path : Str) (asSingleFile recurse : Bool) :
    replies.Silent (listing path asSingleFile recurse) := by
  refine within_bind within_ask fun r => ?_
  refine within_bind (consult_silent _) fun isdir => ?_
  split
  · exact listDirectory_silent _ _ _
  · exact within_bind (getInfo_silent path) fun info => writeMessage_silent info

/-- What `ls` does between its two marks: nothing counts, and what escapes the listing escapes. -/
theorem listIfExists_owed {k : Nat} (path : Str) (asSingleFile recurse : Bool) (r : HandlerCtx)
    (s : HandlerState)
    (hk : r.host.pathExists s.tick path = true →
      Escapes (listing path asSingleFile recurse r { s with tick := s.tick + 1 }) → k = 1) :
    replies.Owed k (fun _ => 0) s (listIfExists path asSingleFile recurse r s) := by
  unfold listIfExists
  rw [bind_run_done (consult_run _ _ _)]
  cases hfound : r.host.pathExists s.tick path with
  | false => exact Books.unchanged rfl id
  | true =>
      have hsilent := listing_silent path asSingleFile recurse r { s with tick := s.tick + 1 }
      have hescape := hk hfound
      simp only [if_true]
      rw [handle]
      revert hsilent hescape
      rcases listing path asSingleFile recurse r { s with tick := s.tick + 1 } with ⟨a | e | _, s'⟩
      · exact fun hsilent _ => hsilent
      · intro (hsilent : replies.Books (· = 0) s s') hescape
        show replies.Owed k (fun _ => 0) s ((if e.isOSError then pure () else raise e : Handler Unit) r s')
        by_cases hos : e.isOSError = true
        · rw [if_pos hos]
          exact hsilent
        · rw [if_neg hos]
          have hone : k = 1 := hescape ⟨e, rfl, by simpa using hos⟩
          show replies.Books (· + 1 = k) s s'
          exact hsilent.mono fun c hc => by omega
      · exact fun _ _ => trivial

theorem listIfExists_done {path : Str} {asSingleFile recurse : Bool} {r : HandlerCtx}
    {s s' : HandlerState} (hdone : listIfExists path asSingleFile recurse r s = (.done (), s'))
    (hfound : r.host.pathExists s.tick path = true) :
    ¬ Escapes (listing path asSingleFile recurse r { s with tick := s.tick + 1 }) := by
  rintro ⟨e, he, hos⟩
  unfold listIfExists at hdone
  rw [bind_run_done (consult_run _ _ _)] at hdone
  simp only [hfound, if_true] at hdone
  rw [handle_run_raised (Prod.ext he rfl)] at hdone
  simp [hos] at hdone

/-- The state after `START_LISTING`. -/
def announced (s : HandlerState) : HandlerState :=
  { s with tick := s.tick + 1, calls := s.calls ++ [.ok (some "START_LISTING".toList)] }

/-- For a well-formed request, the fault is one of the listing itself. -/
theorem listFault_iff {msg path mode : Str} {r : HandlerCtx} (s : HandlerState)
    (hpath : expandVariablesOpt r.environ (extractParameter msg "FILE".toList) = .ok path)
    (hmode : extractParameter msg "LS_MODE".toList = some mode)
    (hallowed : mode ∈ ["R".toList, "A".toList, "N".toList]) :
    ListFault msg r s ↔ r.host.pathExists (announced s).tick path = true ∧
      Escapes (listing path (decide (mode = "A".toList)) (decide (mode = "R".toList)) r
        { announced s with tick := (announced s).tick + 1 }) := by
  rw [listing_escapes_iff]
  simp only [decide_eq_false_iff_not]
  constructor
  · rintro ⟨path', mode', hpath', hmode', -, hfault⟩
    obtain rfl : path = path' := Except.ok.inj (hpath.symm.trans hpath')
    obtain rfl : mode = mode' := Option.some.inj (hmode.symm.trans hmode')
    exact hfault
  · exact fun hfault => ⟨path, mode, hpath, hmode, hallowed, hfault⟩

theorem ok_announced {r : HandlerCtx} {s s' : HandlerState}
    (h : ok (some "START_LISTING".toList) r s = (.done (), s')) : s' = announced s := by
  have hplain : ∀ s, acknowledge (.ok (some "START_LISTING".toList)) s = s := fun s => if_neg (by decide)
  rw [show ok (some "START_LISTING".toList) r s = _ from send_run _ r s] at h
  split at h
  · cases h
  · rw [hplain] at h
    exact (congrArg Prod.snd h).symm

/-- `ls` reports one status, and an exception that escapes the listing adds another. -/
theorem ls_owed {t : Nat} (msg : Str) (config : Settings) (r : HandlerCtx) (s : HandlerState)
    (ht : t = 1 ∧ ¬ ListFault msg r s ∨ t = 2 ∧ ListFault msg r s) :
    replies.Owed t (fun _ => t) s (ls msg config r s) := by
  have hone : ∀ {x : Handler Unit}, Answers x → ¬ ListFault msg r s →
      replies.Owed t (fun _ => t) s (x r s) := by
    rintro x hx hfault
    obtain rfl : t = 1 := by
      rcases ht with ⟨h, -⟩ | ⟨-, h⟩
      · exact h
      · exact absurd h hfault
    exact hx r s
  unfold ls
  rw [bind_run_done ask_run]
  cases hpath : expandVariablesOpt r.environ (extractParameter msg "FILE".toList) with
  | error e =>
      refine hone (totals_raise e) ?_
      rintro ⟨path, -, hpath', -⟩
      rw [hpath] at hpath'
      cases hpath'
  | ok path =>
      rw [ofExcept_ok, bind_run_done (pure_run)]
      split
      · rename_i hmode
        refine hone (failed_answers _) ?_
        rintro ⟨-, mode, -, hmode', hallowed, -⟩
        rw [hmode'] at hmode
        exact hmode (List.mem_map_of_mem (f := some) hallowed)
      · rename_i hmode
        obtain ⟨mode, hallowed, hmode⟩ : ∃ mode, mode ∈ ["R".toList, "A".toList, "N".toList] ∧
            some mode = extractParameter msg "LS_MODE".toList := List.mem_map.mp (not_not.mp hmode)
        simp only [← hmode, Option.some.injEq]
        have hiff := listFault_iff s hpath hmode.symm hallowed
        refine owed_bind ((ok_sends _ r s).charge) ?_
        rintro ⟨⟩ s₁ hok
        obtain rfl := ok_announced hok
        refine ⟨t - 1, fun _ => 0, ?_, Or.inr (by omega), ?_⟩
        · -- the listing and the closing mark
          refine owed_bind (n := fun _ => 0) (listIfExists_owed path _ _ r _ ?_) ?_
          · intro hfound hescape
            have hfault := hiff.mpr ⟨hfound, hescape⟩
            rcases ht with ⟨-, hnone⟩ | ⟨rfl, -⟩
            · exact absurd hfault hnone
            · rfl
          · intro _ s₂ _
            exact ⟨0, fun _ => 0, writeMessage_sends _ r s₂, Or.inl rfl, fun _ _ _ => rfl⟩
        · -- under a fault the listing does not return
          rintro ⟨⟩ s₂ hdone
          rcases ht with ⟨rfl, -⟩ | ⟨-, hfault⟩
          · rfl
          · obtain ⟨⟨⟩, s₃, hlist, -⟩ := bind_eq_done.mp hdone
            obtain ⟨hfound, hescape⟩ := hiff.mp hfault
            exact absurd hescape (listIfExists_done hlist hfound)

end Ls

/-! ## The whole table -/

section Table

open UnicoreTsi.Tsi UnicoreTsi.BssCommon

/-- The commands that acknowledge before they transfer data. -/
def chunkCommands : List Str := ["TSI_GETFILECHUNK".toList, "TSI_PUTFILECHUNK".toList]

/-- The number of statuses a command reports from the state `s`, an exception counting as one. -/
def Reports (command msg : Str) (config : Settings) (r : HandlerCtx) (s : HandlerState) (t : Nat) : Prop :=
  if command = "TSI_LS".toList then t = 1 ∧ ¬ ListFault msg r s ∨ t = 2 ∧ ListFault msg r s
  else if command = "TSI_FILE_ACL".toList then t = aclStatuses msg config r.host s.tick
  else t = 1

theorem exists_reports (command msg : Str) (config : Settings) (r : HandlerCtx) (s : HandlerState) :
    ∃ t, Reports command msg config r s t := by
  unfold Reports
  split
  · by_cases hfault : ListFault msg r s
    · exact ⟨2, Or.inr ⟨rfl, hfault⟩⟩
    · exact ⟨1, Or.inl ⟨rfl, hfault⟩⟩
  · split
    · exact ⟨_, rfl⟩
    · exact ⟨1, rfl⟩

/-- An entry of the table reports as `Reports` says. -/
def Reporting (entry : Str × Function) : Prop :=
  entry.1 ∉ chunkCommands → ∀ msg config r s t, Reports entry.1 msg config r s t →
    replies.Owed t (fun _ => t) s (entry.2 msg config r s)

theorem reporting_of_answers {command : Str} {function : Function} (hls : command ≠ "TSI_LS".toList)
    (hacl : command ≠ "TSI_FILE_ACL".toList) (hfunction : ∀ msg config, Answers (function msg config)) :
    Reporting (command, function) := by
  intro _ msg config r s t ht
  obtain rfl : t = 1 := by
    unfold Reports at ht
    rwa [if_neg hls, if_neg hacl] at ht
  exact hfunction msg config r s

theorem initFunctions_reporting {bss : Bss} (hbss : BssAnswers bss) :
    ∀ entry ∈ initFunctions bss, Reporting entry := by
  have hls : Reporting ("TSI_LS".toList, Io.ls) := by
    intro _ msg config r s t ht
    exact ls_owed msg config r s ht
  have hacl : Reporting ("TSI_FILE_ACL".toList, Acl.processAcl) := by
    rintro _ msg config r s t ht
    obtain rfl : t = aclStatuses msg config r.host s.tick := ht
    exact processAcl_owed config msg r s
  simp only [initFunctions, List.forall_mem_cons]
  refine ⟨reporting_of_answers (by decide) (by decide) ping_answers,
    reporting_of_answers (by decide) (by decide) pingUid_answers,
    reporting_of_answers (by decide) (by decide) getUserInfo_answers,
    reporting_of_answers (by decide) (by decide) executeScript_answers,
    fun h => absurd (by decide) h, fun h => absurd (by decide) h, hls,
    reporting_of_answers (by decide) (by decide) df_answers,
    reporting_of_answers (by decide) (by decide) uftp_answers,
    reporting_of_answers (by decide) (by decide) hbss.submit,
    reporting_of_answers (by decide) (by decide) hbss.runOnLoginNode,
    reporting_of_answers (by decide) (by decide) hbss.getStatusListing,
    reporting_of_answers (by decide) (by decide) hbss.getProcessListing,
    reporting_of_answers (by decide) (by decide) hbss.getJobDetails,
    reporting_of_answers (by decide) (by decide) hbss.getPartitions,
    reporting_of_answers (by decide) (by decide) hbss.abortJob,
    reporting_of_answers (by decide) (by decide) hbss.holdJob,
    reporting_of_answers (by decide) (by decide) hbss.resumeJob,
    reporting_of_answers (by decide) (by decide) hbss.getBudget,
    reporting_of_answers (by decide) (by decide) fun _ _ => failed_answers _,
    reporting_of_answers (by decide) (by decide) fun _ _ => failed_answers _,
    reporting_of_answers (by decide) (by decide) fun _ _ => failed_answers _, hacl, ?_⟩
  exact fun entry h => absurd h List.not_mem_nil

end Table

end UnicoreTsi.Replies
