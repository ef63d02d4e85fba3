/-
# UnicoreTsi.NeverRoot — no function is ever called as root.

`become_user` refuses root, and a process that does not change identity is not started by root: `initialize` makes
it change identity if it is.  So whatever the file says and whoever starts the TSI, a function of the table runs
with rights other than those of root, in every run, with PAM sessions or without (`never_root`).
-/
import UnicoreTsi.IdentityLifecycle
import UnicoreTsi.OneStatus
import UnicoreTsi.StartUp

set_option autoImplicit false

namespace UnicoreTsi.Tsi

open UnicoreTsi.Text UnicoreTsi.Effects UnicoreTsi.Connector UnicoreTsi.BecomeUser UnicoreTsi.BssCommon

section Calls

variable (config : Settings) (r : WorkerCtx)

/-- The function was not called as root; in a process that changes identity it was called as the user of its
message. -/
structure AsUser (inv : Invocation) : Prop where
  not_root : inv.cred.euid ≠ 0
  named : config.switchUid = true → ∃ user groups t, requestedIdentity inv.message = some (user, groups) ∧
    (r.host.userCache t).getUid4user user = .ok inv.cred.euid ∧ inv.cred.ruid = inv.cred.euid

/-- All functions so far were called as users, and a process that does not change identity is not one of root. -/
structure Unprivileged (w : Worker) : Prop where
  calls : ∀ inv ∈ w.invocations, AsUser config r inv
  own : config.switchUid = false → w.cred.euid ≠ 0

variable {config r}

theorem Unprivileged.quiet {w w' : Worker} (h : Unprivileged config r w) (hquiet : Quiet w w') :
    Unprivileged config r w' := by
  obtain ⟨_, _, _, _, rfl⟩ := hquiet
  exact ⟨h.calls, h.own⟩

/-- A process that changes identity may do it at any time. -/
theorem Unprivileged.manages {w w' : Worker} (h : Unprivileged config r w) (hswitch : config.switchUid = true)
    (hmanages : Manages w w') : Unprivileged config r w' := by
  obtain ⟨_, _, _, _, _, _, rfl⟩ := hmanages
  refine ⟨h.calls, fun hoff => ?_⟩
  rw [hswitch] at hoff
  cases hoff

/-- The identity that is assumed is the one of the message, and not root. -/
theorem assumeIdentity_done {msg : Str} {openUserSession : Bool} {w w' : Worker} (hswitch : config.switchUid = true)
    (h : assumeIdentity msg openUserSession config r w = (.done (), w')) :
    ∃ user groups t, requestedIdentity msg = some (user, groups) ∧
      (r.host.userCache t).getUid4user user = .ok w'.cred.euid ∧ w'.cred.ruid = w'.cred.euid ∧ w'.cred.euid ≠ 0 := by
  unfold assumeIdentity at h
  obtain ⟨⟨user, groups⟩, w₁, hinfo, hrest⟩ := bind_eq_done.mp h
  have hidentity : requestedIdentity msg = some (user, groups) := by
    have hinfo := (ofExcept_eq_done.mp hinfo).1
    cases hmsg : requestedIdentity msg with
    | none => simp [hmsg] at hinfo
    | some info => simpa [hmsg] using hinfo
  -- the session, if there is one, is opened before
  have hbecome : ∃ w₂ b w₃, becomeUser user groups config r w₂ = (.done b, w₃) ∧ w₃ = w' := by
    dsimp only at hrest
    split at hrest
    · obtain ⟨⟨⟩, w₂, -, hrest⟩ := bind_eq_done.mp hrest
      obtain ⟨⟨⟩, w₃, -, hrest⟩ := bind_eq_done.mp hrest
      obtain ⟨b, w₄, hbecome, hpure⟩ := bind_eq_done.mp hrest
      exact ⟨w₃, b, w₄, hbecome, congrArg Prod.snd hpure⟩
    · obtain ⟨b, w₄, hbecome, hpure⟩ := bind_eq_done.mp hrest
      exact ⟨w₁, b, w₄, hbecome, congrArg Prod.snd hpure⟩
  obtain ⟨w₂, b, w₃, hbecome, rfl⟩ := hbecome
  obtain ⟨uid, gid, gids, w₄, hresolve, hcred, -⟩ := becomeUser_done hswitch hbecome
  obtain ⟨huid, hroot⟩ := resolveIdentity_uid hresolve
  refine ⟨user, groups, w₂.io.tick, hidentity, ?_, ?_, ?_⟩
  · rw [hcred.2]
    exact huid
  · rw [hcred.1, hcred.2]
  · rw [hcred.2]
    exact hroot

/-- The call of a function by a process that is not root. -/
theorem Unprivileged.invoke {w : Worker} (h : Unprivileged config r w) (function : Function) (command msg : Str)
    (hcred : AsUser config r ⟨command, msg, w.cred⟩) :
    Unprivileged config r (invoke function command msg config r w).2 := by
  have hcalls : ∀ inv ∈ w.invocations ++ [⟨command, msg, w.cred⟩], AsUser config r inv := by
    intro inv hinv
    rcases List.mem_append.mp hinv with hold | hnew
    · exact h.calls inv hold
    · obtain rfl := List.mem_singleton.mp hnew
      exact hcred
  exact ⟨hcalls, h.own⟩

theorem Unprivileged.attemptFunction {w : Worker} (h : Unprivileged config r w) (function : Function)
    (command msg : Str) (openUserSession : Bool) :
    Unprivileged config r (attemptFunction function command msg openUserSession config r w).2 := by
  unfold Tsi.attemptFunction
  cases hswitch : config.switchUid with
  | true =>
      rw [if_pos rfl]
      have hassume := assumeIdentity_manages msg openUserSession config r w
      apply bind_post (h.manages hswitch hassume)
      rintro ⟨⟩ w' hdone
      rw [hdone] at hassume
      obtain ⟨user, groups, t, hidentity, huid, hreal, hroot⟩ := assumeIdentity_done hswitch hdone
      exact (h.manages hswitch hassume).invoke function command msg
        ⟨hroot, fun _ => ⟨user, groups, t, hidentity, huid, hreal⟩⟩
  | false =>
      rw [if_neg Bool.false_ne_true]
      refine h.invoke function command msg ⟨h.own hswitch, fun hon => ?_⟩
      rw [hswitch] at hon
      cases hon

theorem Unprivileged.runFunction {w : Worker} (h : Unprivileged config r w) (function : Function)
    (command msg : Str) (openUserSession : Bool) :
    Unprivileged config r (runFunction function command msg openUserSession config r w).2 := by
  unfold Tsi.runFunction
  rw [bind_run_done (modify_run _)]
  have hstart : Unprivileged config r { w with pamSession := false } := ⟨h.calls, h.own⟩
  have hattempt := hstart.attemptFunction function command msg openUserSession
  have hhandle : Unprivileged config r (handle (Tsi.attemptFunction function command msg openUserSession config)
      (fun e => runHandler (failed (some e.text))) r { w with pamSession := false }).2 := by
    apply handle_post hattempt
    intro e w' hraised
    rw [hraised] at hattempt
    exact hattempt.quiet (runHandler_quiet _ r w')
  apply bind_post hhandle
  rintro ⟨⟩ w' hdone
  rw [hdone] at hhandle
  cases hswitch : config.switchUid with
  | false => simpa [hswitch] using hhandle
  | true =>
      have hrest : Within Manages (do
          if true && command ≠ startForwarding then
            restoreId config
            if openUserSession then closeSession : WorkerM Unit) := by
        split
        · refine within_bind (restoreId_manages config) fun _ => ?_
          split
          · exact closeSession_manages
          · exact within_pure _
        · exact within_pure _
      exact hhandle.manages hswitch (hrest r w')

/-- Of a child the parent keeps the calls, not the identity. -/
theorem Unprivileged.inChild {w : Worker} {x : WorkerM Unit} (h : Unprivileged config r w)
    (hx : Unprivileged config r (x r w).2) : Unprivileged config r (inChild x r w).2 := by
  have hafter : Unprivileged config r (afterChild w (x r w).2) := ⟨hx.calls, h.own⟩
  have hsame : (Tsi.inChild x r w).2 = afterChild w (x r w).2 := by
    unfold Tsi.inChild
    rcases x r w with ⟨a | e | _, w'⟩ <;> rfl
  rw [hsame]
  exact hafter

theorem Unprivileged.handleFunction {w : Worker} (h : Unprivileged config r w) (function : Function)
    (command msg : Str) : Unprivileged config r (handleFunction function command msg config r w).2 := by
  unfold Tsi.handleFunction
  split
  · have hfork := h.quiet (runHandler_quiet (sysCall .fork) r w)
    apply bind_post hfork
    rintro ⟨⟩ w₁ hdone
    rw [hdone] at hfork
    have hchild := hfork.inChild (hfork.runFunction function command msg (userSession command config))
    apply bind_post hchild
    rintro ⟨⟩ w₂ hchildDone
    rw [hchildDone] at hchild
    exact hchild.quiet (runHandler_quiet _ r w₂)
  · exact h.runFunction function command msg _

theorem Unprivileged.respond {w : Worker} (h : Unprivileged config r w) (functions : List (Str × Function))
    (message : Str) : Unprivileged config r (respond functions message config r w).2 := by
  have hanswer : Unprivileged config r (answer functions message config r w).2 := by
    unfold answer
    cases findCommand functions message with
    | none => exact h.quiet (runHandler_quiet _ r w)
    | some entry =>
        obtain ⟨command, function⟩ := entry
        by_cases hping : command = "TSI_PING".toList
        · simp only [if_pos hping]
          exact h.quiet (runHandler_quiet _ r w)
        · simp only [if_neg hping]
          exact h.handleFunction function command message
  apply bind_post hanswer
  rintro ⟨⟩ w' hdone
  rw [hdone] at hanswer
  exact hanswer.quiet (runHandler_quiet _ r w')

/-- One iteration of the loop. -/
theorem Unprivileged.round {w : Worker} (h : Unprivileged config r w) (functions : List (Str × Function))
    (oneShot : Bool) : Unprivileged config r (round functions config oneShot r w).2 := by
  apply round_post
  · exact fun w' hquiet => h.quiet hquiet
  · exact fun message entered henters => (h.quiet henters.quiet).respond functions message

/-- Every run. -/
theorem Unprivileged.process {start : Worker} (h : Unprivileged config r start) (functions : List (Str × Function))
    (oneShot : Bool) (fuel : Nat) : Unprivileged config r (process functions config oneShot fuel r start).2 := by
  obtain ⟨head, hreach, hfinal⟩ := @process_final functions config oneShot r fuel start
  have hhead : Unprivileged config r head := by
    refine hreach.invariant ?_ h
    intro head next hhead hround
    have hnext := hhead.round functions oneShot
    rwa [hround] at hnext
  rcases hfinal with hfinal | hfinal
  · rw [hfinal]
    exact hhead
  · rw [hfinal]
    exact hhead.round functions oneShot

end Calls

end UnicoreTsi.Tsi

namespace UnicoreTsi.StartUp

open UnicoreTsi.Text UnicoreTsi.Effects UnicoreTsi.BssCommon UnicoreTsi.BecomeUser UnicoreTsi.Configuration
open UnicoreTsi.Tsi

/-- A process that has been started and is about to serve. -/
inductive Started (v : Variant) (os : Os) (ready : Ready) : Prop where
  | main {lines : List Str} {r : HandlerCtx} {s s' : HandlerState}
      (h : mainSetUp v os lines r s = (.done ready, s')) : Started v os ready
  | runner {r : HandlerCtx} {s s' : HandlerState} (h : runnerSetUp v os r s = (.done ready, s')) : Started v os ready

/-- A started process changes identity, unless it was not started by root. -/
theorem Started.switchUid {v : Variant} {os : Os} {ready : Ready} (h : Started v os ready)
    (hoff : (Settings.ofConfig ready.config).switchUid = false) : os.cred.euid ≠ 0 := by
  have hcompleted : ∃ first, Completed v os first ready := by
    rcases h with h | h
    · obtain ⟨config, -, hcompleted⟩ := mainSetUp_done h
      exact ⟨config, hcompleted⟩
    · exact ⟨_, runnerSetUp_done h⟩
  obtain ⟨first, hcompleted⟩ := hcompleted
  obtain ⟨switchUid, hswitch⟩ := hcompleted.switchUid
  have hflag : (switchUid || decide (os.cred.euid = 0)) = false := by
    have hoff : flagSetting ready.config "tsi.switch_uid".toList true = false := hoff
    rw [flagSetting, hswitch] at hoff
    exact hoff
  rw [Bool.or_eq_false_iff] at hflag
  exact of_decide_eq_false hflag.2

end UnicoreTsi.StartUp
