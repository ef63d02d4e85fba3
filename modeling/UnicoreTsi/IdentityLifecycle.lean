/-
# UnicoreTsi.IdentityLifecycle — who a request runs as, and who the worker is between requests.

One request changes the credentials in `changeIdentity` and back in `restoreId`; each is several system
calls any of which may fail.  A function of the table is reached only past the checks of `become_user`,
so whatever failed before, the credentials it sees are the ones computed for its own message (`RunsAs`).
An iteration that comes to its end has been through all of `restoreId`, which leaves the neutral identity
from any credentials (`Neutral`).  Both are proved for one request and carried to every run.
-/
import UnicoreTsi.GroupConfinement
import UnicoreTsi.Runs

set_option autoImplicit false

namespace UnicoreTsi.BecomeUser

open UnicoreTsi.Text UnicoreTsi.Effects UnicoreTsi.Utils

/-! ## What each operation does when it returns -/

section Operations

variable {r : WorkerCtx} {w w' : Worker}

theorem lookup_eq_done {α : Type} {f : UserCache → Except PyExc α} {a : α}
    (h : lookup f r w = (.done a, w')) :
    f (r.host.userCache w.io.tick) = .ok a ∧
      { w with io := { w.io with tick := w.io.tick + 1 } } = w' := by
  rw [lookup, runHandler_run, attempt_run] at h
  cases hf : f (r.host.userCache w.io.tick) with
  | error e => simp [hf] at h
  | ok b =>
      simp only [hf, Prod.mk.injEq, Outcome.done.injEq] at h
      exact ⟨congrArg Except.ok h.1, h.2⟩

/-- The uid `resolveIdentity` returns is the first thing it asked for. -/
theorem resolveIdentity_uid {user : Str} {groups : List Str} {config : Settings} {uid gid : Int}
    {gids : List Int} (h : resolveIdentity user groups config r w = (.done (uid, gid, gids), w')) :
    (r.host.userCache w.io.tick).getUid4user user = .ok uid ∧ uid ≠ 0 := by
  unfold resolveIdentity at h
  obtain ⟨primary, w₁, hprimary, hrest⟩ := bind_eq_done.mp h
  obtain ⟨-, hsame⟩ := ofExcept_eq_done.mp hprimary
  rw [hsame] at hrest
  obtain ⟨newUid, w₂, huid, h⟩ := bind_eq_done.mp hrest
  obtain ⟨huid, -⟩ := lookup_eq_done huid
  have hreturned : newUid = uid ∧ newUid ≠ 0 := by
    split at h
    · simp at h
    · split at h
      · simp at h
      · rename_i hroot
        refine ⟨?_, hroot⟩
        split at h
        · obtain ⟨newGid, w₃, -, h⟩ := bind_eq_done.mp h
          obtain ⟨newGids, w₄, -, h⟩ := bind_eq_done.mp h
          simp only [pure_run, Prod.mk.injEq, Outcome.done.injEq] at h
          exact h.1.1
        · obtain ⟨newGid, w₃, -, h⟩ := bind_eq_done.mp h
          obtain ⟨newGids, w₄, -, h⟩ := bind_eq_done.mp h
          simp only [pure_run, Prod.mk.injEq, Outcome.done.injEq] at h
          exact h.1.1
  rw [← hreturned.1]
  exact ⟨huid, hreturned.2⟩

theorem idCall_done {c : SysCall} (h : idCall c r w = (.done (), w')) :
    changeCred r.host.privileged c w.cred = some w'.cred ∧ w'.environ = w.environ := by
  unfold idCall at h
  rw [bind_run_done (modify_run _)] at h
  obtain ⟨⟨⟩, w₂, hcall, h⟩ := bind_eq_done.mp h
  rw [runHandler_run, Prod.mk.injEq] at hcall
  obtain ⟨-, rfl⟩ := hcall
  simp only [bind_run_done ask_run, bind_run_done get_run] at h
  cases hcred : changeCred r.host.privileged c w.cred with
  | none => simp [hcred] at h
  | some cred =>
      simp only [hcred, modify_run, Prod.mk.injEq] at h
      obtain ⟨-, rfl⟩ := h
      exact ⟨rfl, rfl⟩

theorem checkIdentity_done {user : Str} {uid gid : Int} {gids : List Int}
    (h : checkIdentity user uid gid gids r w = (.done (), w')) :
    w = w' ∧ (w.cred.ruid = uid ∧ w.cred.euid = uid) ∧ (w.cred.rgid = gid ∧ w.cred.egid = gid) ∧
      ∀ g, g ∈ w.cred.groups ↔ g ∈ gids := by
  unfold checkIdentity at h
  rw [bind_run_done (get_run)] at h
  split at h
  · simp at h
  · rename_i huid
    split at h
    · simp at h
    · rename_i hgid
      split at h
      · simp at h
      · rename_i hgroups
        rw [pure_run, Prod.mk.injEq] at h
        have hsame : sameSet w.cred.groups gids = true := by simpa using hgroups
        simp only [sameSet, Bool.and_eq_true, List.all_eq_true, decide_eq_true_eq] at hsame
        refine ⟨h.2, by simpa using huid, by simpa using hgid, ?_⟩
        exact fun g => ⟨hsame.1 g, hsame.2 g⟩

/-- Everything but the identity of the process is as before. -/
def KeepsCred (w w' : Worker) : Prop := w'.cred = w.cred

instance : Std.Refl KeepsCred := ⟨fun _ => rfl⟩

instance : IsTrans Worker KeepsCred := ⟨fun _ _ _ h h' => Eq.trans h' h⟩

end Operations

/-! ## Becoming the user, and back -/

section Identity

variable {r : WorkerCtx} {w w' : Worker} {config : Settings}

/-- A change of identity that is not refused has been checked. -/
theorem switchTo_done {user : Str} {uid gid : Int} {gids : List Int} {b : Bool}
    (h : switchTo user config uid gid gids r w = (.done b, w')) :
    (w'.cred.ruid = uid ∧ w'.cred.euid = uid) ∧ (w'.cred.rgid = gid ∧ w'.cred.egid = gid) ∧
      ∀ g, g ∈ w'.cred.groups ↔ g ∈ gids := by
  unfold switchTo changeIdentity at h
  obtain ⟨⟨⟩, w₄, hchange, h⟩ := bind_eq_done.mp h
  obtain ⟨⟨⟩, w₁, -, hchange⟩ := bind_eq_done.mp hchange
  obtain ⟨⟨⟩, w₂, -, hchange⟩ := bind_eq_done.mp hchange
  obtain ⟨⟨⟩, w₃, -, hchange⟩ := bind_eq_done.mp hchange
  obtain ⟨⟨⟩, w₅, -, hcheck⟩ := bind_eq_done.mp hchange
  obtain ⟨rfl, hchecked⟩ := checkIdentity_done hcheck
  have hkept := within_bind (setEnvironment_within (R := KeepsCred) (fun _ _ _ => rfl) user)
    (fun _ => within_pure true) r w₅
  rw [h] at hkept
  have hcred : w'.cred = w₅.cred := hkept
  rw [hcred]
  exact hchecked

theorem becomeUser_done {user : Str} {groups : List Str} {b : Bool} (hswitch : config.switchUid = true)
    (h : becomeUser user groups config r w = (.done b, w')) :
    ∃ uid gid gids w₁, resolveIdentity user groups config r w = (.done (uid, gid, gids), w₁) ∧
      (w'.cred.ruid = uid ∧ w'.cred.euid = uid) ∧ (w'.cred.rgid = gid ∧ w'.cred.egid = gid) ∧
      ∀ g, g ∈ w'.cred.groups ↔ g ∈ gids := by
  rw [becomeUser, if_pos hswitch] at h
  obtain ⟨⟨uid, gid, gids⟩, w₁, hresolve, h⟩ := bind_eq_done.mp h
  exact ⟨uid, gid, gids, w₁, hresolve, switchTo_done h⟩

/-- The stored identity is in force, and the environment is harmless. -/
structure Neutral (config : Settings) (w : Worker) : Prop where
  ruid : w.cred.ruid = config.effectiveUid
  euid : w.cred.euid = config.effectiveUid
  suid : w.cred.suid = config.effectiveUid
  rgid : w.cred.rgid = config.effectiveGid
  egid : w.cred.egid = config.effectiveGid
  sgid : w.cred.sgid = config.effectiveGid
  groups : w.cred.groups = [(config.effectiveGid : Int)]
  environ : w.environ = neutralEnviron

/-- `setgroups` goes through only with the privilege that also lets `setgid` set all three gids. -/
theorem restoreId_done (hswitch : config.switchUid = true)
    (h : restoreId config r w = (.done (), w')) : Neutral config w' := by
  rw [restoreId, if_pos hswitch] at h
  obtain ⟨⟨⟩, w₁, h₁, h⟩ := bind_eq_done.mp h
  obtain ⟨⟨⟩, w₂, h₂, h⟩ := bind_eq_done.mp h
  obtain ⟨⟨⟩, w₃, h₃, h⟩ := bind_eq_done.mp h
  obtain ⟨⟨⟩, w₄, h₄, h⟩ := bind_eq_done.mp h
  have c₁ := (idCall_done h₁).1
  have c₂ := (idCall_done h₂).1
  have c₃ := (idCall_done h₃).1
  have c₄ := (idCall_done h₄).1
  rw [modify_run, Prod.mk.injEq] at h
  obtain ⟨-, rfl⟩ := h
  have hset : ∀ old : Int, newId old config.effectiveUid = config.effectiveUid := by
    intro old
    rw [newId, if_neg (by omega)]
  simp only [changeCred, hset, Option.some.injEq] at c₁
  have heuid : w₁.cred.euid = config.effectiveUid := by rw [← c₁]
  -- `setgid` does not touch the uids, so `setgroups` is made with the same privilege
  have heuid₂ : w₂.cred.euid = config.effectiveUid := by
    simp only [changeCred] at c₂
    split at c₂
    · rw [← Option.some.inj c₂]
      exact heuid
    · split at c₂
      · rw [← Option.some.inj c₂]
        exact heuid
      · cases c₂
  have hpriv : r.host.privileged config.effectiveUid = true := by
    simp only [changeCred, heuid₂] at c₃
    split at c₃
    · assumption
    · cases c₃
  simp only [changeCred, heuid, hpriv, if_true, Option.some.injEq] at c₂
  simp only [changeCred, heuid₂, hpriv, if_true, Option.some.injEq] at c₃
  have hcred₃ : w₃.cred = ⟨config.effectiveUid, config.effectiveUid, config.effectiveUid,
      config.effectiveGid, config.effectiveGid, config.effectiveGid, [(config.effectiveGid : Int)]⟩ := by
    rw [← c₃, ← c₂, ← c₁]
  have hcred₄ : w₄.cred = w₃.cred := by
    rw [hcred₃] at c₄
    simp only [changeCred, hpriv, true_or, if_true, Option.some.injEq] at c₄
    rw [hcred₃, ← c₄]
  rw [hcred₃] at hcred₄
  constructor <;> simp [hcred₄]

end Identity

end UnicoreTsi.BecomeUser

namespace UnicoreTsi.Tsi

open UnicoreTsi.Text UnicoreTsi.Effects UnicoreTsi.Connector UnicoreTsi.BecomeUser
open UnicoreTsi.BssCommon

/-! ## What a function of the table sees -/

section Request

variable (config : Settings) (r : WorkerCtx)

/-- The function was called with the identity that `become_user` computed for its message, starting from
the state in which the message was taken up. -/
def RunsAs (entered : Worker) (inv : Invocation) : Prop :=
  ∃ user groups uid gid gids w₁, requestedIdentity inv.message = some (user, groups) ∧
    resolveIdentity user groups config r { entered with pamSession := false } =
      (.done (uid, gid, gids), w₁) ∧
    (r.host.userCache entered.io.tick).getUid4user user = .ok uid ∧ uid ≠ 0 ∧
    (inv.cred.ruid = uid ∧ inv.cred.euid = uid) ∧ (inv.cred.rgid = gid ∧ inv.cred.egid = gid) ∧
    ∀ g, g ∈ inv.cred.groups ↔ g ∈ gids

/-- The invocations are those of `entered` and others that ran as they should. -/
def Logged (entered : Worker) (message : Str) (w : Worker) : Prop :=
  ∀ inv ∈ w.invocations, inv ∈ entered.invocations ∨
    inv.message = message ∧ RunsAs config r entered inv

/-- No function of the table was called. -/
def KeepsLog (w w' : Worker) : Prop := w'.invocations = w.invocations

instance : Std.Refl KeepsLog := ⟨fun _ => rfl⟩

instance : IsTrans Worker KeepsLog := ⟨fun _ _ _ h h' => Eq.trans h' h⟩

variable {config r}

theorem Quiet.keepsLog {w w' : Worker} (h : Quiet w w') : KeepsLog w w' := by
  obtain ⟨_, _, _, _, rfl⟩ := h
  rfl

theorem Manages.keepsLog {w w' : Worker} (h : Manages w w') : KeepsLog w w' := by
  obtain ⟨_, _, _, _, _, _, rfl⟩ := h
  rfl

theorem Logged.mono {entered w w' : Worker} {message : Str} (h : Logged config r entered message w)
    (hkeep : KeepsLog w w') : Logged config r entered message w' := by
  intro inv hinv
  exact h inv (by rwa [show w'.invocations = w.invocations from hkeep] at hinv)

theorem runHandler_keepsLog {α : Type} (h : Handler α) : Within KeepsLog (runHandler h) :=
  fun _ _ => rfl

/-- A function is invoked only past the checks of `become_user`. -/
theorem attemptFunction_logged (r : WorkerCtx) (entered : Worker) (function : Function) (command message : Str)
    (hswitch : config.switchUid = true) :
    Logged config r entered message (attemptFunction function command message false config r
      { entered with pamSession := false }).2 := by
  unfold attemptFunction
  rw [if_pos hswitch]
  have hstart : Logged config r entered message { entered with pamSession := false } :=
    fun inv hinv => Or.inl hinv
  have hassume : Within KeepsLog (assumeIdentity message false config) := by
    refine within_bind (within_ofExcept _) ?_
    rintro ⟨user, groups⟩
    refine within_bind ?_ fun _ => within_pure _
    exact within_mono (fun _ _ => Manages.keepsLog) (becomeUser_manages user config _)
  apply bind_post (hstart.mono (hassume r _))
  rintro ⟨⟩ w h
  have hlog := hassume r { entered with pamSession := false }
  rw [h] at hlog
  -- the identity the function is about to be called with
  unfold assumeIdentity at h
  obtain ⟨⟨user, groups⟩, w₁, hinfo, h⟩ := bind_eq_done.mp h
  obtain ⟨hinfo, rfl⟩ := ofExcept_eq_done.mp hinfo
  have hidentity : requestedIdentity message = some (user, groups) := by
    cases hmsg : requestedIdentity message with
    | none => simp [hmsg] at hinfo
    | some info => simpa [hmsg] using hinfo
  obtain ⟨b, w₂, hbecome, hpure⟩ := bind_eq_done.mp h
  obtain rfl : w₂ = w := congrArg Prod.snd hpure
  obtain ⟨uid, gid, gids, w₃, hresolve, hcred⟩ := becomeUser_done hswitch hbecome
  obtain ⟨huid, hroot⟩ := resolveIdentity_uid hresolve
  intro inv hinv
  have hinv' : inv ∈ w₂.invocations ++ [⟨command, message, w₂.cred⟩] := hinv
  rcases List.mem_append.mp hinv' with hold | hnew
  · rw [show w₂.invocations = entered.invocations from hlog] at hold
    exact Or.inl hold
  · obtain rfl := List.mem_singleton.mp hnew
    exact Or.inr ⟨rfl, user, groups, uid, gid, gids, w₃, hidentity, hresolve, huid, hroot, hcred⟩

theorem handleFunction_logged {entered : Worker} (function : Function) (command message : Str)
    (hswitch : config.switchUid = true) (hpam : config.openUserSessions = false) :
    Logged config r entered message (handleFunction function command message config r entered).2 := by
  unfold handleFunction userSession
  simp only [hpam, Bool.false_and, Bool.false_eq_true, if_false]
  unfold runFunction
  rw [bind_run_done (modify_run _)]
  have hattempt := attemptFunction_logged r entered function command message hswitch
  have hhandle : Logged config r entered message
      (handle (attemptFunction function command message false config)
        (fun e => runHandler (failed (some e.text))) r { entered with pamSession := false }).2 := by
    apply handle_post hattempt
    intro e w h
    rw [h] at hattempt
    exact hattempt.mono (runHandler_keepsLog _ r w)
  apply bind_post hhandle
  rintro ⟨⟩ w h
  rw [h] at hhandle
  apply hhandle.mono
  have hrest : Within KeepsLog (do
      if config.switchUid && command ≠ startForwarding then
        restoreId config
        if (false : Bool) then closeSession : WorkerM Unit) := by
    split
    · refine within_bind ?_ fun _ => within_pure _
      exact within_mono (fun _ _ => Manages.keepsLog) (restoreId_manages config)
    · exact within_pure _
  exact hrest r w

/-- A request that went through `handle_function` ends with the stored identity. -/
theorem handleFunction_neutral {entered w : Worker} {function : Function} {command message : Str}
    (hswitch : config.switchUid = true) (hpam : config.openUserSessions = false)
    (hcommand : command ≠ startForwarding)
    (h : handleFunction function command message config r entered = (.done (), w)) :
    Neutral config w := by
  unfold handleFunction userSession at h
  simp only [hpam, Bool.false_and, Bool.false_eq_true, if_false] at h
  unfold runFunction at h
  obtain ⟨⟨⟩, w₁, -, h⟩ := bind_eq_done.mp h
  obtain ⟨⟨⟩, w₂, -, h⟩ := bind_eq_done.mp h
  rw [if_pos (by simp [hswitch, hcommand])] at h
  obtain ⟨⟨⟩, w₃, hrestore, h⟩ := bind_eq_done.mp h
  obtain rfl : w₃ = w := congrArg Prod.snd h
  exact restoreId_done hswitch hrestore

end Request

/-! ## Every run -/

section Lifecycle

variable {functions : List (Str × Function)} {config : Settings} {r : WorkerCtx}

/-- The response to one message adds only invocations that ran as they should. -/
theorem respond_logged {entered : Worker} {message : Str} (hswitch : config.switchUid = true)
    (hpam : config.openUserSessions = false) :
    Logged config r entered message (respond functions message config r entered).2 := by
  have hstart : Logged config r entered message entered := fun inv hinv => Or.inl hinv
  have hanswer : Logged config r entered message (answer functions message config r entered).2 := by
    unfold answer
    cases findCommand functions message with
    | none => exact hstart.mono (runHandler_keepsLog _ r entered)
    | some entry =>
        obtain ⟨command, function⟩ := entry
        by_cases hping : command = "TSI_PING".toList
        · simp only [if_pos hping]
          exact hstart.mono (runHandler_keepsLog _ r entered)
        · simp only [if_neg hping]
          exact handleFunction_logged function command message hswitch hpam
  apply bind_post hanswer
  rintro ⟨⟩ w h
  rw [h] at hanswer
  exact hanswer.mono (runHandler_keepsLog _ r w)

/-- One iteration adds only invocations that ran as they should. -/
theorem round_logged (functions : List (Str × Function)) (r : WorkerCtx) (head : Worker) (oneShot : Bool)
    (hswitch : config.switchUid = true) (hpam : config.openUserSessions = false) :
    ∀ inv ∈ (round functions config oneShot r head).2.invocations, inv ∈ head.invocations ∨
      ∃ entered, Enters config r head inv.message entered ∧ RunsAs config r entered inv := by
  apply round_post (P := fun w => ∀ inv ∈ w.invocations, inv ∈ head.invocations ∨
    ∃ entered, Enters config r head inv.message entered ∧ RunsAs config r entered inv)
  · intro w hquiet inv hinv
    rw [show w.invocations = head.invocations from Quiet.keepsLog hquiet] at hinv
    exact Or.inl hinv
  · intro message entered henters inv hinv
    rcases respond_logged hswitch hpam inv hinv with hold | ⟨rfl, hruns⟩
    · rw [show entered.invocations = head.invocations from Quiet.keepsLog henters.quiet] at hold
      exact Or.inl hold
    · exact Or.inr ⟨entered, henters, hruns⟩

/-- An invocation recorded by the time the worker is at the head of the loop was made in an earlier
iteration, and ran as it should. -/
theorem reaches_logged {start w : Worker} {oneShot : Bool} (hswitch : config.switchUid = true)
    (hpam : config.openUserSessions = false) (hstart : start.invocations = [])
    (hreach : Reaches functions config oneShot r start w) :
    ∀ inv ∈ w.invocations, ∃ head entered, Reaches functions config oneShot r start head ∧
      Enters config r head inv.message entered ∧ RunsAs config r entered inv := by
  induction hreach with
  | refl =>
      intro inv hinv
      rw [hstart] at hinv
      cases hinv
  | @step head next hreach hround ih =>
      intro inv hinv
      have hlogged := round_logged functions r head oneShot hswitch hpam inv
      rw [hround] at hlogged
      rcases hlogged hinv with hold | ⟨entered, henters, hruns⟩
      · exact ih inv hold
      · exact ⟨head, entered, hreach, henters, hruns⟩

/-- No command of the table is the internal one for port forwarding. -/
theorem findCommand_ne_startForwarding {bss : Bss} {message command : Str} {function : Function}
    (h : findCommand (initFunctions bss) message = some (command, function)) :
    command ≠ startForwarding := by
  have hmem : command ∈ (initFunctions bss).map Prod.fst :=
    List.mem_map_of_mem (f := Prod.fst) (List.mem_of_find?_eq_some h)
  rw [initFunctions_names] at hmem
  rintro rfl
  revert hmem
  decide

/-- The identity lifecycle of a worker, over all its runs from `start`: a function of the table is called
as the user named in its own message, and between two messages the worker has its stored identity if the
last one went through `handle_function`. -/
structure IdentityLifecycle (bss : Bss) (config : Settings) (oneShot : Bool) (r : WorkerCtx)
    (start : Worker) : Prop where
  runsAs : ∀ fuel, ∀ inv ∈ (process (initFunctions bss) config oneShot fuel r start).2.invocations,
    ∃ head entered, Reaches (initFunctions bss) config oneShot r start head ∧
      Enters config r head inv.message entered ∧ RunsAs config r entered inv
  neutral : ∀ head entered next message command function go,
    Reaches (initFunctions bss) config oneShot r start head →
    Enters config r head message entered →
    findCommand (initFunctions bss) message = some (command, function) →
    command ≠ "TSI_PING".toList →
    round (initFunctions bss) config oneShot r head = (.done go, next) → Neutral config next

/-- The lines of a request that runs a script as `alice`. -/
def aliceRequest : List Str :=
  ["#TSI_EXECUTESCRIPT\n".toList, "#TSI_IDENTITY alice NONE\n".toList, "echo hello\n".toList,
    "ENDOFMESSAGE\n".toList]

end Lifecycle

end UnicoreTsi.Tsi
