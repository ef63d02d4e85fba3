/-
# UnicoreTsi.Footprint — what a worker leaves behind, and whom it waits for.

A worker takes requests of any kind for as long as it runs.  What it has done itself to files and to the data channel
is the work of the requests for chunks: a file that has changed was named by an upload, data was sent for a
download, and all other files written are job scripts under names of the worker's making (`footprint_of_run`).

A child stays on the list until it has ended.  `cleanup` passes over some of those that have, but a child that has
ended moves towards the front of the list in every iteration in which it is passed over, so it is
collected after at most as many iterations as there were children before it (`ended_child_collected`).
-/
import UnicoreTsi.ChildCleanup
import UnicoreTsi.OneStatus
import UnicoreTsi.TableSteps

set_option autoImplicit false

namespace UnicoreTsi.Tsi

open UnicoreTsi.Text UnicoreTsi.Effects UnicoreTsi.Connector UnicoreTsi.BssCommon UnicoreTsi.BecomeUser

/-! ## What requests account for -/

/-- Children have been added at the end of the list. -/
def Appends (pids pids' : List Int) : Prop := ∃ new, pids' = pids ++ new

instance : Std.Refl Appends := ⟨fun pids => ⟨[], (List.append_nil pids).symm⟩⟩

instance : IsTrans (List Int) Appends := ⟨by
  rintro _ _ _ ⟨new, rfl⟩ ⟨new', rfl⟩
  exact ⟨new ++ new', List.append_assoc _ _ _⟩⟩

/-- `waitpid` says that the child is no more. -/
def Gone (host : Host) (t : Nat) (pid : Int) : Prop :=
  (∃ n, host.waitpid t pid = .ok n ∧ n ≠ 0) ∨ ∃ e, host.waitpid t pid = .error e ∧ isChildProcessError e = true

/-- A child is waited for until it is no more. -/
def Waits (host : Host) (pids pids' : List Int) : Prop := ∀ pid ∈ pids, pid ∈ pids' ∨ ∃ t, Gone host t pid

instance (host : Host) : Std.Refl (Waits host) := ⟨fun _ _ hpid => Or.inl hpid⟩

instance (host : Host) : IsTrans (List Int) (Waits host) := ⟨by
  intro _ _ _ h h' pid hpid
  rcases h pid hpid with hkept | hgone
  · exact h' pid hkept
  · exact Or.inr hgone⟩

theorem Appends.waits {pids pids' : List Int} (h : Appends pids pids') (host : Host) : Waits host pids pids' := by
  obtain ⟨new, rfl⟩ := h
  exact fun pid hpid => Or.inl (List.mem_append_left _ hpid)

/-- What the requests `invs` have done to the state of the handlers; `C` relates the lists of children. -/
structure Accounts (C : List Int → List Int → Prop) (invs : List Invocation) (s s' : HandlerState) : Prop where
  scripts : ∃ new, s'.scripts = s.scripts ++ new ∧ ∀ file ∈ new, JobFile file.1
  files : ∀ path, s'.files path ≠ s.files path →
    ∃ inv ∈ invs, inv.command = "TSI_PUTFILECHUNK".toList ∧ Uploads inv.message path
  dataOut : ∃ sent, s'.dataOut = s.dataOut ++ sent ∧
    (sent ≠ [] → ∃ inv ∈ invs, inv.command = "TSI_GETFILECHUNK".toList)
  children : C s.childPids s'.childPids

section Accounts

variable {C : List Int → List Int → Prop} {invs : List Invocation} {s s' : HandlerState}

/-- Steps that leave files and data alone. -/
theorem Accounts.unchanged (hscripts : s'.scripts = s.scripts) (hfiles : s'.files = s.files)
    (hdata : s'.dataOut = s.dataOut) (hchildren : C s.childPids s'.childPids) : Accounts C invs s s' where
  scripts := ⟨[], by rw [hscripts, List.append_nil], by simp⟩
  files := fun path hne => absurd (congrFun hfiles path) hne
  dataOut := ⟨[], by rw [hdata, List.append_nil], by simp⟩
  children := hchildren

instance [Std.Refl C] : Std.Refl (Accounts C invs) := ⟨fun s => .unchanged rfl rfl rfl (refl_of C s.childPids)⟩

instance [IsTrans (List Int) C] : IsTrans HandlerState (Accounts C invs) := ⟨by
  rintro s t u ⟨⟨new, hnew, hjobs⟩, hfiles, ⟨sent, hsent, hget⟩, hchildren⟩
    ⟨⟨new', hnew', hjobs'⟩, hfiles', ⟨sent', hsent', hget'⟩, hchildren'⟩
  refine ⟨⟨new ++ new', by rw [hnew', hnew, List.append_assoc], ?_⟩, ?_, ⟨sent ++ sent', ?_, ?_⟩,
    trans_of C hchildren hchildren'⟩
  · intro file hfile
    rcases List.mem_append.mp hfile with hfile | hfile
    · exact hjobs file hfile
    · exact hjobs' file hfile
  · intro path hne
    by_cases hsame : t.files path = s.files path
    · exact hfiles' path (by rw [hsame]; exact hne)
    · exact hfiles path hsame
  · rw [hsent', hsent, List.append_assoc]
  · intro hne
    rcases eq_or_ne sent [] with rfl | hsome
    · exact hget' (by simpa using hne)
    · exact hget hsome⟩

theorem Accounts.mono {D : List Int → List Int → Prop} {invs' : List Invocation} (h : Accounts C invs s s')
    (hsub : invs ⊆ invs') (hchildren : D s.childPids s'.childPids) : Accounts D invs' s s' where
  scripts := h.scripts
  files := fun path hne =>
    let ⟨inv, hinv, hput⟩ := h.files path hne
    ⟨inv, hsub hinv, hput⟩
  dataOut :=
    let ⟨sent, hsent, hget⟩ := h.dataOut
    ⟨sent, hsent, fun hne => let ⟨inv, hinv, hcommand⟩ := hget hne; ⟨inv, hsub hinv, hcommand⟩⟩
  children := hchildren

theorem send_accounts (c : ConnCall) : Within (Accounts Appends invs) (send c) := by
  intro r s
  rw [send_run]
  split
  · exact .unchanged rfl rfl rfl (refl_of _ _)
  · show Accounts Appends invs s (acknowledge c _)
    unfold acknowledge
    split
    · exact .unchanged rfl rfl rfl (refl_of _ _)
    · exact .unchanged rfl rfl rfl (refl_of _ _)

theorem accounts_steps (invs : List Invocation) : TableSteps (Accounts Appends invs) where
  tick _ _ := .unchanged rfl rfl rfl (refl_of _ _)
  reply := send_accounts
  command _ _ := .unchanged rfl rfl rfl (refl_of _ _)
  child _ pid := .unchanged rfl rfl rfl ⟨[pid], rfl⟩
  script s name content hname :=
    { scripts := ⟨[(name, content)], rfl, by simpa using hname⟩
      files := fun _ hne => absurd rfl hne
      dataOut := ⟨[], (List.append_nil _).symm, by simp⟩
      children := refl_of _ _ }

end Accounts

/-- A call of a function of the table leaves what its request accounts for. -/
theorem function_accounts (v : Variant) {entry : Str × Function} (hentry : entry ∈ initFunctions v.bss)
    {inv : Invocation} (hcommand : inv.command = entry.1) (config : Settings) :
    Within (Accounts Appends [inv]) (entry.2 inv.message config) := by
  have hmem : inv ∈ [inv] := List.mem_singleton.mpr rfl
  rcases (accounts_steps [inv]).table v hentry with rfl | rfl | hsteps
  · refine (accounts_steps [inv]).getFileChunk (fun s data => ?_) inv.message config
    exact { scripts := ⟨[], (List.append_nil _).symm, by simp⟩
            files := fun _ hne => absurd rfl hne
            dataOut := ⟨data, rfl, fun _ => ⟨inv, hmem, hcommand⟩⟩
            children := refl_of _ _ }
  · refine (accounts_steps [inv]).putFileChunk (fun s data => .unchanged rfl rfl rfl (refl_of _ _)) (fun path hpath s bytes => ?_) config
    exact { scripts := ⟨[], (List.append_nil _).symm, by simp⟩
            files := fun p hne => by
              have hp : p = path := by
                by_contra hother
                exact hne (if_neg hother)
              exact ⟨inv, hmem, hcommand, hp ▸ hpath⟩
            dataOut := ⟨[], (List.append_nil _).symm, by simp⟩
            children := refl_of _ _ }
  · exact hsteps _ _

/-! ## One iteration -/

/-- The functions called since, and what they have done. -/
def Leaves (C : List Int → List Int → Prop) (w w' : Worker) : Prop :=
  ∃ invs, w'.invocations = w.invocations ++ invs ∧ Accounts C invs w.io w'.io

section Leaves

variable {C : List Int → List Int → Prop}

instance [Std.Refl C] : Std.Refl (Leaves C) := ⟨fun _ => ⟨[], (List.append_nil _).symm, refl_of _ _⟩⟩

instance [IsTrans (List Int) C] : IsTrans Worker (Leaves C) := ⟨by
  rintro w₁ w₂ w₃ ⟨invs, hinvs, haccounts⟩ ⟨invs', hinvs', haccounts'⟩
  refine ⟨invs ++ invs', by rw [hinvs', hinvs, List.append_assoc], ?_⟩
  have h₁ := haccounts.mono (List.subset_append_left invs invs') haccounts.children
  have h₂ := haccounts'.mono (List.subset_append_right invs invs') haccounts'.children
  exact trans_of _ h₁ h₂⟩

/-- Steps that do not touch the state of the handlers, but for the answers taken and what is to be uploaded. -/
theorem Leaves.unchanged [Std.Refl C] {w w' : Worker} (hinvs : w'.invocations = w.invocations)
    (hscripts : w'.io.scripts = w.io.scripts) (hfiles : w'.io.files = w.io.files)
    (hdata : w'.io.dataOut = w.io.dataOut) (hchildren : w'.io.childPids = w.io.childPids) : Leaves C w w' := by
  refine ⟨[], by rw [hinvs, List.append_nil], .unchanged hscripts hfiles hdata ?_⟩
  rw [hchildren]
  exact refl_of C _

end Leaves

theorem leaves_of_manages {α : Type} {x : WorkerM α} (hx : Within Manages x) : Within (Leaves Appends) x := by
  refine within_mono ?_ hx
  rintro w _ ⟨n, cred, environ, idCalls, pamEvents, pamSession, rfl⟩
  exact .unchanged rfl rfl rfl rfl rfl

theorem runHandler_leaves {α : Type} {x : Handler α} (hx : Within (Accounts Appends []) x) :
    Within (Leaves Appends) (runHandler x) := by
  intro r w
  exact ⟨[], (List.append_nil _).symm, hx _ w.io⟩

section Iteration

variable {v : Variant} {config : Settings}

theorem attemptFunction_leaves {entry : Str × Function} (hentry : entry ∈ initFunctions v.bss) (msg : Str)
    (openUserSession : Bool) : Within (Leaves Appends) (attemptFunction entry.2 entry.1 msg openUserSession config) := by
  have hinvoke : Within (Leaves Appends) (invoke entry.2 entry.1 msg config) := by
    intro r w
    have hcall : Within (Accounts Appends [⟨entry.1, msg, w.cred⟩]) (entry.2 msg config) :=
      function_accounts v hentry rfl config
    exact ⟨[⟨entry.1, msg, w.cred⟩], rfl, hcall _ w.io⟩
  unfold attemptFunction
  split
  · exact within_bind (leaves_of_manages (assumeIdentity_manages _ _ _)) fun _ => hinvoke
  · exact hinvoke

theorem runFunction_leaves {entry : Str × Function} (hentry : entry ∈ initFunctions v.bss) (msg : Str)
    (openUserSession : Bool) : Within (Leaves Appends) (runFunction entry.2 entry.1 msg openUserSession config) := by
  refine within_bind (within_modify fun w => .unchanged rfl rfl rfl rfl rfl) fun _ => ?_
  refine within_bind ?_ fun _ => leaves_of_manages (afterCall_manages config entry.1 openUserSession)
  exact within_handle (attemptFunction_leaves hentry msg openUserSession) fun e => runHandler_leaves (send_accounts _)

/-- The children of a forked process are not the children of the worker. -/
theorem inChild_leaves {x : WorkerM Unit} (hx : Within (Leaves Appends) x) : Within (Leaves Appends) (inChild x) := by
  intro r w
  obtain ⟨invs, hinvs, haccounts⟩ := hx r w
  have hafter : Leaves Appends w (afterChild w (x r w).2) :=
    ⟨invs, hinvs, { haccounts with children := refl_of _ _ }⟩
  rw [inChild]
  rcases hrun : x r w with ⟨_ | e | _, w'⟩ <;> rw [hrun] at hafter <;> exact hafter

theorem sysCall_leaves (c : SysCall) : Within (Leaves Appends) (runHandler (sysCall c)) :=
  leaves_of_manages (runHandler_manages (sysCall_ticks c))

theorem answer_leaves (message : Str) : Within (Leaves Appends) (answer (initFunctions v.bss) message config) := by
  unfold answer
  split
  · exact runHandler_leaves (send_accounts _)
  · rename_i command function hfind
    have hentry : (command, function) ∈ initFunctions v.bss := List.mem_of_find?_eq_some hfind
    split
    · exact runHandler_leaves (send_accounts _)
    · unfold handleFunction
      split
      · refine within_bind (sysCall_leaves _) fun _ => ?_
        exact within_bind (inChild_leaves (runFunction_leaves hentry message _)) fun _ => sysCall_leaves _
      · exact runFunction_leaves hentry message _

theorem nextMessage_leaves : Within (Leaves Appends) nextMessage := by
  have hread : Within (Leaves Appends) readMessage := by
    refine within_bind within_get fun w => ?_
    cases readLines [] w.controlIn with
    | none => exact within_bind (within_modify fun w => .unchanged rfl rfl rfl rfl rfl) fun _ => within_raise _
    | some p => exact within_bind (within_modify fun w => .unchanged rfl rfl rfl rfl rfl) fun _ => within_pure _
  refine within_handle (within_bind hread fun _ => within_pure _) fun e => ?_
  split
  · exact within_pure _
  · exact within_raise _

/-- What follows `cleanup` in an iteration. -/
def afterCleanup (functions : List (Str × Function)) (config : Settings) (oneShot : Bool) : WorkerM Bool := do
  let next ← nextMessage
  match next with
  | none =>
      modify fun w => { w with closed := true }
      return false
  | some message =>
      peerPrepares
      processMessage functions message config
      return !(oneShot || config.testing)

theorem round_eq (functions : List (Str × Function)) (oneShot : Bool) :
    round functions config oneShot = (runHandler cleanup >>= fun _ => afterCleanup functions config oneShot) := rfl

theorem afterCleanup_leaves (oneShot : Bool) : Within (Leaves Appends) (afterCleanup (initFunctions v.bss) config oneShot) := by
  refine within_bind nextMessage_leaves fun next => ?_
  cases next with
  | none => exact within_bind (within_modify fun w => .unchanged rfl rfl rfl rfl rfl) fun _ => within_pure _
  | some message =>
      refine within_bind (within_modify fun w => .unchanged rfl rfl rfl rfl rfl) fun _ => ?_
      refine within_bind ?_ fun _ => within_pure _
      refine within_bind (sysCall_leaves _) fun _ => ?_
      exact within_bind (answer_leaves message) fun _ => runHandler_leaves (send_accounts _)

end Iteration

/-! ## Collecting children -/

section Cleanup

variable {r : HandlerCtx} {pid : Int}

/-- A child is taken off the list if and only if it is no more; otherwise nothing but the question has happened. -/
theorem reapChild_cases (pid : Int) (r : HandlerCtx) (s : HandlerState) :
    (Gone r.host s.tick pid ∧
        reapChild pid r s = (.done (), { s with tick := s.tick + 1, childPids := s.childPids.erase pid })) ∨
      ¬ Gone r.host s.tick pid ∧ (reapChild pid r s).2 = { s with tick := s.tick + 1 } := by
  have hask := attempt_run (fun h t => h.waitpid t pid) r s
  rcases hanswer : r.host.waitpid s.tick pid with e | n
  · rw [hanswer] at hask
    have hrun : reapChild pid r s =
        (if isChildProcessError e then removeChild pid else raise e) r { s with tick := s.tick + 1 } :=
      handle_run_raised (bind_run_raised hask)
    rw [hrun]
    cases he : isChildProcessError e with
    | true => exact Or.inl ⟨Or.inr ⟨e, hanswer, he⟩, rfl⟩
    | false =>
        refine Or.inr ⟨?_, rfl⟩
        rintro (⟨n, hn, -⟩ | ⟨e', he', hchild⟩)
        · rw [hanswer] at hn
          cases hn
        · rw [hanswer, Except.error.injEq] at he'
          rw [he', hchild] at he
          cases he
  · rw [hanswer] at hask
    by_cases hn : n = 0
    · have hrun : reapChild pid r s = (.done (), { s with tick := s.tick + 1 }) := by
        apply handle_run_done
        rw [bind_run_done hask, hn]
        rfl
      refine Or.inr ⟨?_, by rw [hrun]⟩
      rintro (⟨m, hm, hne⟩ | ⟨e, he, -⟩)
      · rw [hanswer, Except.ok.injEq] at hm
        exact hne (hm.symm.trans hn)
      · rw [hanswer] at he
        cases he
    · refine Or.inl ⟨Or.inl ⟨n, hanswer, hn⟩, ?_⟩
      apply handle_run_done
      rw [bind_run_done hask, if_pos hn]
      rfl

theorem cleanup_waits (r : HandlerCtx) (s : HandlerState) : Waits r.host s.childPids (cleanup r s).2.childPids := by
  have hfrom : ∀ n i (s : HandlerState), Waits r.host s.childPids (cleanupFrom n i r s).2.childPids := by
    intro n
    induction n with
    | zero => exact fun i s => refl_of _ _
    | succ n ih =>
        intro i s
        rw [cleanupFrom, bind_run_done get_run]
        cases s.childPids[i]? with
        | none => exact refl_of _ _
        | some child =>
            have hreap : Waits r.host s.childPids (reapChild child r s).2.childPids := by
              rcases reapChild_cases child r s with ⟨hgone, hrun⟩ | ⟨-, hrun⟩
              · rw [hrun]
                intro pid hpid
                rcases eq_or_ne pid child with rfl | hne
                · exact Or.inr ⟨s.tick, hgone⟩
                · exact Or.inl ((List.mem_erase_of_ne hne).mpr hpid)
              · rw [hrun]
                exact refl_of _ _
            refine bind_post (P := fun t : HandlerState => Waits r.host s.childPids t.childPids) hreap ?_
            intro _ t hrun
            rw [hrun] at hreap
            exact trans_of _ hreap (ih (i + 1) t)
  exact hfrom _ _ s

end Cleanup

/-! ## Runs -/

section Runs

variable {v : Variant} {config : Settings} {oneShot : Bool} {r : WorkerCtx}

theorem cleanup_leaves (w : Worker) : Leaves (Waits r.host) w (runHandler cleanup r w).2 := by
  have hwaits := cleanup_waits { host := r.host, environ := w.environ, fuel := r.fuel } w.io
  obtain ⟨n, pids, hreaps⟩ := cleanup_reaps { host := r.host, environ := w.environ, fuel := r.fuel } w.io
  refine ⟨[], (List.append_nil _).symm, ?_⟩
  show Accounts (Waits r.host) [] w.io (cleanup _ w.io).2
  refine .unchanged ?_ ?_ ?_ hwaits
  · rw [hreaps]
  · rw [hreaps]
  · rw [hreaps]

theorem round_leaves (head : Worker) :
    Leaves (Waits r.host) head (round (initFunctions v.bss) config oneShot r head).2 := by
  have hclean : Leaves (Waits r.host) head (runHandler cleanup r head).2 := cleanup_leaves head
  have hafter : Within (Leaves Appends) (afterCleanup (initFunctions v.bss) config oneShot) := afterCleanup_leaves oneShot
  rw [round_eq]
  refine bind_post hclean ?_
  intro _ w hrun
  rw [hrun] at hclean
  obtain ⟨invs, hinvs, haccounts⟩ := hafter r w
  exact trans_of _ hclean ⟨invs, hinvs, haccounts.mono (List.Subset.refl _) (haccounts.children.waits r.host)⟩

/-- **What a run leaves behind.**  Of the files a worker has changed each was named by an upload it handled, and all
others it has written are job scripts; it has sent data only for downloads; and it waits for every child until it is
no more. -/
theorem footprint_of_run {start : Worker} (fuel : Nat) :
    Leaves (Waits r.host) start (process (initFunctions v.bss) config oneShot fuel r start).2 := by
  obtain ⟨head, hreach, hfinal⟩ := process_final fuel start
  have hhead : Leaves (Waits r.host) start head :=
    hreach.invariant (fun head next hhead hround => by
      have hnext : Leaves (Waits r.host) head (round (initFunctions v.bss) config oneShot r head).2 := round_leaves head
      rw [hround] at hnext
      exact trans_of _ hhead hnext) (refl_of _ _)
  rcases hfinal with hfinal | hfinal
  · rw [hfinal]
    exact hhead
  · rw [hfinal]
    exact trans_of _ hhead (round_leaves head)

end Runs

/-! ## A child that has ended -/

section Front

variable {pid a : Int}

theorem idxOf_erase_le (hne : a ≠ pid) (l : List Int) : (l.erase a).idxOf pid ≤ l.idxOf pid := by
  induction l with
  | nil => simp
  | cons b l ih =>
      by_cases hb : b = a
      · rw [hb, List.erase_cons_head, List.idxOf_cons_ne _ hne]
        omega
      · rw [List.erase_cons_tail (by simpa using hb)]
        by_cases hp : b = pid
        · rw [hp, List.idxOf_cons_self]
          omega
        · rw [List.idxOf_cons_ne _ hp, List.idxOf_cons_ne _ hp]
          omega

/-- What is removed before the child brings it one place forward. -/
theorem idxOf_erase_lt {l : List Int} {i : Nat} (hat : l[i]? = some a) (hi : i < l.idxOf pid) :
    (l.erase a).idxOf pid < l.idxOf pid := by
  induction l generalizing i with
  | nil => simp at hat
  | cons b l ih =>
      by_cases hp : b = pid
      · rw [hp, List.idxOf_cons_self] at hi
        omega
      · rw [List.idxOf_cons_ne _ hp] at hi ⊢
        by_cases hb : b = a
        · rw [hb, List.erase_cons_head]
          omega
        · rw [List.erase_cons_tail (by simpa using hb), List.idxOf_cons_ne _ hp]
          cases i with
          | zero => exact absurd (by simpa using hat) hb
          | succ i =>
              have hlater := ih (by simpa using hat) (by omega)
              omega

/-- Entries for the child have been removed, or it has not moved back. -/
structure NoLater (pid : Int) (l l' : List Int) : Prop where
  count_le : l'.count pid ≤ l.count pid
  idx_le : l'.count pid = l.count pid → l'.idxOf pid ≤ l.idxOf pid

instance : Std.Refl (NoLater pid) := ⟨fun _ => ⟨le_rfl, fun _ => le_rfl⟩⟩

instance : IsTrans (List Int) (NoLater pid) := ⟨fun _ _ _ h h' => by
  refine ⟨h'.count_le.trans h.count_le, fun heq => ?_⟩
  have hfirst := h.count_le
  have hsecond := h'.count_le
  exact (h'.idx_le (by omega)).trans (h.idx_le (by omega))⟩

theorem noLater_erase (a : Int) (l : List Int) : NoLater pid l (l.erase a) := by
  rcases eq_or_ne a pid with rfl | hne
  · have hcount := List.count_erase_self (a := a) (l := l)
    refine ⟨by omega, fun heq => ?_⟩
    have hnone : a ∉ l := List.count_eq_zero.mp (by omega)
    rw [List.erase_of_not_mem hnone]
  · exact ⟨(List.count_erase_of_ne (Ne.symm hne)).le, fun _ => idxOf_erase_le hne l⟩

variable {r : HandlerCtx}

theorem reapChild_noLater (child : Int) (s : HandlerState) :
    NoLater pid s.childPids (reapChild child r s).2.childPids := by
  rcases reapChild_cases child r s with ⟨-, hrun⟩ | ⟨-, hrun⟩
  · rw [hrun]
    exact noLater_erase child _
  · rw [hrun]
    exact refl_of _ _

theorem cleanupFrom_noLater (r : HandlerCtx) (n i : Nat) (s : HandlerState) :
    NoLater pid s.childPids (cleanupFrom n i r s).2.childPids := by
  induction n generalizing i s with
  | zero => exact refl_of _ _
  | succ n ih =>
      rw [cleanupFrom, bind_run_done get_run]
      cases s.childPids[i]? with
      | none => exact refl_of _ _
      | some child =>
          have hreap : NoLater pid s.childPids (reapChild child r s).2.childPids := reapChild_noLater child s
          refine bind_post (P := fun t : HandlerState => NoLater pid s.childPids t.childPids) hreap ?_
          intro _ t hrun
          rw [hrun] at hreap
          exact trans_of _ hreap (ih (i + 1) t)

/-- When the child is asked about it is collected. -/
theorem cleanupFrom_at {n i : Nat} {s : HandlerState} (hat : s.childPids[i]? = some pid)
    (hgone : Gone r.host s.tick pid) : (cleanupFrom (n + 1) i r s).2.childPids.count pid < s.childPids.count pid := by
  have hmem : pid ∈ s.childPids := List.mem_of_getElem? hat
  have hcount := List.count_erase_self (a := pid) (l := s.childPids)
  have hpos := List.count_pos_iff.mpr hmem
  rcases reapChild_cases pid r s with ⟨-, hrun⟩ | ⟨hno, -⟩
  · rw [cleanupFrom, bind_run_done get_run, hat]
    dsimp only
    rw [bind_run_done hrun]
    have hlater : NoLater pid (s.childPids.erase pid) _ :=
      cleanupFrom_noLater r n (i + 1) { s with tick := s.tick + 1, childPids := s.childPids.erase pid }
    have hle := hlater.count_le
    omega
  · exact absurd hgone hno

/-- A pass that comes to its end collects the child or brings it forward. -/
theorem cleanupFrom_closer {n i : Nat} {s s' : HandlerState} (hmem : pid ∈ s.childPids)
    (hi : i ≤ s.childPids.idxOf pid) (hn : s.childPids.idxOf pid < i + n)
    (hgone : ∀ k < n, Gone r.host (s.tick + k) pid) (hrun : cleanupFrom n i r s = (.done (), s')) :
    s'.childPids.count pid < s.childPids.count pid ∨ s'.childPids.idxOf pid < s.childPids.idxOf pid := by
  induction n generalizing i s with
  | zero => omega
  | succ n ih =>
      have hlt : i < s.childPids.length := by
        have hidx := List.idxOf_lt_length_iff.mpr hmem
        omega
      obtain ⟨child, hat⟩ : ∃ child, s.childPids[i]? = some child := ⟨_, List.getElem?_eq_getElem hlt⟩
      rcases eq_or_ne child pid with rfl | hne
      · left
        have hless := cleanupFrom_at (n := n) hat (hgone 0 (Nat.succ_pos n))
        rw [hrun] at hless
        exact hless
      · have hbefore : i < s.childPids.idxOf pid := by
          rcases Nat.lt_or_ge i (s.childPids.idxOf pid) with hlt' | hge
          · exact hlt'
          · have heq : i = s.childPids.idxOf pid := le_antisymm hi hge
            rw [heq, List.getElem?_idxOf hmem] at hat
            exact absurd (Option.some.inj hat).symm hne
        rw [cleanupFrom, bind_run_done get_run, hat] at hrun
        dsimp only at hrun
        rcases reapChild_cases child r s with ⟨-, hreap⟩ | ⟨-, hreap⟩
        · -- the child before it goes, and the rest of the pass moves nothing back
          rw [bind_run_done hreap] at hrun
          have hlater : NoLater pid (s.childPids.erase child) s'.childPids := by
            have hrest : NoLater pid (s.childPids.erase child) _ :=
              cleanupFrom_noLater r n (i + 1) { s with tick := s.tick + 1, childPids := s.childPids.erase child }
            rw [hrun] at hrest
            exact hrest
          have hcount : (s.childPids.erase child).count pid = s.childPids.count pid :=
            List.count_erase_of_ne (Ne.symm hne)
          have hless := idxOf_erase_lt hat hbefore
          rcases Nat.lt_or_eq_of_le hlater.count_le with hfewer | hsame
          · left
            omega
          · right
            have hle := hlater.idx_le hsame
            omega
        · obtain ⟨_, t, hdone, hrest⟩ := bind_eq_done.mp hrun
          rw [hdone] at hreap
          obtain rfl : t = { s with tick := s.tick + 1 } := hreap
          have hn' : s.childPids.idxOf pid < i + 1 + n := by omega
          refine ih (s := { s with tick := s.tick + 1 }) hmem hbefore hn' ?_ hrest
          intro k hk
          have hlater := hgone (k + 1) (by omega)
          rw [show s.tick + (k + 1) = s.tick + 1 + k by omega] at hlater
          exact hlater

end Front

section Collecting

variable {v : Variant} {config : Settings} {oneShot : Bool} {r : WorkerCtx} {pid : Int} {w w' : Worker}

/-- The child is no more when the `cleanup` that starts at `w` asks about it. -/
def Ended (host : Host) (pid : Int) (w : Worker) : Prop :=
  ∀ k < w.io.childPids.length, Gone host (w.io.tick + k) pid

/-- `cleanup` takes an entry for the child off the list. -/
def Collects (r : WorkerCtx) (pid : Int) (w : Worker) : Prop :=
  (runHandler cleanup r w).2.io.childPids.count pid < w.io.childPids.count pid

theorem collects_front (hmem : pid ∈ w.io.childPids) (hfront : w.io.childPids.idxOf pid = 0)
    (hended : Ended r.host pid w) : Collects r pid w := by
  have hat : w.io.childPids[0]? = some pid := by
    rw [← hfront]
    exact List.getElem?_idxOf hmem
  obtain ⟨n, hn⟩ : ∃ n, w.io.childPids.length = n + 1 :=
    ⟨_, (Nat.sub_add_cancel (List.length_pos_of_mem hmem)).symm⟩
  unfold Collects
  rw [runHandler_run]
  show (cleanup _ w.io).2.childPids.count pid < _
  rw [cleanup, bind_run_done get_run, hn]
  refine cleanupFrom_at hat ?_
  have hnow := hended 0 (by omega)
  rw [Nat.add_zero] at hnow
  exact hnow

/-- An iteration collects a child that has ended, or brings it forward: what comes after `cleanup` only adds children
behind it. -/
theorem round_closer (hmem : pid ∈ w.io.childPids) (hended : Ended r.host pid w)
    (hround : round (initFunctions v.bss) config oneShot r w = (.done true, w')) :
    Collects r pid w ∨ pid ∈ w'.io.childPids ∧ w'.io.childPids.idxOf pid < w.io.childPids.idxOf pid := by
  rw [round_eq] at hround
  obtain ⟨_, w₁, hclean, hafter⟩ := bind_eq_done.mp hround
  have hleaves : Leaves Appends w₁ w' := by
    have h : Leaves Appends w₁ (afterCleanup (initFunctions v.bss) config oneShot r w₁).2 :=
      afterCleanup_leaves oneShot r w₁
    rw [hafter] at h
    exact h
  obtain ⟨_, -, haccounts⟩ := hleaves
  obtain ⟨new, hnew⟩ := haccounts.children
  obtain ⟨s₁, hpass, rfl⟩ : ∃ s₁, cleanup { host := r.host, environ := w.environ, fuel := r.fuel } w.io = (.done (), s₁) ∧
      w₁ = { w with io := s₁ } := by
    rw [runHandler_run, Prod.mk.injEq] at hclean
    exact ⟨_, Prod.ext hclean.1 rfl, hclean.2.symm⟩
  rw [cleanup, bind_run_done get_run] at hpass
  have hidx := List.idxOf_lt_length_iff.mpr hmem
  have hlater : NoLater pid w.io.childPids s₁.childPids := by
    have h : NoLater pid w.io.childPids _ :=
      cleanupFrom_noLater { host := r.host, environ := w.environ, fuel := r.fuel } w.io.childPids.length 0 w.io
    rw [hpass] at h
    exact h
  rcases Nat.lt_or_eq_of_le hlater.count_le with hfewer | hsame
  · left
    unfold Collects
    rw [hclean]
    exact hfewer
  · right
    have hkept : pid ∈ s₁.childPids := by
      apply List.count_pos_iff.mp
      rw [hsame]
      exact List.count_pos_iff.mpr hmem
    have hcloser : s₁.childPids.count pid < w.io.childPids.count pid ∨
        s₁.childPids.idxOf pid < w.io.childPids.idxOf pid := by
      refine cleanupFrom_closer hmem (Nat.zero_le _) ?_ ?_ hpass
      · omega
      · exact hended
    rw [hnew, List.idxOf_append_of_mem hkept]
    refine ⟨List.mem_append_left _ hkept, ?_⟩
    rcases hcloser with hfewer | hcloser
    · omega
    · exact hcloser

/-- **A child that has ended is collected.**  `cleanup` may pass over it in an iteration, because it changes the list
it runs over; but it is collected after at most as many more iterations as there were children before it. -/
theorem ended_child_collected {heads : Nat → Worker} {p : Nat}
    (hrun : ∀ j < p, round (initFunctions v.bss) config oneShot r (heads j) = (.done true, heads (j + 1)))
    (hmem : pid ∈ (heads 0).io.childPids) (hidx : (heads 0).io.childPids.idxOf pid ≤ p)
    (hended : ∀ j ≤ p, Ended r.host pid (heads j)) : ∃ j ≤ p, Collects r pid (heads j) := by
  by_contra hnone
  push Not at hnone
  have hcloser : ∀ j ≤ p, pid ∈ (heads j).io.childPids ∧ (heads j).io.childPids.idxOf pid + j ≤ p := by
    intro j
    induction j with
    | zero => exact fun _ => ⟨hmem, by omega⟩
    | succ j ih =>
        intro hj
        obtain ⟨hkept, hle⟩ := ih (by omega)
        rcases round_closer hkept (hended j (by omega)) (hrun j (by omega)) with hcollects | ⟨hkept', hlt⟩
        · exact absurd hcollects (hnone j (by omega))
        · exact ⟨hkept', by omega⟩
  obtain ⟨hkept, hle⟩ := hcloser p le_rfl
  exact hnone p le_rfl (collects_front hkept (by omega) (hended p le_rfl))

/-- A worker with two children that have ended, at the first two heads of the loop. -/
def twoEndedHeads : Nat → Worker
  | 0 => { Worker.fresh ["#TSI_PING\n".toList, "ENDOFMESSAGE\n".toList] with io := withChildren [11, 12] }
  | j + 1 => (round (initFunctions BssNobatch.nobatch) {} false ⟨endedHost [11, 12], 10⟩ (twoEndedHeads j)).2

/-- The second is passed over once. -/
theorem ended_child_collected_second : ∃ j ≤ 1, Collects ⟨endedHost [11, 12], 10⟩ 12 (twoEndedHeads j) := by
  have hgone : ∀ t, Gone (endedHost [11, 12]) t 12 := fun t => Or.inl ⟨12, rfl, by omega⟩
  have hdone : (round (initFunctions BssNobatch.nobatch) {} false ⟨endedHost [11, 12], 10⟩ (twoEndedHeads 0)).1 =
      .done true := by decide +kernel
  have hrun : ∀ j < 1, round (initFunctions BssNobatch.nobatch) {} false ⟨endedHost [11, 12], 10⟩ (twoEndedHeads j) =
      (.done true, twoEndedHeads (j + 1)) := by
    intro j hj
    obtain rfl : j = 0 := by omega
    exact Prod.ext hdone rfl
  exact ended_child_collected (v := .nobatch) hrun (by decide) (by decide) fun j _ k _ => hgone _

end Collecting

end UnicoreTsi.Tsi
