/-
# UnicoreTsi.GroupConfinement — which gids a request can be given.

On an unchanging user database the group resolution of `become_user` is a function: `resolved` computes
what `resolveIdentity` finds for an account, and `resolveIdentity_yields` says so.  A gid is *granted* to
a user when it is his passwd gid or one of his groups.  The primary gid is always granted; the
supplementary ones are exactly the gids of the known requested groups (with the user's own groups for
`DEFAULT_GID`), foreign groups included unless `tsi.fail_on_invalid_gids` makes them an error.
-/
import UnicoreTsi.BecomeUser

set_option autoImplicit false

namespace UnicoreTsi.BecomeUser

open UnicoreTsi.Text UnicoreTsi.Effects UnicoreTsi.Utils

/-! ## Granted gids -/

/-- The gid is one the operating system grants to the user. -/
def Granted (db : UserDb) (user : Str) (g : Int) : Prop :=
  ∃ entry gids, db.Resolves user entry gids ∧ (g = entry.gid ∨ g ∈ gids)

/-- The gids an identity-changing call puts in force. -/
def gidsPassed : SysCall → List Int
  | .setgid g => [g]
  | .setegid g => [g]
  | .setgroups gs => gs
  | _ => []

/-- Every gid that `become_user` passes to the kernel for this request is granted, whatever the calls
return. -/
def Confined (db : UserDb) (user : Str) (groups : List Str) (config : Settings) : Prop :=
  ∀ (host : Host), (∀ t, host.userCache t = db.cache) → ∀ (fuel : Nat) (w : Worker),
    ∀ c ∈ (becomeUser user groups config ⟨host, fuel⟩ w).2.idCalls.drop w.idCalls.length,
      ∀ g ∈ gidsPassed c, Granted db user g

theorem resolves_unique {db : UserDb} {user : Str} {e e' : Passwd} {gids gids' : List Int}
    (h : db.Resolves user e gids) (h' : db.Resolves user e' gids') : e = e' ∧ gids = gids' := by
  obtain ⟨he, hg⟩ := h
  obtain ⟨he', hg'⟩ := h'
  obtain rfl : e = e' := Option.some.inj (he.symm.trans he')
  exact ⟨rfl, Except.ok.inj (hg.symm.trans hg')⟩

theorem granted_iff {db : UserDb} {user : Str} {entry : Passwd} {gids : List Int}
    (h : db.Resolves user entry gids) (g : Int) :
    Granted db user g ↔ g = entry.gid ∨ g ∈ gids := by
  constructor
  · rintro ⟨entry', gids', h', hg⟩
    obtain ⟨rfl, rfl⟩ := resolves_unique h h'
    exact hg
  · exact fun hg => ⟨entry, gids, h, hg⟩

/-! ## Resolution as a function of the database -/

section Resolution

variable (db : UserDb) (user : Str) (entry : Passwd) (gids : List Int) (fail : Bool)

/-- The gid of a group name, `-1` for an unknown group. -/
def groupGid (name : Str) : Int := (db.getgrnam name).getD (-1)

def primaryGid (primary : Str) : Except PyExc Int :=
  if primary = defaultGid then .ok entry.gid
  else if groupGid db primary = -1 then
    if fail then .error (unknownPrimary primary) else .ok entry.gid
  else if groupGid db primary = entry.gid ∨ groupGid db primary ∈ gids then
    .ok (groupGid db primary)
  else if fail then .error (notAMember user primary)
  else .ok entry.gid

/-- The gids collected for the remaining names; `supGids` are those collected so far. -/
def addedGids : List Str → Bool → List Int → Except PyExc (List Int)
  | [], _, supGids => .ok supGids
  | g :: rest, addedDefault, supGids =>
      if g = defaultGid then
        if addedDefault then addedGids rest true supGids
        else addedGids rest true (gids.foldl putKey supGids)
      else if groupGid db g = -1 then
        if fail then .error (unknownSupplementary g) else addedGids rest addedDefault supGids
      else if ¬(groupGid db g = entry.gid ∨ groupGid db g ∈ gids) ∧ fail = true then
        .error (notAMember user g)
      else addedGids rest addedDefault (putKey supGids (groupGid db g))

/-- What `become_user` resolves for an account. -/
def resolved (groups : List Str) : Except PyExc (Int × Int × List Int) :=
  match groups.head? with
  | none => .error (indexError "list index out of range")
  | some primary =>
      if entry.uid = -1 then .error (unknownUser user)
      else if entry.uid = 0 then .error (rootUser user)
      else if primary = noneGroup then .ok (entry.uid, entry.gid, gids)
      else do
        let newGid ← primaryGid db user entry gids fail primary
        let newGids ← addedGids db user entry gids fail groups false (putKey [] newGid)
        return (entry.uid, newGid, newGids)

end Resolution

/-! ## The model computes that function -/

/-- Only answers of the host were taken. -/
def Asks (w w' : Worker) : Prop := ∃ n, w' = { w with io := { w.io with tick := n } }

instance : Std.Refl Asks := ⟨fun w => ⟨w.io.tick, rfl⟩⟩

instance : IsTrans Worker Asks := ⟨by
  rintro _ _ _ ⟨_, rfl⟩ ⟨n, rfl⟩
  exact ⟨n, rfl⟩⟩

section Stable

variable {db : UserDb} {user : Str} {entry : Passwd} {gids : List Int} {host : Host} (fuel : Nat)
variable {config : Settings}

theorem lookup_yields (hcache : ∀ t, host.userCache t = db.cache) {α : Type}
    (f : UserCache → Except PyExc α) :
    Yields Asks ⟨host, fuel⟩ (lookup f) (f db.cache) := by
  intro w
  refine ⟨{ w with io := { w.io with tick := w.io.tick + 1 } }, ⟨_, rfl⟩, ?_⟩
  rw [lookup, runHandler_run, attempt_run]
  simp only [hcache]
  cases f db.cache <;> rfl

section Account

variable (hcache : ∀ t, host.userCache t = db.cache) (hres : db.Resolves user entry gids)
include hcache hres

theorem lookup_uid_yields :
    Yields Asks ⟨host, fuel⟩ (lookup (·.getUid4user user)) (.ok entry.uid) := by
  have h := lookup_yields fuel hcache (·.getUid4user user)
  rwa [show db.cache.getUid4user user = .ok entry.uid from db.userField_of_resolves hres _ _] at h

theorem lookup_gid_yields :
    Yields Asks ⟨host, fuel⟩ (lookup (·.getGid4user user)) (.ok entry.gid) := by
  have h := lookup_yields fuel hcache (·.getGid4user user)
  rwa [show db.cache.getGid4user user = .ok entry.gid from db.userField_of_resolves hres _ _] at h

theorem lookup_gids_yields :
    Yields Asks ⟨host, fuel⟩ (lookup (·.getGids4user user)) (.ok gids) := by
  have h := lookup_yields fuel hcache (·.getGids4user user)
  rwa [show db.cache.getGids4user user = .ok gids from db.userField_of_resolves hres _ _] at h

theorem checkMembership_yields (henforce : config.enforceOsGids = true) (g : Int) :
    Yields Asks ⟨host, fuel⟩ (checkMembership g user config)
      (.ok (decide (g = entry.gid ∨ g ∈ gids))) := by
  rw [checkMembership, if_pos henforce]
  apply yields_bind_ok (lookup_gid_yields fuel hcache hres)
  by_cases hg : g = entry.gid
  · rw [if_pos hg, decide_eq_true (Or.inl hg)]
    exact yields_pure true
  · rw [if_neg hg]
    apply yields_bind_ok (lookup_gids_yields fuel hcache hres)
    rw [show decide (g = entry.gid ∨ g ∈ gids) = decide (g ∈ gids) by simp [hg]]
    exact yields_pure _

theorem requestedGid_yields (config : Settings) (primary : Str) :
    Yields Asks ⟨host, fuel⟩ (requestedGid primary user config)
      (if groupGid db primary = -1 then
        if config.failOnInvalidGids then .error (unknownPrimary primary) else .ok entry.gid
      else .ok (groupGid db primary)) := by
  unfold requestedGid
  apply yields_bind_ok (lookup_yields fuel hcache (·.getGid4group primary))
  show Yields Asks _ (if groupGid db primary = -1 then _ else pure (groupGid db primary)) _
  split
  · split
    · exact yields_raise _
    · exact lookup_gid_yields fuel hcache hres
  · exact yields_pure _

theorem getPrimaryGroup_yields (henforce : config.enforceOsGids = true) (primary : Str) :
    Yields Asks ⟨host, fuel⟩ (getPrimaryGroup primary user config)
      (primaryGid db user entry gids config.failOnInvalidGids primary) := by
  have hgid := lookup_gid_yields fuel hcache hres
  have hrequested := requestedGid_yields fuel hcache hres config primary
  have hmember := checkMembership_yields fuel hcache hres henforce
  unfold getPrimaryGroup primaryGid
  split
  · exact hgid
  · by_cases hknown : groupGid db primary = -1
    · rw [if_pos hknown] at hrequested
      rw [if_pos hknown]
      by_cases hfail : config.failOnInvalidGids = true
      · simp only [hfail, if_true] at hrequested ⊢
        exact yields_bind_error hrequested
      · simp only [hfail] at hrequested ⊢
        -- the user's own gid passes the membership check
        apply yields_bind_ok hrequested
        apply yields_bind_ok (hmember entry.gid)
        rw [if_pos (by simp)]
        exact yields_pure _
    · rw [if_neg hknown] at hrequested
      rw [if_neg hknown]
      apply yields_bind_ok hrequested
      apply yields_bind_ok (hmember _)
      by_cases hg : groupGid db primary = entry.gid ∨ groupGid db primary ∈ gids
      · rw [if_pos (decide_eq_true hg), if_pos hg]
        exact yields_pure _
      · rw [if_neg (by simpa using hg), if_neg hg]
        split
        · exact yields_raise _
        · exact hgid

theorem addGroups_yields (henforce : config.enforceOsGids = true) (names : List Str)
    (addedDefault : Bool) (supGids : List Int) :
    Yields Asks ⟨host, fuel⟩ (addGroups user config names addedDefault supGids)
      (addedGids db user entry gids config.failOnInvalidGids names addedDefault supGids) := by
  induction names generalizing addedDefault supGids with
  | nil => exact yields_pure _
  | cons g rest ih =>
      unfold addGroups addedGids
      split
      · split
        · exact ih true supGids
        · exact yields_bind_ok (lookup_gids_yields fuel hcache hres) (ih true _)
      · apply yields_bind_ok (lookup_yields fuel hcache (·.getGid4group g))
        by_cases hknown : groupGid db g = -1
        · rw [if_pos (show (db.getgrnam g).getD (-1) = -1 from hknown), if_pos hknown]
          split
          · exact yields_raise _
          · exact ih addedDefault supGids
        · rw [if_neg (show ¬(db.getgrnam g).getD (-1) = -1 from hknown), if_neg hknown]
          apply yields_bind_ok (checkMembership_yields fuel hcache hres henforce _)
          by_cases hg : ¬(groupGid db g = entry.gid ∨ groupGid db g ∈ gids) ∧
              config.failOnInvalidGids = true
          · rw [if_pos (by simpa [groupGid] using hg), if_pos hg]
            exact yields_raise _
          · rw [if_neg (by simpa [groupGid] using hg), if_neg hg]
            exact ih addedDefault _

theorem resolveIdentity_yields (henforce : config.enforceOsGids = true) (groups : List Str) :
    Yields Asks ⟨host, fuel⟩ (resolveIdentity user groups config)
      (resolved db user entry gids config.failOnInvalidGids groups) := by
  unfold resolveIdentity resolved
  cases groups.head? with
  | none => exact yields_bind_error (yields_raise _)
  | some primary =>
      apply yields_bind_ok (yields_pure primary)
      apply yields_bind_ok (lookup_uid_yields fuel hcache hres)
      simp only []
      by_cases hunknown : entry.uid = -1
      · rw [if_pos hunknown, if_pos hunknown]
        exact yields_raise _
      · rw [if_neg hunknown, if_neg hunknown]
        by_cases hroot : entry.uid = 0
        · rw [if_pos hroot, if_pos hroot]
          exact yields_raise _
        · rw [if_neg hroot, if_neg hroot]
          split
          · apply yields_bind_ok (lookup_gid_yields fuel hcache hres)
            apply yields_bind_ok (lookup_gids_yields fuel hcache hres)
            exact yields_pure _
          · apply yields_bind (getPrimaryGroup_yields fuel hcache hres henforce primary)
            intro newGid
            apply yields_bind (addGroups_yields fuel hcache hres henforce groups false _)
            exact fun newGids => yields_pure _

end Account

/-- A user who cannot be looked up is not resolved. -/
theorem resolveIdentity_unresolved (hcache : ∀ t, host.userCache t = db.cache)
    (hres : ∀ entry gids, ¬db.Resolves user entry gids) (groups : List Str) :
    ∃ e, Yields Asks ⟨host, fuel⟩ (resolveIdentity user groups config) (.error e) := by
  unfold resolveIdentity
  cases groups.head? with
  | none => exact ⟨_, yields_bind_error (yields_raise _)⟩
  | some primary =>
      have huid := lookup_yields fuel hcache (·.getUid4user user)
      cases hentry : db.getpwnam user with
      | none =>
          rw [show db.cache.getUid4user user = .ok (-1) by
            simp [UserDb.cache, UserDb.userField, hentry]] at huid
          refine ⟨unknownUser user, yields_bind_ok (yields_pure primary) (yields_bind_ok huid ?_)⟩
          rw [if_pos rfl]
          exact yields_raise _
      | some entry =>
          cases hgids : db.getGids4userNc user entry.gid with
          | ok gids => exact absurd ⟨hentry, hgids⟩ (hres entry gids)
          | error e =>
              rw [show db.cache.getUid4user user = .error e by
                simp [UserDb.cache, UserDb.userField, hentry, hgids]] at huid
              refine ⟨e, yields_bind_ok (yields_pure primary) ?_⟩
              exact yields_bind_error huid

end Stable

/-! ## The gids that are collected -/

section Collected

variable {db : UserDb} {user : Str} {entry : Passwd} {gids : List Int}

theorem mem_putKey {keys : List Int} {k x : Int} : x ∈ putKey keys k ↔ x ∈ keys ∨ x = k := by
  rw [putKey]
  split
  · rename_i hk
    constructor
    · exact Or.inl
    · rintro (h | rfl)
      · exact h
      · exact hk
  · simp

theorem mem_foldl_putKey {new keys : List Int} {x : Int} :
    x ∈ new.foldl putKey keys ↔ x ∈ keys ∨ x ∈ new := by
  induction new generalizing keys with
  | nil => simp
  | cons k new ih =>
      rw [List.foldl_cons, ih, mem_putKey, List.mem_cons, or_assoc]

theorem primaryGid_granted {fail : Bool} {primary : Str} {g : Int}
    (h : primaryGid db user entry gids fail primary = .ok g) : g = entry.gid ∨ g ∈ gids := by
  unfold primaryGid at h
  split at h
  · exact Or.inl (Except.ok.inj h).symm
  · split at h
    · split at h
      · cases h
      · exact Or.inl (Except.ok.inj h).symm
    · split at h
      · rename_i hg
        rwa [Except.ok.inj h] at hg
      · split at h
        · cases h
        · exact Or.inl (Except.ok.inj h).symm

/-- When every known requested group is granted, so is everything that is collected. -/
theorem addedGids_granted {fail : Bool} {names : List Str}
    (hnames : ∀ g ∈ names, g ≠ defaultGid → groupGid db g ≠ -1 → fail = false →
      groupGid db g = entry.gid ∨ groupGid db g ∈ gids)
    {addedDefault : Bool} {supGids result : List Int}
    (h : addedGids db user entry gids fail names addedDefault supGids = .ok result)
    (hsup : ∀ x ∈ supGids, x = entry.gid ∨ x ∈ gids) :
    ∀ x ∈ result, x = entry.gid ∨ x ∈ gids := by
  induction names generalizing addedDefault supGids with
  | nil =>
      rw [← Except.ok.inj h]
      exact hsup
  | cons g rest ih =>
      have ih := fun {added sup} => @ih (fun g' hg' => hnames g' (List.mem_cons_of_mem g hg')) added sup
      unfold addedGids at h
      split at h
      · split at h
        · exact ih h hsup
        · apply ih h
          intro x hx
          rcases mem_foldl_putKey.mp hx with hx | hx
          · exact hsup x hx
          · exact Or.inr hx
      · rename_i hdefault
        split at h
        · split at h
          · cases h
          · exact ih h hsup
        · rename_i hknown
          split at h
          · cases h
          · rename_i hmember
            have hg : groupGid db g = entry.gid ∨ groupGid db g ∈ gids := by
              by_contra hforeign
              have hfail : fail = false := by simpa [hforeign] using hmember
              exact hforeign (hnames g List.mem_cons_self hdefault hknown hfail)
            apply ih h
            intro x hx
            rcases mem_putKey.mp hx with hx | rfl
            · exact hsup x hx
            · exact hg

/-- Without `tsi.fail_on_invalid_gids` the loop ends normally, with every known requested gid and
everything collected before. -/
theorem addedGids_collects (db : UserDb) (user : Str) (entry : Passwd) (gids : List Int) (names : List Str) (addedDefault : Bool) (supGids : List Int) :
    ∃ result, addedGids db user entry gids false names addedDefault supGids = .ok result ∧
      (∀ x ∈ supGids, x ∈ result) ∧
      ∀ g ∈ names, g ≠ defaultGid → groupGid db g ≠ -1 → groupGid db g ∈ result := by
  induction names generalizing addedDefault supGids with
  | nil => exact ⟨supGids, rfl, fun x hx => hx, by simp⟩
  | cons g rest ih =>
      simp only [addedGids, Bool.false_eq_true, and_false, if_false, List.forall_mem_cons]
      by_cases hdefault : g = defaultGid
      · simp only [hdefault, if_true, ne_eq, not_true_eq_false, false_implies, true_and]
        cases addedDefault with
        | true => exact ih true supGids
        | false =>
            obtain ⟨result, hres, hkeep, hnew⟩ := ih true (gids.foldl putKey supGids)
            exact ⟨result, hres, fun x hx => hkeep x (mem_foldl_putKey.mpr (Or.inl hx)), hnew⟩
      · simp only [hdefault, if_false, ne_eq, not_false_eq_true, true_implies]
        by_cases hknown : groupGid db g = -1
        · simp only [hknown, if_true, not_true_eq_false, false_implies, true_and]
          exact ih addedDefault supGids
        · simp only [hknown, if_false, not_false_eq_true, true_implies]
          obtain ⟨result, hres, hkeep, hnew⟩ := ih addedDefault (putKey supGids (groupGid db g))
          refine ⟨result, hres, fun x hx => hkeep x (mem_putKey.mpr (Or.inl hx)), ?_, hnew⟩
          exact hkeep _ (mem_putKey.mpr (Or.inr rfl))

theorem resolved_uid {fail : Bool} {groups : List Str} {p : Int × Int × List Int}
    (h : resolved db user entry gids fail groups = .ok p) : entry.uid ≠ -1 ∧ entry.uid ≠ 0 := by
  unfold resolved at h
  split at h
  · cases h
  · split at h
    · cases h
    · rename_i hunknown
      split at h
      · cases h
      · rename_i hroot
        exact ⟨hunknown, hroot⟩

/-- Whatever is resolved is granted, if every known requested group is (or the others are errors). -/
theorem resolved_granted {fail : Bool} {groups : List Str} {uid gid : Int} {newGids : List Int}
    (h : resolved db user entry gids fail groups = .ok (uid, gid, newGids))
    (hgroups : fail = true ∨ groups.head? = some noneGroup ∨
      ∀ g ∈ groups, g ≠ defaultGid → groupGid db g ≠ -1 →
        groupGid db g = entry.gid ∨ groupGid db g ∈ gids) :
    ∀ x, x = gid ∨ x ∈ newGids → x = entry.gid ∨ x ∈ gids := by
  unfold resolved at h
  split at h
  · cases h
  · rename_i primary hhead
    split at h
    · cases h
    · split at h
      · cases h
      · split at h
        · simp only [Except.ok.injEq, Prod.mk.injEq] at h
          obtain ⟨-, rfl, rfl⟩ := h
          exact fun x hx => hx
        · rename_i hnone
          cases hprimary : primaryGid db user entry gids fail primary with
          | error e => simp [hprimary, bind, Except.bind] at h
          | ok newGid =>
              cases hadded : addedGids db user entry gids fail groups false (putKey [] newGid) with
              | error e => simp [hprimary, hadded, bind, Except.bind] at h
              | ok result =>
                  simp only [hprimary, hadded, bind, Except.bind, pure, Except.pure,
                    Except.ok.injEq, Prod.mk.injEq] at h
                  obtain ⟨-, rfl, rfl⟩ := h
                  have hnewGid := primaryGid_granted hprimary
                  rintro x (rfl | hx)
                  · exact hnewGid
                  · refine addedGids_granted ?_ hadded (by simpa [putKey] using hnewGid) x hx
                    intro g hg hdefault hknown hfail
                    rcases hgroups with h | h | h
                    · exact absurd h (by simp [hfail])
                    · exact absurd (Option.some.inj (hhead.symm.trans h)) hnone
                    · exact h g hg hdefault hknown

end Collected

/-! ## The calls that are made -/

/-- Every run of `x` makes identity-changing calls that begin the list `cs`. -/
def MakesCalls {α : Type} (cs : List SysCall) (x : WorkerM α) : Prop :=
  Within (fun w w' => ∃ made, made <+: cs ∧ w'.idCalls = w.idCalls ++ made) x

/-- No identity-changing call was made. -/
def KeepsCalls (w w' : Worker) : Prop := w'.idCalls = w.idCalls

instance : Std.Refl KeepsCalls := ⟨fun _ => rfl⟩

instance : IsTrans Worker KeepsCalls := ⟨fun _ _ _ h h' => Eq.trans h' h⟩

section Calls

variable {α β : Type}

theorem makesCalls_of_kept {x : WorkerM α} (h : Within KeepsCalls x) (cs : List SysCall) :
    MakesCalls cs x :=
  within_mono (fun w w' hw => ⟨[], List.nil_prefix, by simpa [KeepsCalls] using hw⟩) h

theorem idCall_run (c : SysCall) (r : WorkerCtx) (w : Worker) :
    (idCall c r w).2.idCalls = w.idCalls ++ [c] := by
  unfold idCall
  rw [bind_run_done (modify_run _), bind_run, runHandler_run]
  rcases sysCall c _ _ with ⟨_ | _ | _, io⟩
  · simp only [bind_run, ask_run, get_run]
    cases changeCred r.host.privileged c w.cred <;> rfl
  · rfl
  · rfl

theorem makesCalls_idCall {c : SysCall} {cs : List SysCall} {f : Unit → WorkerM β}
    (hf : MakesCalls cs (f ())) : MakesCalls (c :: cs) (idCall c >>= f) := by
  intro r w
  have hcall := idCall_run c r w
  rw [bind_run]
  revert hcall
  rcases idCall c r w with ⟨a | e | _, w'⟩
  · intro hcall
    obtain ⟨made, hpre, hmade⟩ := hf r w'
    refine ⟨c :: made, List.prefix_cons_inj c |>.mpr hpre, ?_⟩
    show (f () r w').2.idCalls = _
    rw [hmade, hcall, List.append_assoc, List.singleton_append]
  · exact fun hcall => ⟨[c], by simp, hcall⟩
  · exact fun hcall => ⟨[c], by simp, hcall⟩

theorem changeIdentity_calls (user : Str) (uid gid : Int) (gids : List Int) (euid : Int) :
    MakesCalls [.setgid gid, .setgroups gids, .setegid gid, .setresuid uid uid euid]
      (changeIdentity user uid gid gids euid) := by
  unfold changeIdentity
  iterate 4 apply makesCalls_idCall
  exact makesCalls_of_kept (checkIdentity_within user uid gid gids) []

/-- The calls of `switchTo` are those of the identity change in it. -/
theorem switchTo_idCalls (user : Str) (config : Settings) (uid gid : Int) (gids : List Int)
    (r : WorkerCtx) (w : Worker) :
    (switchTo user config uid gid gids r w).2.idCalls =
      (changeIdentity user uid gid gids config.effectiveUid r w).2.idCalls := by
  unfold switchTo
  rw [bind_run]
  rcases changeIdentity user uid gid gids config.effectiveUid r w with ⟨a | e | _, w'⟩
  · have hkept := within_bind (setEnvironment_within (R := KeepsCalls) (fun _ _ _ => rfl) user)
      (fun _ => within_pure true) r w'
    exact hkept
  · rfl
  · rfl

end Calls

/-! ## Group confinement -/

section Confinement

variable {db : UserDb} {user : Str} {entry : Passwd} {gids : List Int} {config : Settings}

/-- The calls of `become_user` begin the four calls for what it resolved; an error makes none. -/
theorem becomeUser_calls {host : Host} {fuel : Nat} {groups : List Str} {w : Worker}
    {res : Except PyExc (Int × Int × List Int)} (hswitch : config.switchUid = true)
    (hres : Yields Asks ⟨host, fuel⟩ (resolveIdentity user groups config) res)
    {c : SysCall}
    (hc : c ∈ (becomeUser user groups config ⟨host, fuel⟩ w).2.idCalls.drop w.idCalls.length) :
    ∃ uid gid newGids, res = .ok (uid, gid, newGids) ∧
      c ∈ [.setgid gid, .setgroups newGids, .setegid gid,
        .setresuid uid uid config.effectiveUid] := by
  rw [becomeUser, if_pos hswitch] at hc
  obtain ⟨w', ⟨n, rfl⟩, hrun⟩ := hres w
  cases res with
  | error e =>
      rw [bind_run_raised hrun] at hc
      simp at hc
  | ok p =>
      obtain ⟨uid, gid, newGids⟩ := p
      refine ⟨uid, gid, newGids, rfl, ?_⟩
      rw [bind_run_done hrun] at hc
      simp only [switchTo_idCalls] at hc
      obtain ⟨made, hpre, hmade⟩ := changeIdentity_calls user uid gid newGids config.effectiveUid
        ⟨host, fuel⟩ _
      rw [hmade, List.drop_left] at hc
      exact hpre.subset hc

theorem sysCall_calm (cache : UserCache) (environ : Environ) (fuel : Nat) (c : SysCall)
    (s : HandlerState) :
    sysCall c ⟨calmHost cache, environ, fuel⟩ s = (.done (), { s with tick := s.tick + 1 }) := rfl

/-- On a calm host every identity-changing call succeeds. -/
theorem idCall_calm (cache : UserCache) (fuel : Nat) (c : SysCall) (w : Worker) :
    ∃ w', idCall c ⟨calmHost cache, fuel⟩ w = (.done (), w') ∧ w'.idCalls = w.idCalls ++ [c] := by
  have hcred : ∃ cred, changeCred (calmHost cache).privileged c w.cred = some cred := by
    cases c <;> simp [changeCred, calmHost]
  obtain ⟨cred, hcred⟩ := hcred
  have hdone : (idCall c ⟨calmHost cache, fuel⟩ w).1 = .done () := by
    unfold idCall
    simp only [bind_run, modify_run, runHandler_run, sysCall_calm, ask_run, get_run, hcred]
  exact ⟨_, Prod.ext hdone rfl, idCall_run c ⟨calmHost cache, fuel⟩ w⟩

theorem changeIdentity_calm (cache : UserCache) (fuel : Nat) (user : Str) (uid gid : Int)
    (newGids : List Int) (euid : Int) (w : Worker) :
    ∃ made, (changeIdentity user uid gid newGids euid ⟨calmHost cache, fuel⟩ w).2.idCalls =
      w.idCalls ++ made ∧ SysCall.setgroups newGids ∈ made := by
  obtain ⟨w₁, h₁, hcalls₁⟩ := idCall_calm cache fuel (.setgid gid) w
  obtain ⟨w₂, h₂, hcalls₂⟩ := idCall_calm cache fuel (.setgroups newGids) w₁
  have hrest : MakesCalls [.setegid gid, .setresuid uid uid euid] (do
      idCall (.setegid gid)
      idCall (.setresuid uid uid euid)
      checkIdentity user uid gid newGids) := by
    apply makesCalls_idCall
    apply makesCalls_idCall
    exact makesCalls_of_kept (checkIdentity_within user uid gid newGids) []
  obtain ⟨made, -, hmade⟩ := hrest ⟨calmHost cache, fuel⟩ w₂
  unfold changeIdentity
  rw [bind_run_done h₁, bind_run_done h₂, hmade, hcalls₂, hcalls₁]
  exact ⟨[.setgid gid, .setgroups newGids] ++ made, by simp, by simp⟩

theorem resolved_collects (user : Str) (gids : List Int) {groups : List Str} {g : Str} (hg : g ∈ groups)
    (hnone : groups.head? ≠ some noneGroup) (hunknown : entry.uid ≠ -1) (hroot : entry.uid ≠ 0)
    (hdefault : g ≠ defaultGid) (hknown : groupGid db g ≠ -1) :
    ∃ gid newGids, resolved db user entry gids false groups = .ok (entry.uid, gid, newGids) ∧
      groupGid db g ∈ newGids := by
  obtain ⟨primary, hhead⟩ : ∃ primary, groups.head? = some primary := by
    cases groups with
    | nil => cases hg
    | cons primary rest => exact ⟨primary, rfl⟩
  have hprimary : ∃ gid, primaryGid db user entry gids false primary = .ok gid := by
    unfold primaryGid
    simp only [Bool.false_eq_true, if_false]
    split <;> [skip; split <;> [skip; split]] <;> exact ⟨_, rfl⟩
  obtain ⟨gid, hprimary⟩ := hprimary
  obtain ⟨newGids, hadded, -, hnew⟩ :=
    addedGids_collects db user entry gids groups false
      (putKey [] gid)
  refine ⟨gid, newGids, ?_, hnew g hg hdefault hknown⟩
  have hprimary' : primary ≠ noneGroup := fun h => hnone (hhead.trans (congrArg some h))
  simp only [resolved, hhead, hunknown, hroot, hprimary', if_false, hprimary, hadded, bind,
    Except.bind, pure, Except.pure]

/-- A known foreign group among the requested ones is passed to `setgroups` when nothing makes it an
error: on a calm host the request gets that far. -/
theorem not_confined_of_foreign {groups : List Str} {g : Str} (hswitch : config.switchUid = true)
    (henforce : config.enforceOsGids = true) (hfail : config.failOnInvalidGids = false)
    (hres : db.Resolves user entry gids) (hunknown : entry.uid ≠ -1) (hroot : entry.uid ≠ 0)
    (hnone : groups.head? ≠ some noneGroup) (hg : g ∈ groups) (hdefault : g ≠ defaultGid)
    (hknown : groupGid db g ≠ -1) (hforeign : ¬(groupGid db g = entry.gid ∨ groupGid db g ∈ gids)) :
    ¬Confined db user groups config := by
  intro hconf
  obtain ⟨gid, newGids, hresolved, hmem⟩ :=
    resolved_collects user gids hg hnone hunknown hroot hdefault hknown
  have hcache : ∀ t, (calmHost db.cache).userCache t = db.cache := fun _ => rfl
  have hyields := resolveIdentity_yields 0 hcache hres henforce groups
  obtain ⟨w', ⟨n, rfl⟩, hrun⟩ := hyields (Worker.fresh [])
  rw [hfail, hresolved] at hrun
  have hset : SysCall.setgroups newGids ∈ (becomeUser user groups config
      ⟨calmHost db.cache, 0⟩ (Worker.fresh [])).2.idCalls.drop (Worker.fresh []).idCalls.length := by
    rw [becomeUser, if_pos hswitch, bind_run_done hrun]
    simp only [switchTo_idCalls]
    obtain ⟨made, hmade, hset⟩ := changeIdentity_calm db.cache 0 user entry.uid gid newGids
      config.effectiveUid _
    rw [hmade, List.drop_left]
    exact hset
  have hgranted := hconf (calmHost db.cache) hcache 0 (Worker.fresh []) _ hset (groupGid db g) hmem
  exact hforeign ((granted_iff hres _).mp hgranted)

/-- `become_user` stays within the user's own groups exactly when a foreign group cannot get past the
warning: foreign groups are errors, or the request selects the system defaults, or no known group is
requested that the user is not in. -/
theorem confined_iff (db : UserDb) (user : Str) (groups : List Str) (config : Settings)
    (hswitch : config.switchUid = true) (henforce : config.enforceOsGids = true) :
    Confined db user groups config ↔
      config.failOnInvalidGids = true ∨ groups.head? = some noneGroup ∨
      ∀ entry gids, db.Resolves user entry gids → entry.uid ≠ -1 → entry.uid ≠ 0 →
        ∀ g ∈ groups, g ≠ defaultGid → groupGid db g ≠ -1 →
          groupGid db g = entry.gid ∨ groupGid db g ∈ gids := by
  constructor
  · intro hconf
    by_contra hcond
    simp only [not_or, not_forall] at hcond
    obtain ⟨hfail, hnone, entry, gids, hres, hunknown, hroot, g, hg, hdefault, hknown, hforeign⟩ :=
      hcond
    have hfail' : config.failOnInvalidGids = false := by simpa using hfail
    exact not_confined_of_foreign hswitch henforce hfail' hres hunknown hroot hnone hg hdefault hknown
      (by simpa using hforeign) hconf
  · intro hcond host hcache fuel w c hc x hx
    by_cases hres : ∃ entry gids, db.Resolves user entry gids
    · obtain ⟨entry, gids, hres⟩ := hres
      have hyields := resolveIdentity_yields fuel hcache hres henforce groups
      obtain ⟨uid, gid, newGids, hok, hmem⟩ := becomeUser_calls hswitch hyields hc
      have hgroups : config.failOnInvalidGids = true ∨ groups.head? = some noneGroup ∨
          ∀ g ∈ groups, g ≠ defaultGid → groupGid db g ≠ -1 →
            groupGid db g = entry.gid ∨ groupGid db g ∈ gids := by
        refine hcond.imp_right (Or.imp_right fun h => ?_)
        obtain ⟨hunknown, hroot⟩ := resolved_uid hok
        exact h entry gids hres hunknown hroot
      apply (granted_iff hres x).mpr
      apply resolved_granted hok hgroups
      simp only [List.mem_cons, List.not_mem_nil, or_false] at hmem
      rcases hmem with rfl | rfl | rfl | rfl
      · exact Or.inl (by simpa [gidsPassed] using hx)
      · exact Or.inr (by simpa [gidsPassed] using hx)
      · exact Or.inl (by simpa [gidsPassed] using hx)
      · simp [gidsPassed] at hx
    · push Not at hres
      obtain ⟨e, hyields⟩ := resolveIdentity_unresolved fuel hcache hres groups
      obtain ⟨uid, gid, newGids, hok, -⟩ := becomeUser_calls hswitch hyields hc
      cases hok

/-- One user, `alice`, in one group, `users`; the group `wheel` is not hers. -/
def aliceDb : UserDb where
  getpwnam name :=
    if name = "alice".toList then some { uid := 1000, gid := 100, home := "/home/alice".toList }
    else none
  getgrnam name :=
    if name = "users".toList then some 100 else if name = "wheel".toList then some 10 else none
  getGids4userNc _ _ := .ok [100]

theorem aliceDb_confined : Confined aliceDb "alice".toList ["users".toList] {} := by
  rw [confined_iff aliceDb "alice".toList ["users".toList] {} rfl rfl]
  right
  right
  intro entry gids hres _ _ g hg _ _
  obtain rfl := List.mem_singleton.mp hg
  obtain ⟨rfl, -⟩ := resolves_unique hres
    (show aliceDb.Resolves "alice".toList ⟨1000, 100, "/home/alice".toList⟩ [100] from ⟨rfl, rfl⟩)
  exact Or.inl rfl

/-- A foreign group is handed to `setgroups` after the warning that it is skipped. -/
theorem aliceDb_not_confined : ¬Confined aliceDb "alice".toList ["wheel".toList] {} := by
  have hres : aliceDb.Resolves "alice".toList ⟨1000, 100, "/home/alice".toList⟩ [100] := ⟨rfl, rfl⟩
  have hmem : "wheel".toList ∈ ["wheel".toList] := List.mem_singleton_self _
  exact not_confined_of_foreign rfl rfl rfl hres (by decide) (by decide) (by decide) hmem (by decide)
    (by decide) (by decide)

end Confinement

end UnicoreTsi.BecomeUser
