/-
# UnicoreTsi.StrictGroups — which requests for groups are carried out when invalid groups are errors.

With `tsi.fail_on_invalid_gids` every group that is requested has to be known and, with `tsi.enforce_os_gids`, one
of the user's; otherwise `become_user` raises before it makes the first call that changes the identity.  What it
decides is `Accepted`, and what it then asks the kernel for is determined as a set by the user, the first group and
the set of the names (`become_user_strict`).
-/
import UnicoreTsi.GroupConfinement

set_option autoImplicit false

namespace UnicoreTsi.BecomeUser

open UnicoreTsi.Text UnicoreTsi.Effects UnicoreTsi.Utils

/-! ## What is accepted -/

section Accepted

variable (db : UserDb) (entry : Passwd) (gids : List Int) (enforce : Bool)

/-- The gid may be given to the user. -/
def Member (g : Int) : Prop := enforce = true → g = entry.gid ∨ g ∈ gids

instance (g : Int) : Decidable (Member entry gids enforce g) := by
  unfold Member
  infer_instance

/-- The name may be requested: it is `DEFAULT_GID` or a known group that may be given to the user. -/
def Valid (name : Str) : Prop :=
  name = defaultGid ∨ (groupGid db name ≠ -1 ∧ Member entry gids enforce (groupGid db name))

instance (name : Str) : Decidable (Valid db entry gids enforce name) := by
  unfold Valid
  infer_instance

/-- The gid of the first name. -/
def firstGid (name : Str) : Int := if name = defaultGid then entry.gid else groupGid db name

/-- The gids of names that are all valid. -/
def validGids : List Str → Bool → List Int → List Int
  | [], _, supGids => supGids
  | g :: rest, addedDefault, supGids =>
      if g = defaultGid then
        validGids rest true (if addedDefault then supGids else gids.foldl putKey supGids)
      else validGids rest addedDefault (putKey supGids (groupGid db g))

end Accepted

/-- The request is carried out: the user exists and is not root, and he gets the groups of the system or asks for
valid ones.  `-1` stands for a user or group that does not exist. -/
def Accepted (db : UserDb) (user : Str) (groups : List Str) (config : Settings) : Prop :=
  ∃ entry gids, db.Resolves user entry gids ∧ entry.uid ≠ -1 ∧ entry.uid ≠ 0 ∧
    (groups.head? = some noneGroup ∨ ∀ g ∈ groups, Valid db entry gids config.enforceOsGids g)

/-! ## The gids of valid names -/

section Gids

variable {db : UserDb} {entry : Passwd} {gids : List Int}

theorem nodup_putKey {keys : List Int} (h : keys.Nodup) (k : Int) : (putKey keys k).Nodup := by
  unfold putKey
  split
  · exact h
  · rename_i hk
    rw [List.nodup_append]
    exact ⟨h, List.nodup_singleton k, fun x hx y hy heq => hk (List.mem_singleton.mp hy ▸ heq ▸ hx)⟩

theorem nodup_foldl_putKey {new keys : List Int} (h : keys.Nodup) : (new.foldl putKey keys).Nodup := by
  induction new generalizing keys with
  | nil => exact h
  | cons k new ih => exact ih (nodup_putKey h k)

theorem nodup_validGids {names : List Str} {addedDefault : Bool} {supGids : List Int} (h : supGids.Nodup) :
    (validGids db gids names addedDefault supGids).Nodup := by
  induction names generalizing addedDefault supGids with
  | nil => exact h
  | cons g rest ih =>
      unfold validGids
      split
      · apply ih
        split
        · exact h
        · exact nodup_foldl_putKey h
      · exact ih (nodup_putKey h _)

/-- The user's gids are added at the first `DEFAULT_GID`, unless they have been before. -/
theorem mem_validGids {names : List Str} {addedDefault : Bool} {supGids : List Int} {x : Int} :
    x ∈ validGids db gids names addedDefault supGids ↔
      x ∈ supGids ∨ (addedDefault = false ∧ defaultGid ∈ names ∧ x ∈ gids) ∨
        ∃ g ∈ names, g ≠ defaultGid ∧ x = groupGid db g := by
  induction names generalizing addedDefault supGids with
  | nil => simp [validGids]
  | cons g rest ih =>
      have hnamed : (∃ g' ∈ g :: rest, g' ≠ defaultGid ∧ x = groupGid db g') ↔
          (g ≠ defaultGid ∧ x = groupGid db g) ∨ ∃ g' ∈ rest, g' ≠ defaultGid ∧ x = groupGid db g' :=
        List.exists_mem_cons_iff _ _ _
      rw [validGids, hnamed, List.mem_cons, @eq_comm _ defaultGid]
      by_cases hdefault : g = defaultGid
      · rw [if_pos hdefault, ih]
        cases addedDefault with
        | true => simp [hdefault]
        | false =>
            rw [if_neg Bool.false_ne_true, mem_foldl_putKey]
            simp only [hdefault, true_or, true_and, not_true_eq_false, ne_eq, false_and, false_or,
              Bool.true_eq_false, or_assoc]
      · rw [if_neg hdefault, ih, mem_putKey]
        simp only [hdefault, false_or, ne_eq, not_false_eq_true, true_and, or_assoc]
        exact or_congr_right or_left_comm

end Gids

/-! ## What is resolved -/

section Strict

variable {db : UserDb} {user : Str} {entry : Passwd} {gids : List Int} {host : Host}

theorem lookup_group_yields (fuel : Nat) (hcache : ∀ t, host.userCache t = db.cache) (name : Str) :
    Yields Asks ⟨host, fuel⟩ (lookup (·.getGid4group name)) (.ok (groupGid db name)) :=
  lookup_yields fuel hcache (·.getGid4group name)

variable (fuel : Nat) (config : Settings) (hcache : ∀ t, host.userCache t = db.cache)
  (hres : db.Resolves user entry gids)

include hcache hres

theorem checkMembership_strict (g : Int) :
    Yields Asks ⟨host, fuel⟩ (checkMembership g user config)
      (.ok (decide (Member entry gids config.enforceOsGids g))) := by
  by_cases henforce : config.enforceOsGids = true
  · have h := checkMembership_yields fuel hcache hres henforce g
    rwa [show decide (g = entry.gid ∨ g ∈ gids) = decide (Member entry gids config.enforceOsGids g) by
      simp [Member, henforce]] at h
  · have hany : Member entry gids config.enforceOsGids g := fun h => absurd h henforce
    rw [checkMembership, if_neg henforce, decide_eq_true hany]
    exact yields_pure true

variable (hfail : config.failOnInvalidGids = true)

include hfail

/-- The first group: its gid if it is valid, an exception otherwise. -/
theorem getPrimaryGroup_strict (primary : Str) :
    (Valid db entry gids config.enforceOsGids primary →
      Yields Asks ⟨host, fuel⟩ (getPrimaryGroup primary user config) (.ok (firstGid db entry primary))) ∧
    (¬ Valid db entry gids config.enforceOsGids primary →
      ∃ e, Yields Asks ⟨host, fuel⟩ (getPrimaryGroup primary user config) (.error e)) := by
  have hmember := checkMembership_strict fuel config hcache hres
  have hfound := lookup_group_yields fuel hcache primary
  unfold getPrimaryGroup firstGid
  by_cases hdefault : primary = defaultGid
  · rw [if_pos hdefault, if_pos hdefault]
    exact ⟨fun _ => lookup_gid_yields fuel hcache hres, fun h => absurd (Or.inl hdefault) h⟩
  · rw [if_neg hdefault, if_neg hdefault]
    by_cases hknown : groupGid db primary = -1
    · refine ⟨fun h => absurd hknown (h.resolve_left hdefault).1, fun _ => ⟨unknownPrimary primary, ?_⟩⟩
      refine yields_bind_error (yields_bind_ok hfound ?_)
      rw [if_pos hknown, if_pos hfail]
      exact yields_raise _
    · have hrequested : Yields Asks ⟨host, fuel⟩ (requestedGid primary user config) (.ok (groupGid db primary)) := by
        refine yields_bind_ok hfound ?_
        rw [if_neg hknown]
        exact yields_pure _
      by_cases hg : Member entry gids config.enforceOsGids (groupGid db primary)
      · refine ⟨fun _ => yields_bind_ok hrequested (yields_bind_ok (hmember _) ?_), fun h => ?_⟩
        · rw [if_pos (decide_eq_true hg)]
          exact yields_pure _
        · exact absurd (Or.inr ⟨hknown, hg⟩) h
      · refine ⟨fun h => absurd (h.resolve_left hdefault).2 hg, fun _ => ⟨notAMember user primary, ?_⟩⟩
        refine yields_bind_ok hrequested (yields_bind_ok (hmember _) ?_)
        rw [decide_eq_false hg, if_neg Bool.false_ne_true, if_pos hfail]
        exact yields_raise _

/-- The supplementary groups: their gids if all names are valid, an exception otherwise. -/
theorem addGroups_strict (names : List Str) (addedDefault : Bool) (supGids : List Int) :
    ((∀ g ∈ names, Valid db entry gids config.enforceOsGids g) →
      Yields Asks ⟨host, fuel⟩ (addGroups user config names addedDefault supGids)
        (.ok (validGids db gids names addedDefault supGids))) ∧
    ((∃ g ∈ names, ¬ Valid db entry gids config.enforceOsGids g) →
      ∃ e, Yields Asks ⟨host, fuel⟩ (addGroups user config names addedDefault supGids) (.error e)) := by
  have hmember := checkMembership_strict fuel config hcache hres
  induction names generalizing addedDefault supGids with
  | nil => exact ⟨fun _ => yields_pure _, fun ⟨_, h, _⟩ => absurd h List.not_mem_nil⟩
  | cons g rest ih =>
      rw [List.forall_mem_cons, List.exists_mem_cons_iff]
      unfold addGroups validGids
      by_cases hdefault : g = defaultGid
      · have hvalid : Valid db entry gids config.enforceOsGids g := Or.inl hdefault
        rw [if_pos hdefault, if_pos hdefault]
        cases addedDefault with
        | true => exact ⟨fun h => (ih true supGids).1 h.2, fun h => (ih true supGids).2 (h.resolve_left (not_not.mpr hvalid))⟩
        | false =>
            have hgids := lookup_gids_yields fuel hcache hres
            constructor
            · exact fun h => yields_bind_ok hgids ((ih true _).1 h.2)
            · intro h
              obtain ⟨e, he⟩ := (ih true (gids.foldl putKey supGids)).2 (h.resolve_left (not_not.mpr hvalid))
              exact ⟨e, yields_bind_ok hgids he⟩
      · have hfound := lookup_group_yields fuel hcache g
        rw [if_neg hdefault, if_neg hdefault]
        by_cases hknown : groupGid db g = -1
        · refine ⟨fun h => absurd hknown (h.1.resolve_left hdefault).1, fun _ => ⟨unknownSupplementary g, ?_⟩⟩
          refine yields_bind_ok hfound ?_
          rw [if_pos hknown, if_pos hfail]
          exact yields_raise _
        · by_cases hg : Member entry gids config.enforceOsGids (groupGid db g)
          · have hvalid : Valid db entry gids config.enforceOsGids g := Or.inr ⟨hknown, hg⟩
            have hnext : ∀ {result}, Yields Asks ⟨host, fuel⟩ (addGroups user config rest addedDefault
                (putKey supGids (groupGid db g))) result →
                Yields Asks ⟨host, fuel⟩ (lookup (·.getGid4group g) >>= fun tmp => if tmp = -1 then
                    if config.failOnInvalidGids then raise (unknownSupplementary g)
                    else addGroups user config rest addedDefault supGids
                  else do
                    let member ← checkMembership tmp user config
                    if !member && config.failOnInvalidGids then raise (notAMember user g)
                    else addGroups user config rest addedDefault (putKey supGids tmp)) result := by
              intro result hrest
              refine yields_bind_ok hfound ?_
              rw [if_neg hknown]
              refine yields_bind_ok (hmember _) ?_
              rw [decide_eq_true hg, if_neg (by simp)]
              exact hrest
            constructor
            · exact fun h => hnext ((ih addedDefault _).1 h.2)
            · intro h
              obtain ⟨e, he⟩ := (ih addedDefault (putKey supGids (groupGid db g))).2 (h.resolve_left (not_not.mpr hvalid))
              exact ⟨e, hnext he⟩
          · refine ⟨fun h => absurd (h.1.resolve_left hdefault).2 hg, fun _ => ⟨notAMember user g, ?_⟩⟩
            refine yields_bind_ok hfound ?_
            rw [if_neg hknown]
            refine yields_bind_ok (hmember _) ?_
            rw [decide_eq_false hg, if_pos (by simp [hfail])]
            exact yields_raise _

/-- What is resolved for a user who exists. -/
theorem resolveIdentity_strict {groups : List Str} {primary : Str} (hhead : groups.head? = some primary)
    (hunknown : entry.uid ≠ -1) (hroot : entry.uid ≠ 0) (hnone : primary ≠ noneGroup) :
    ((∀ g ∈ groups, Valid db entry gids config.enforceOsGids g) →
      Yields Asks ⟨host, fuel⟩ (resolveIdentity user groups config) (.ok (entry.uid, firstGid db entry primary,
        validGids db gids groups false (putKey [] (firstGid db entry primary))))) ∧
    ((∃ g ∈ groups, ¬ Valid db entry gids config.enforceOsGids g) →
      ∃ e, Yields Asks ⟨host, fuel⟩ (resolveIdentity user groups config) (.error e)) := by
  have hresolve : ∀ {result}, Yields Asks ⟨host, fuel⟩ (do
        let newGid ← getPrimaryGroup primary user config
        let newGids ← getSupplementaryGroups groups newGid user config
        return (entry.uid, newGid, newGids)) result →
      Yields Asks ⟨host, fuel⟩ (resolveIdentity user groups config) result := by
    intro result h
    unfold resolveIdentity
    rw [hhead]
    refine yields_bind_ok (yields_pure primary) ?_
    refine yields_bind_ok (lookup_uid_yields fuel hcache hres) ?_
    rw [if_neg hunknown, if_neg hroot, if_neg hnone]
    exact h
  have hmem : primary ∈ groups := List.mem_of_mem_head? hhead
  have hfirst := getPrimaryGroup_strict fuel config hcache hres hfail primary
  have hgids := addGroups_strict fuel config hcache hres hfail groups false (putKey [] (firstGid db entry primary))
  constructor
  · intro h
    exact hresolve (yields_bind_ok (hfirst.1 (h primary hmem)) (yields_bind_ok (hgids.1 h) (yields_pure _)))
  · intro h
    by_cases hprimary : Valid db entry gids config.enforceOsGids primary
    · obtain ⟨e, he⟩ := hgids.2 h
      exact ⟨e, hresolve (yields_bind_ok (hfirst.1 hprimary) (yields_bind_error he))⟩
    · obtain ⟨e, he⟩ := hfirst.2 hprimary
      exact ⟨e, hresolve (yields_bind_error he)⟩

omit hfail in
/-- The groups of the system, whatever else is requested. -/
theorem resolveIdentity_none {groups : List Str} (hhead : groups.head? = some noneGroup) (hunknown : entry.uid ≠ -1)
    (hroot : entry.uid ≠ 0) :
    Yields Asks ⟨host, fuel⟩ (resolveIdentity user groups config) (.ok (entry.uid, entry.gid, gids)) := by
  unfold resolveIdentity
  rw [hhead]
  refine yields_bind_ok (yields_pure noneGroup) ?_
  refine yields_bind_ok (lookup_uid_yields fuel hcache hres) ?_
  rw [if_neg hunknown, if_neg hroot, if_pos rfl]
  refine yields_bind_ok (lookup_gid_yields fuel hcache hres) ?_
  exact yields_bind_ok (lookup_gids_yields fuel hcache hres) (yields_pure _)

omit hfail in
/-- A user who does not exist, or root. -/
theorem resolveIdentity_refused {groups : List Str} (hgroups : groups ≠ []) (h : entry.uid = -1 ∨ entry.uid = 0) :
    ∃ e, Yields Asks ⟨host, fuel⟩ (resolveIdentity user groups config) (.error e) := by
  obtain ⟨primary, rest, rfl⟩ := List.exists_cons_of_ne_nil hgroups
  have huid := lookup_uid_yields fuel hcache hres
  unfold resolveIdentity
  by_cases hunknown : entry.uid = -1
  · refine ⟨unknownUser user, yields_bind_ok (yields_pure primary) (yields_bind_ok huid ?_)⟩
    rw [if_pos hunknown]
    exact yields_raise _
  · refine ⟨rootUser user, yields_bind_ok (yields_pure primary) (yields_bind_ok huid ?_)⟩
    rw [if_neg hunknown, if_pos (h.resolve_left hunknown)]
    exact yields_raise _

end Strict

/-! ## The decision -/

/-- The identity-changing calls that `become_user` makes for a request. -/
def callsMade (host : Host) (fuel : Nat) (w : Worker) (user : Str) (groups : List Str) (config : Settings) :
    List SysCall :=
  (becomeUser user groups config ⟨host, fuel⟩ w).2.idCalls.drop w.idCalls.length

/-- The change of the identity begins with the call for the primary gid. -/
theorem changeIdentity_begins (user : Str) (uid gid : Int) (newGids : List Int) (euid : Int) (r : WorkerCtx)
    (w : Worker) : ∃ made, made <+: [.setgroups newGids, .setegid gid, .setresuid uid uid euid] ∧
      (changeIdentity user uid gid newGids euid r w).2.idCalls = w.idCalls ++ .setgid gid :: made := by
  have hrest : MakesCalls [.setgroups newGids, .setegid gid, .setresuid uid uid euid] (do
      idCall (.setgroups newGids)
      idCall (.setegid gid)
      idCall (.setresuid uid uid euid)
      checkIdentity user uid gid newGids) := by
    iterate 3 apply makesCalls_idCall
    exact makesCalls_of_kept (checkIdentity_within user uid gid newGids) []
  have hfirst := idCall_run (.setgid gid) r w
  unfold changeIdentity
  rw [bind_run]
  revert hfirst
  rcases idCall (.setgid gid) r w with ⟨a | e | _, w'⟩
  · intro hfirst
    obtain ⟨made, hpre, hmade⟩ := hrest r w'
    refine ⟨made, hpre, hmade.trans ?_⟩
    rw [hfirst, List.append_assoc, List.singleton_append]
  · exact fun hfirst => ⟨[], List.nil_prefix, hfirst⟩
  · exact fun hfirst => ⟨[], List.nil_prefix, hfirst⟩

section Decision

variable {user : Str} {groups : List Str} {config : Settings} {host : Host} {fuel : Nat} {w : Worker}

/-- Nothing is called when the resolution raises. -/
theorem callsMade_error (hswitch : config.switchUid = true) {e : PyExc}
    (h : Yields Asks ⟨host, fuel⟩ (resolveIdentity user groups config) (.error e)) :
    (becomeUser user groups config ⟨host, fuel⟩ w).1 = .raised e ∧ callsMade host fuel w user groups config = [] := by
  obtain ⟨w', ⟨n, rfl⟩, hrun⟩ := h w
  rw [callsMade, becomeUser, if_pos hswitch, bind_run_raised hrun]
  exact ⟨rfl, List.drop_length⟩

theorem callsMade_ok (hswitch : config.switchUid = true) {uid gid : Int} {newGids : List Int}
    (h : Yields Asks ⟨host, fuel⟩ (resolveIdentity user groups config) (.ok (uid, gid, newGids))) :
    ∃ made, callsMade host fuel w user groups config = .setgid gid :: made ∧
      made <+: [.setgroups newGids, .setegid gid, .setresuid uid uid config.effectiveUid] := by
  obtain ⟨w', ⟨n, rfl⟩, hrun⟩ := h w
  obtain ⟨made, hpre, hmade⟩ := changeIdentity_begins user uid gid newGids config.effectiveUid ⟨host, fuel⟩
    { w with io := { w.io with tick := n } }
  refine ⟨made, ?_, hpre⟩
  rw [callsMade, becomeUser, if_pos hswitch, bind_run_done hrun]
  dsimp only
  rw [switchTo_idCalls, hmade, List.drop_left]

/-- Either the request is accepted and resolved, or the resolution raises. -/
theorem resolveIdentity_decides (fuel : Nat) (db : UserDb) (hcache : ∀ t, host.userCache t = db.cache)
    (hfail : config.failOnInvalidGids = true) {primary : Str} (hhead : groups.head? = some primary) :
    (Accepted db user groups config ∧ ∃ identity,
      Yields Asks ⟨host, fuel⟩ (resolveIdentity user groups config) (.ok identity)) ∨
    (¬ Accepted db user groups config ∧ ∃ e,
      Yields Asks ⟨host, fuel⟩ (resolveIdentity user groups config) (.error e)) := by
  by_cases hres : ∃ entry gids, db.Resolves user entry gids
  · obtain ⟨entry, gids, hres⟩ := hres
    by_cases huid : entry.uid = -1 ∨ entry.uid = 0
    · have hgroups : groups ≠ [] := List.ne_nil_of_mem (List.mem_of_mem_head? hhead)
      refine Or.inr ⟨?_, resolveIdentity_refused fuel config hcache hres hgroups huid⟩
      rintro ⟨entry', gids', hres', hunknown, hroot, -⟩
      obtain ⟨rfl, -⟩ := resolves_unique hres hres'
      exact huid.elim hunknown hroot
    · rw [not_or] at huid
      by_cases hnone : primary = noneGroup
      · subst hnone
        exact Or.inl ⟨⟨entry, gids, hres, huid.1, huid.2, Or.inl hhead⟩, _,
          resolveIdentity_none fuel config hcache hres hhead huid.1 huid.2⟩
      · obtain ⟨hvalid, hinvalid⟩ := resolveIdentity_strict fuel config hcache hres hfail hhead huid.1 huid.2 hnone
        by_cases hall : ∀ g ∈ groups, Valid db entry gids config.enforceOsGids g
        · exact Or.inl ⟨⟨entry, gids, hres, huid.1, huid.2, Or.inr hall⟩, _, hvalid hall⟩
        · have hsome : ∃ g ∈ groups, ¬ Valid db entry gids config.enforceOsGids g := by
            push Not at hall
            exact hall
          refine Or.inr ⟨?_, hinvalid hsome⟩
          rintro ⟨entry', gids', hres', -, -, hfirst | hall'⟩
          · exact hnone (Option.some.inj (hhead.symm.trans hfirst))
          · obtain ⟨rfl, rfl⟩ := resolves_unique hres hres'
            exact hall hall'
  · push Not at hres
    refine Or.inr ⟨?_, resolveIdentity_unresolved fuel hcache hres groups⟩
    rintro ⟨entry, gids, hres', -⟩
    exact hres entry gids hres'

end Decision

end UnicoreTsi.BecomeUser
