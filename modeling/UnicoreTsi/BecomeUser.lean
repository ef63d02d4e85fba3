/-
# UnicoreTsi.BecomeUser — the user-switching logic.

`becomeUser` resolves the user and the requested groups through the user cache and then changes the
identity of the process in four system calls, each of which may fail; it checks what the kernel made
of them and only then sets the login environment.  `restoreId` goes back to the stored identity.
-/
import Mathlib.Data.List.Dedup
import UnicoreTsi.UserCache
import UnicoreTsi.Utils

set_option autoImplicit false

namespace UnicoreTsi.BecomeUser

open UnicoreTsi.Text UnicoreTsi.Effects UnicoreTsi.Utils

/-! ## The kernel's side -/

def permissionError : PyExc :=
  { kind := .osError, errno := 1, text := "[Errno 1] Operation not permitted".toList }

/-- `-1` leaves an id as it is. -/
def newId (old new : Int) : Int := if new = -1 then old else new

/-- The credentials after an identity-changing call; `none` when the kernel refuses it. -/
def changeCred (privileged : Int → Bool) (c : SysCall) (cred : Cred) : Option Cred :=
  match c with
  | .setgid g =>
      if privileged cred.euid then some { cred with rgid := g, egid := g, sgid := g }
      else if g = cred.rgid ∨ g = cred.sgid then some { cred with egid := g }
      else none
  | .setgroups gs => if privileged cred.euid then some { cred with groups := gs } else none
  | .setegid g =>
      if privileged cred.euid = true ∨ g = cred.rgid ∨ g = cred.egid ∨ g = cred.sgid then
        some { cred with egid := g }
      else none
  | .setresuid r e s =>
      some { cred with
        ruid := newId cred.ruid r, euid := newId cred.euid e, suid := newId cred.suid s }
  | _ => some cred

/-- Make an identity-changing call. -/
def idCall (c : SysCall) : WorkerM Unit := do
  modify fun w => { w with idCalls := w.idCalls ++ [c] }
  runHandler (sysCall c)
  let r ← ask
  let w ← get
  match changeCred r.host.privileged c w.cred with
  | some cred => modify fun w => { w with cred := cred }
  | none => raise permissionError

/-- `os.environ[...] = value`. -/
def environValue (value : Option Str) : Except PyExc Str :=
  match value with
  | none => .error (typeError "str expected, not NoneType")
  | some v => if '\x00' ∈ v then .error (valueError "embedded null byte") else .ok v

/-! ## Resolving groups -/

/-- Ask a getter of the user cache. -/
def lookup {α : Type} (f : UserCache → Except PyExc α) : WorkerM α :=
  runHandler (attempt fun h t => f (h.userCache t))

def checkMembership (groupGid : Int) (user : Str) (config : Settings) : WorkerM Bool := do
  if config.enforceOsGids then
    let gid ← lookup (·.getGid4user user)
    if groupGid = gid then
      return true
    else
      let userGids ← lookup (·.getGids4user user)
      return decide (groupGid ∈ userGids)
  else
    return true

def unknownPrimary (primary : Str) : PyExc :=
  runtimeError ("Attempt to run a task with an unknown primary group: ".toList ++ primary)

def unknownSupplementary (g : Str) : PyExc :=
  runtimeError ("Attempt to run a task with an unknown supplementary group ".toList ++ g)

def notAMember (user group : Str) : PyExc :=
  runtimeError ("The user ".toList ++ user ++ " is not a member of the group ".toList ++ group)

def defaultGid : Str := "DEFAULT_GID".toList

/-- The gid of the requested primary group; for an unknown group the user's own. -/
def requestedGid (primary user : Str) (config : Settings) : WorkerM Int := do
  let found ← lookup (·.getGid4group primary)
  if found = -1 then
    if config.failOnInvalidGids then
      raise (unknownPrimary primary)
    else
      lookup (·.getGid4user user)
  else
    return found

def getPrimaryGroup (primary user : Str) (config : Settings) : WorkerM Int := do
  if primary = defaultGid then
    lookup (·.getGid4user user)
  else
    let newGid ← requestedGid primary user config
    let member ← checkMembership newGid user config
    if member then
      return newGid
    else if config.failOnInvalidGids then
      raise (notAMember user primary)
    else
      lookup (·.getGid4user user)

/-- `d[k] = True` on a dictionary given by its keys in insertion order. -/
def putKey (keys : List Int) (k : Int) : List Int := if k ∈ keys then keys else keys ++ [k]

/-- The loop of `get_supplementary_groups` over the remaining requested names. -/
def addGroups (user : Str) (config : Settings) :
    List Str → Bool → List Int → WorkerM (List Int)
  | [], _, supGids => pure supGids
  | g :: rest, addedDefault, supGids => do
      if g = defaultGid then
        if addedDefault then
          addGroups user config rest true supGids
        else
          let defaultGids ← lookup (·.getGids4user user)
          addGroups user config rest true (defaultGids.foldl putKey supGids)
      else
        let tmp ← lookup (·.getGid4group g)
        if tmp = -1 then
          if config.failOnInvalidGids then raise (unknownSupplementary g)
          else addGroups user config rest addedDefault supGids
        else
          let member ← checkMembership tmp user config
          if !member && config.failOnInvalidGids then
            raise (notAMember user g)
          else
            -- the source warns "skipping it" for a non-member here, and goes on to the next line
            addGroups user config rest addedDefault (putKey supGids tmp)

def getSupplementaryGroups (requestedGroups : List Str) (primary : Int) (user : Str)
    (config : Settings) : WorkerM (List Int) :=
  addGroups user config requestedGroups false (putKey [] primary)

/-! ## Changing identity -/

def unknownUser (user : Str) : PyExc :=
  runtimeError ("Attempted to run a task for an unknown user ".toList ++ user)

def rootUser (user : Str) : PyExc :=
  runtimeError ("Attempted to run a command as root ".toList ++ user)

def runningAsRoot : PyExc :=
  runtimeError ("Running as root and not setting uids --- this is not " ++
    "allowed. Please check your TSI installation!").toList

def noneGroup : Str := "NONE".toList

/-- The uid, the primary gid and the gids `become_user` will switch to. -/
def resolveIdentity (user : Str) (requestedGroups : List Str) (config : Settings) :
    WorkerM (Int × Int × List Int) := do
  let primary ← ofExcept (match requestedGroups.head? with
    | some g => .ok g
    | none => .error (indexError "list index out of range"))
  let newUid ← lookup (·.getUid4user user)
  if newUid = -1 then
    raise (unknownUser user)
  else if newUid = 0 then
    raise (rootUser user)
  else if primary = noneGroup then
    let newGid ← lookup (·.getGid4user user)
    let newGids ← lookup (·.getGids4user user)
    return (newUid, newGid, newGids)
  else
    let newGid ← getPrimaryGroup primary user config
    let newGids ← getSupplementaryGroups requestedGroups newGid user config
    return (newUid, newGid, newGids)

def uidNotSet (user : Str) (uid : Int) : PyExc :=
  runtimeError ("Could not set TSI uid (real,effective) for ".toList ++ user ++ " to ".toList ++
    intText uid)

def gidNotSet (user : Str) (gid : Int) : PyExc :=
  runtimeError ("Could not set TSI gid (real, effective) for ".toList ++ user ++ " to ".toList ++
    intText gid)

def gidsText (gids : List Int) : Str := ", ".toList.intercalate (gids.map intText)

def groupsNotSet (user : Str) (newGids groups : List Int) : PyExc :=
  runtimeError ("Could not set TSI identity (supplementary groups) for ".toList ++ user ++
    " to [".toList ++ gidsText newGids ++ "], got \x7b".toList ++ gidsText groups ++ "\x7d".toList)

/-- The two lists have the same elements. -/
def sameSet (xs ys : List Int) : Bool := xs.all (· ∈ ys) && ys.all (· ∈ xs)

/-- The checks of `become_user` on what the kernel made of the calls. -/
def checkIdentity (user : Str) (newUid newGid : Int) (newGids : List Int) : WorkerM Unit := do
  let w ← get
  if (w.cred.ruid, w.cred.euid) ≠ (newUid, newUid) then
    raise (uidNotSet user newUid)
  else if (w.cred.rgid, w.cred.egid) ≠ (newGid, newGid) then
    raise (gidNotSet user newGid)
  else if sameSet w.cred.groups newGids = false then
    raise (groupsNotSet user newGids w.cred.groups.dedup)

/-- The four system calls of `become_user` and the checks after them. -/
def changeIdentity (user : Str) (newUid newGid : Int) (newGids : List Int) (euid : Int) :
    WorkerM Unit := do
  idCall (.setgid newGid)
  idCall (.setgroups newGids)
  idCall (.setegid newGid)
  idCall (.setresuid newUid newUid euid)
  checkIdentity user newUid newGid newGids

/-- `os.environ[...]` for the user who has just been become. -/
def setEnvironment (user : Str) : WorkerM Unit := do
  let home ← lookup (·.getHome4user user)
  let home ← ofExcept (environValue home)
  modify fun w => { w with environ := { w.environ with home := some home } }
  let name ← ofExcept (environValue (some user))
  modify fun w => { w with environ := { w.environ with user := some name } }
  modify fun w => { w with environ := { w.environ with logname := some name } }

section Frames

variable {R : Worker → Worker → Prop} [Std.Refl R] [IsTrans Worker R]

/-- The checks change nothing. -/
theorem checkIdentity_within (user : Str) (uid gid : Int) (gids : List Int) :
    Within R (checkIdentity user uid gid gids) := by
  unfold checkIdentity
  refine within_bind within_get ?_
  intro w
  split
  · exact within_raise _
  · split
    · exact within_raise _
    · split
      · exact within_raise _
      · exact within_pure _

/-- Setting the environment changes the environment and takes an answer of the host. -/
theorem setEnvironment_within
    (hR : ∀ (w : Worker) (n : Nat) (environ : Environ),
      R w { w with io := { w.io with tick := n }, environ := environ })
    (user : Str) : Within R (setEnvironment user) := by
  have hset : ∀ (f : Environ → Environ) (w : Worker), R w { w with environ := f w.environ } :=
    fun f w => hR w w.io.tick (f w.environ)
  unfold setEnvironment
  refine within_bind ?_ ?_
  · intro r w
    obtain ⟨n, hn⟩ := attempt_ticks (fun h t => (h.userCache t).getHome4user user)
      { host := r.host, environ := w.environ, fuel := r.fuel } w.io
    rw [lookup, runHandler_run, hn]
    exact hR w n w.environ
  · intro home
    refine within_bind (within_ofExcept _) ?_
    intro home
    refine within_bind (within_modify (hset fun e => { e with home := some home })) ?_
    intro _
    refine within_bind (within_ofExcept _) ?_
    intro name
    refine within_bind (within_modify (hset fun e => { e with user := some name })) ?_
    exact fun _ => within_modify (hset fun e => { e with logname := some name })

end Frames

/-- The part of `become_user` after the ids have been resolved. -/
def switchTo (user : Str) (config : Settings) (newUid newGid : Int) (newGids : List Int) :
    WorkerM Bool := do
  changeIdentity user newUid newGid newGids config.effectiveUid
  setEnvironment user
  return true

def becomeUser (user : Str) (requestedGroups : List Str) (config : Settings) : WorkerM Bool := do
  if config.switchUid then
    let (newUid, newGid, newGids) ← resolveIdentity user requestedGroups config
    switchTo user config newUid newGid newGids
  else if config.effectiveUid = 0 then
    raise runningAsRoot
  else
    return true

/-- The environment `restore_id` leaves behind. -/
def neutralEnviron : Environ where
  home := some "/tmp".toList
  user := some "nobody".toList
  logname := some "nobody".toList

def restoreId (config : Settings) : WorkerM Unit := do
  if config.switchUid then
    idCall (.setresuid config.effectiveUid config.effectiveUid config.effectiveUid)
    idCall (.setgid config.effectiveGid)
    idCall (.setgroups [config.effectiveGid])
    idCall (.setegid config.effectiveGid)
    modify fun w => { w with environ := neutralEnviron }

/-! ## What changing identity leaves alone -/

/-- Only answers of the host have been taken, and the identity or the environment of the process changed. -/
def Switches (w w' : Worker) : Prop :=
  ∃ n cred environ idCalls,
    w' = { w with io := { w.io with tick := n }, cred := cred, environ := environ, idCalls := idCalls }

instance : Std.Refl Switches := ⟨fun w => ⟨w.io.tick, w.cred, w.environ, w.idCalls, rfl⟩⟩

instance : IsTrans Worker Switches := ⟨by
  rintro _ _ _ ⟨_, _, _, _, rfl⟩ ⟨n, cred, environ, idCalls, rfl⟩
  exact ⟨n, cred, environ, idCalls, rfl⟩⟩

theorem runHandler_switches {α : Type} {h : Handler α} (hh : Within Ticks h) : Within Switches (runHandler h) := by
  intro r w
  obtain ⟨n, hn⟩ := hh { host := r.host, environ := w.environ, fuel := r.fuel } w.io
  exact ⟨n, w.cred, w.environ, w.idCalls, by rw [runHandler_run, hn]⟩

theorem Switches.manages {w w' : Worker} (h : Switches w w') : Manages w w' := by
  obtain ⟨n, cred, environ, idCalls, rfl⟩ := h
  exact ⟨n, cred, environ, idCalls, w.pamEvents, w.pamSession, rfl⟩

section Switches

variable (user : Str) (config : Settings)

theorem lookup_switches {α : Type} (f : UserCache → Except PyExc α) : Within Switches (lookup f) :=
  runHandler_switches (attempt_ticks _)

theorem checkMembership_switches (g : Int) : Within Switches (checkMembership g user config) := by
  unfold checkMembership
  split
  · refine within_bind (lookup_switches _) ?_
    intro gid
    split
    · exact within_pure _
    · exact within_bind (lookup_switches _) fun _ => within_pure _
  · exact within_pure _

theorem requestedGid_switches (primary : Str) : Within Switches (requestedGid primary user config) := by
  unfold requestedGid
  refine within_bind (lookup_switches _) ?_
  intro found
  split
  · split
    · exact within_raise _
    · exact lookup_switches _
  · exact within_pure _

theorem getPrimaryGroup_switches (primary : Str) : Within Switches (getPrimaryGroup primary user config) := by
  unfold getPrimaryGroup
  split
  · exact lookup_switches _
  · refine within_bind (requestedGid_switches user config primary) ?_
    intro newGid
    refine within_bind (checkMembership_switches user config newGid) ?_
    intro member
    split
    · exact within_pure _
    · split
      · exact within_raise _
      · exact lookup_switches _

theorem addGroups_switches (names : List Str) (addedDefault : Bool) (supGids : List Int) :
    Within Switches (addGroups user config names addedDefault supGids) := by
  induction names generalizing addedDefault supGids with
  | nil => exact within_pure _
  | cons g rest ih =>
      unfold addGroups
      split
      · split
        · exact ih true supGids
        · exact within_bind (lookup_switches _) fun _ => ih true _
      · refine within_bind (lookup_switches _) ?_
        intro tmp
        split
        · split
          · exact within_raise _
          · exact ih addedDefault supGids
        · refine within_bind (checkMembership_switches user config tmp) ?_
          intro member
          split
          · exact within_raise _
          · exact ih addedDefault _

theorem resolveIdentity_switches (groups : List Str) :
    Within Switches (resolveIdentity user groups config) := by
  unfold resolveIdentity
  refine within_bind (within_ofExcept _) ?_
  intro primary
  refine within_bind (lookup_switches _) ?_
  intro newUid
  split
  · exact within_raise _
  · split
    · exact within_raise _
    · split
      · refine within_bind (lookup_switches _) ?_
        exact fun _ => within_bind (lookup_switches _) fun _ => within_pure _
      · refine within_bind (getPrimaryGroup_switches user config primary) ?_
        intro newGid
        exact within_bind (addGroups_switches user config groups _ _) fun _ => within_pure _

theorem setEnvironment_switches : Within Switches (setEnvironment user) :=
  setEnvironment_within (fun w n environ => ⟨n, w.cred, environ, w.idCalls, rfl⟩) user

theorem idCall_switches (c : SysCall) : Within Switches (idCall c) := by
  unfold idCall
  refine within_bind (within_modify fun w => ?_) ?_
  · exact ⟨w.io.tick, w.cred, w.environ, _, rfl⟩
  · intro _
    refine within_bind (runHandler_switches (sysCall_ticks c)) ?_
    intro _
    refine within_bind within_ask ?_
    intro r
    refine within_bind within_get ?_
    intro w
    cases changeCred r.host.privileged c w.cred with
    | none => exact within_raise _
    | some cred =>
        exact within_modify fun w => ⟨w.io.tick, cred, w.environ, w.idCalls, rfl⟩

theorem becomeUser_switches (groups : List Str) : Within Switches (becomeUser user groups config) := by
  unfold becomeUser
  split
  · refine within_bind (resolveIdentity_switches user config groups) ?_
    rintro ⟨uid, gid, gids⟩
    unfold switchTo changeIdentity
    refine within_bind ?_ fun _ => within_bind (setEnvironment_switches user) fun _ => within_pure _
    refine within_bind (idCall_switches _) fun _ => ?_
    refine within_bind (idCall_switches _) fun _ => ?_
    refine within_bind (idCall_switches _) fun _ => ?_
    refine within_bind (idCall_switches _) fun _ => ?_
    exact checkIdentity_within user uid gid gids
  · split
    · exact within_raise _
    · exact within_pure _

theorem restoreId_switches : Within Switches (restoreId config) := by
  unfold restoreId
  split
  · refine within_bind (idCall_switches _) fun _ => ?_
    refine within_bind (idCall_switches _) fun _ => ?_
    refine within_bind (idCall_switches _) fun _ => ?_
    refine within_bind (idCall_switches _) fun _ => ?_
    exact within_modify fun w => ⟨w.io.tick, w.cred, _, w.idCalls, rfl⟩
  · exact within_pure _

theorem becomeUser_manages (groups : List Str) : Within Manages (becomeUser user groups config) :=
  within_mono (fun _ _ => Switches.manages) (becomeUser_switches user config groups)

theorem restoreId_manages : Within Manages (restoreId config) :=
  within_mono (fun _ _ => Switches.manages) (restoreId_switches config)

end Switches

end UnicoreTsi.BecomeUser
