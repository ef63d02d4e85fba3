/-
# UnicoreTsi.CachedLookups — the user cache over time.

`UnicoreTsi.UserCache` has the getters on a database that does not change.  Here is the class itself: its seven
dictionaries, the time to live, and getters that are called one after the other while the databases change
between the calls.  A run of `update_user_info` or `update_group_info` is one lookup; the state keeps the
lookups that were made, the latest first, for the statements only.

`cache_coherent_fresh` is the law of the cache: what is kept for a user stems from one lookup, the latest, and
what a getter returns stems from the latest lookup, which is within the time to live or made for the call.
`unchanged_database` says that on a database that does not change the cache is not seen at all.
-/
import Mathlib.Order.Lattice
import UnicoreTsi.Utils
import UnicoreTsi.UserCache
import UnicoreTsi.Lib.Effects

set_option autoImplicit false

namespace UnicoreTsi.CachedLookups

open UnicoreTsi.Text UnicoreTsi.Effects UnicoreTsi.Utils

/-! ## The cache -/

/-- An entry of `grp.getgrall()`. -/
structure GroupEntry where
  grGid : Int
  grMem : List Str

/-- What the operating system answers during a call, and what the clock shows when the call begins, when the
timestamp is checked and when a lookup is complete.  No entry stands for `KeyError`. -/
structure Os (T : Type) [LE T] where
  getpwnam : Str → Except PyExc (Option Passwd)
  getgrnam : Str → Except PyExc (Option Int)
  getgrall : Except PyExc (List GroupEntry)
  runCommand : Str → Except PyExc (Bool × Str)
  began : T
  checked : T
  completed : T
  began_le : began ≤ checked
  checked_le : checked ≤ completed

/-- A run of `update_user_info` or `update_group_info`. -/
structure Lookup (T : Type) [LE T] where
  name : Str
  os : Os T

structure CacheConfig (T : Type) where
  cacheTtl : T
  useIdToResolveGroups : Bool

/-- The dictionaries; a name without a value and a name with the value `None` are not told apart. -/
structure CacheState (T : Type) [LE T] where
  allGroups : Str → Option (List Int)
  uids : Str → Option Int
  gids : Str → Option Int
  homes : Str → Option Str
  groups : Str → Option Int
  usersTimestamps : Str → Option T
  groupsTimestamps : Str → Option T
  userLookups : List (Lookup T)
  groupLookups : List (Lookup T)

abbrev CacheM (T : Type) [LE T] (α : Type) := Comp (Os T) (CacheState T) PyExc α

/-- `__init__` -/
def CacheState.init (T : Type) [LE T] : CacheState T where
  allGroups _ := none
  uids _ := none
  gids _ := none
  homes _ := none
  groups _ := none
  usersTimestamps _ := none
  groupsTimestamps _ := none
  userLookups := []
  groupLookups := []

/-- `d[key] = value` -/
def put {α : Type} (d : Str → Option α) (key : Str) (value : Option α) : Str → Option α :=
  Function.update d key value

@[simp] theorem put_same {α : Type} (d : Str → Option α) (key : Str) (value : Option α) :
    put d key value key = value := by
  rw [put, Function.update_self]

theorem put_other {α : Type} (d : Str → Option α) {key other : Str} (value : Option α) (h : other ≠ key) :
    put d key value other = d other := by
  rw [put, Function.update_of_ne h]

section Model

variable {T : Type} [LinearOrder T] [Add T]

def getGids4userViaGetgrall (os : Os T) (user : Str) (gid : Int) : Except PyExc (List Int) := do
  let groups ← os.getgrall
  return (groups.filter fun g => user ∈ g.grMem).map (·.grGid) ++ [gid]

def getGids4userViaId (os : Os T) (user : Str) (gid : Int) : Except PyExc (List Int) := do
  let (success, out) ← os.runCommand ("id -G ".toList ++ user)
  if !success then return []
  let allGroups ← (out.splitOn ' ').mapM (pyInt 10)
  return if gid ∈ allGroups then allGroups else allGroups ++ [gid]

def getGids4userNc (cfg : CacheConfig T) (os : Os T) (user : Str) (gid : Int) : Except PyExc (List Int) :=
  if cfg.useIdToResolveGroups then getGids4userViaId os user gid else getGids4userViaGetgrall os user gid

def updateGroupInfo (group : Str) : CacheM T Unit := do
  let os ← ask
  modify fun s => { s with groupLookups := ⟨group, os⟩ :: s.groupLookups }
  modify fun s => { s with groups := put s.groups group none, groupsTimestamps := put s.groupsTimestamps group none }
  match ← ofExcept (os.getgrnam group) with
  | none => return ()
  | some grGid =>
      modify fun s => { s with
        groups := put s.groups group (some grGid)
        groupsTimestamps := put s.groupsTimestamps group (some os.completed) }

def updateUserInfo (cfg : CacheConfig T) (user : Str) : CacheM T Unit := do
  let os ← ask
  modify fun s => { s with userLookups := ⟨user, os⟩ :: s.userLookups }
  modify fun s => { s with
    uids := put s.uids user none
    gids := put s.gids user none
    homes := put s.homes user none
    allGroups := put s.allGroups user none
    usersTimestamps := put s.usersTimestamps user none }
  match ← ofExcept (os.getpwnam user) with
  | none => return ()
  | some entry =>
      modify fun s => { s with
        uids := put s.uids user (some entry.uid)
        gids := put s.gids user (some entry.gid)
        homes := put s.homes user (some entry.home) }
      let allGroups ← ofExcept (getGids4userNc cfg os user entry.gid)
      modify fun s => { s with
        allGroups := put s.allGroups user (some allGroups)
        usersTimestamps := put s.usersTimestamps user (some os.completed) }

def expired (cfg : CacheConfig T) (timestamp : Option T) (now : T) : Bool :=
  match timestamp with
  | none => true
  | some t => decide (t + cfg.cacheTtl < now)

def prepareUsers (cfg : CacheConfig T) (user : Str) : CacheM T Unit := do
  let os ← ask
  let s ← get
  if expired cfg (s.usersTimestamps user) os.checked then updateUserInfo cfg user

def prepareGroups (cfg : CacheConfig T) (group : Str) : CacheM T Unit := do
  let os ← ask
  let s ← get
  if expired cfg (s.groupsTimestamps group) os.checked then updateGroupInfo group

def getGids4user (cfg : CacheConfig T) (user : Str) : CacheM T (List Int) := do
  prepareUsers cfg user
  let s ← get
  return (s.allGroups user).getD []

def getGid4group (cfg : CacheConfig T) (group : Str) : CacheM T Int := do
  prepareGroups cfg group
  let s ← get
  return (s.groups group).getD (-1)

def getGid4user (cfg : CacheConfig T) (user : Str) : CacheM T Int := do
  prepareUsers cfg user
  let s ← get
  return (s.gids user).getD (-1)

def getUid4user (cfg : CacheConfig T) (user : Str) : CacheM T Int := do
  prepareUsers cfg user
  let s ← get
  return (s.uids user).getD (-1)

def getHome4user (cfg : CacheConfig T) (user : Str) : CacheM T (Option Str) := do
  prepareUsers cfg user
  let s ← get
  return s.homes user

/-! ## Runs -/

/-- A call of a getter. -/
inductive Call where
  | uid4user (user : Str)
  | gid4user (user : Str)
  | gids4user (user : Str)
  | home4user (user : Str)
  | gid4group (group : Str)

/-- What a getter returns. -/
inductive Value where
  | id (n : Int)
  | ids (gids : List Int)
  | home (path : Option Str)
  deriving DecidableEq, Repr

def perform (cfg : CacheConfig T) : Call → CacheM T Value
  | .uid4user user => do return .id (← getUid4user cfg user)
  | .gid4user user => do return .id (← getGid4user cfg user)
  | .gids4user user => do return .ids (← getGids4user cfg user)
  | .home4user user => do return .home (← getHome4user cfg user)
  | .gid4group group => do return .id (← getGid4group cfg group)

/-- The cache after a sequence of calls, each with what the operating system answers during it; a call that
raises leaves behind what it did. -/
def afterCalls (cfg : CacheConfig T) : List (Call × Os T) → CacheState T → CacheState T
  | [], s => s
  | (call, os) :: calls, s => afterCalls cfg calls (perform cfg call os s).2

end Model

/-! ## What a lookup leaves behind -/

section Lookups

variable {T : Type} [LinearOrder T]

/-- The latest lookup of a name. -/
def latest (lookups : List (Lookup T)) (name : Str) : Option (Lookup T) := lookups.find? (·.name = name)

@[simp] theorem latest_cons_same (name : Str) (os : Os T) (lookups : List (Lookup T)) :
    latest (⟨name, os⟩ :: lookups) name = some ⟨name, os⟩ := by
  simp [latest]

theorem latest_cons_other {name other : Str} (os : Os T) (lookups : List (Lookup T)) (h : other ≠ name) :
    latest (⟨name, os⟩ :: lookups) other = latest lookups other := by
  simp [latest, h.symm]

theorem latest_name {lookups : List (Lookup T)} {name : Str} {l : Lookup T} (h : latest lookups name = some l) :
    l.name = name := by
  simpa using List.find?_some h

/-- What the operating system answered at the lookup of a user. -/
def Lookup.foundUser (cfg : CacheConfig T) (l : Lookup T) : Except PyExc (Option (Passwd × List Int)) := do
  match ← l.os.getpwnam l.name with
  | none => return none
  | some entry =>
      let gids ← getGids4userNc cfg l.os l.name entry.gid
      return some (entry, gids)

/-- The dictionaries have for a user what one lookup found. -/
structure Shows (s : CacheState T) (user : Str) (known : Option (Passwd × List Int)) : Prop where
  uid : s.uids user = known.map (·.1.uid)
  gid : s.gids user = known.map (·.1.gid)
  home : s.homes user = known.map (·.1.home)
  groups : s.allGroups user = known.map (·.2)

/-- Two states agree on a user. -/
structure SameUser (s s' : CacheState T) (user : Str) : Prop where
  uid : s'.uids user = s.uids user
  gid : s'.gids user = s.gids user
  home : s'.homes user = s.homes user
  groups : s'.allGroups user = s.allGroups user
  timestamp : s'.usersTimestamps user = s.usersTimestamps user
  latest : latest s'.userLookups user = latest s.userLookups user

/-- Two states agree on a group. -/
structure SameGroup (s s' : CacheState T) (group : Str) : Prop where
  gid : s'.groups group = s.groups group
  timestamp : s'.groupsTimestamps group = s.groupsTimestamps group
  latest : latest s'.groupLookups group = latest s.groupLookups group

/-- A run of `update_user_info` that ends as `o`. -/
structure UserUpdate (cfg : CacheConfig T) (user : Str) (os : Os T) (s s' : CacheState T)
    (o : Outcome PyExc Unit) : Prop where
  logged : s'.userLookups = ⟨user, os⟩ :: s.userLookups
  others : ∀ other, other ≠ user → SameUser s s' other
  groups : ∀ group, SameGroup s s' group
  failed : ∀ e, Lookup.foundUser cfg ⟨user, os⟩ = .error e → o = .raised e ∧ s'.usersTimestamps user = none
  ended : ∀ known, Lookup.foundUser cfg ⟨user, os⟩ = .ok known →
    o = .done () ∧ Shows s' user known ∧ s'.usersTimestamps user = known.map fun _ => os.completed

/-- A run for a user that `getpwnam`, or one of the calls after it, raises for. -/
theorem userUpdate_raised {cfg : CacheConfig T} {user : Str} {os : Os T} {s s' : CacheState T} {e : PyExc}
    (hlogged : s'.userLookups = ⟨user, os⟩ :: s.userLookups) (hothers : ∀ other, other ≠ user → SameUser s s' other)
    (hgroups : ∀ group, SameGroup s s' group) (hlookup : Lookup.foundUser cfg ⟨user, os⟩ = .error e)
    (htimestamp : s'.usersTimestamps user = none) : UserUpdate cfg user os s s' (.raised e) := by
  refine ⟨hlogged, hothers, hgroups, ?_, ?_⟩
  · intro e' h
    obtain rfl := Except.error.inj (hlookup.symm.trans h)
    exact ⟨rfl, htimestamp⟩
  · intro known h
    cases hlookup.symm.trans h

/-- A run that finds out whether there is the user. -/
theorem userUpdate_done {cfg : CacheConfig T} {user : Str} {os : Os T} {s s' : CacheState T}
    {known : Option (Passwd × List Int)}
    (hlogged : s'.userLookups = ⟨user, os⟩ :: s.userLookups) (hothers : ∀ other, other ≠ user → SameUser s s' other)
    (hgroups : ∀ group, SameGroup s s' group) (hlookup : Lookup.foundUser cfg ⟨user, os⟩ = .ok known)
    (hshows : Shows s' user known) (htimestamp : s'.usersTimestamps user = known.map fun _ => os.completed) :
    UserUpdate cfg user os s s' (.done ()) := by
  refine ⟨hlogged, hothers, hgroups, ?_, ?_⟩
  · intro e h
    cases hlookup.symm.trans h
  · intro known' h
    obtain rfl := Except.ok.inj (hlookup.symm.trans h)
    exact ⟨rfl, hshows, htimestamp⟩

theorem updateUserInfo_update (cfg : CacheConfig T) (user : Str) (os : Os T) (s : CacheState T) :
    UserUpdate cfg user os s (updateUserInfo cfg user os s).2 (updateUserInfo cfg user os s).1 := by
  have hother : ∀ {α : Type} (d : Str → Option α) (value value' : Option α) {other : Str}, other ≠ user →
      put (put d user value) user value' other = d other := by
    intro α d value value' other hne
    rw [put_other _ _ hne, put_other _ _ hne]
  unfold updateUserInfo
  rw [bind_run_done ask_run, bind_run_done (modify_run _), bind_run_done (modify_run _)]
  cases hfound : os.getpwnam user with
  | error e =>
      have hlookup : Lookup.foundUser cfg ⟨user, os⟩ = .error e := by
        rw [Lookup.foundUser, hfound]
        rfl
      refine userUpdate_raised rfl (fun other hne => ?_) (fun _ => ⟨rfl, rfl, rfl⟩) hlookup (put_same _ _ _)
      exact ⟨put_other _ _ hne, put_other _ _ hne, put_other _ _ hne, put_other _ _ hne, put_other _ _ hne,
        latest_cons_other _ _ hne⟩
  | ok found =>
      cases found with
      | none =>
          have hlookup : Lookup.foundUser cfg ⟨user, os⟩ = .ok none := by
            rw [Lookup.foundUser, hfound]
            rfl
          refine userUpdate_done rfl (fun other hne => ?_) (fun _ => ⟨rfl, rfl, rfl⟩) hlookup
            ⟨put_same _ _ _, put_same _ _ _, put_same _ _ _, put_same _ _ _⟩ (put_same _ _ _)
          exact ⟨put_other _ _ hne, put_other _ _ hne, put_other _ _ hne, put_other _ _ hne, put_other _ _ hne,
            latest_cons_other _ _ hne⟩
      | some entry =>
          rw [ofExcept_ok, pure_bind]
          dsimp only
          rw [bind_run_done (modify_run _)]
          cases hgids : getGids4userNc cfg os user entry.gid with
          | error e =>
              have hlookup : Lookup.foundUser cfg ⟨user, os⟩ = .error e := by
                rw [Lookup.foundUser, hfound, ok_bind]
                dsimp only
                rw [hgids]
                rfl
              refine userUpdate_raised rfl (fun other hne => ?_) (fun _ => ⟨rfl, rfl, rfl⟩) hlookup (put_same _ _ _)
              exact ⟨hother _ _ _ hne, hother _ _ _ hne, hother _ _ _ hne, put_other _ _ hne, put_other _ _ hne,
                latest_cons_other _ _ hne⟩
          | ok gids =>
              have hlookup : Lookup.foundUser cfg ⟨user, os⟩ = .ok (some (entry, gids)) := by
                rw [Lookup.foundUser, hfound, ok_bind]
                dsimp only
                rw [hgids]
                rfl
              refine userUpdate_done rfl (fun other hne => ?_) (fun _ => ⟨rfl, rfl, rfl⟩) hlookup
                ⟨put_same _ _ _, put_same _ _ _, put_same _ _ _, put_same _ _ _⟩ (put_same _ _ _)
              exact ⟨hother _ _ _ hne, hother _ _ _ hne, hother _ _ _ hne, hother _ _ _ hne, hother _ _ _ hne,
                latest_cons_other _ _ hne⟩

/-- A run of `update_group_info` that ends as `o`. -/
structure GroupUpdate (group : Str) (os : Os T) (s s' : CacheState T) (o : Outcome PyExc Unit) : Prop where
  logged : s'.groupLookups = ⟨group, os⟩ :: s.groupLookups
  users : ∀ user, SameUser s s' user
  others : ∀ other, other ≠ group → SameGroup s s' other
  failed : ∀ e, os.getgrnam group = .error e → o = .raised e ∧ s'.groupsTimestamps group = none
  ended : ∀ known, os.getgrnam group = .ok known →
    o = .done () ∧ s'.groups group = known ∧ s'.groupsTimestamps group = known.map fun _ => os.completed

theorem updateGroupInfo_update (group : Str) (os : Os T) (s : CacheState T) :
    GroupUpdate group os s (updateGroupInfo group os s).2 (updateGroupInfo group os s).1 := by
  unfold updateGroupInfo
  rw [bind_run_done ask_run, bind_run_done (modify_run _), bind_run_done (modify_run _)]
  cases hfound : os.getgrnam group with
  | error e =>
      refine ⟨rfl, fun _ => ⟨rfl, rfl, rfl, rfl, rfl, rfl⟩, fun other hne => ?_, ?_, ?_⟩
      · exact ⟨put_other _ _ hne, put_other _ _ hne, latest_cons_other _ _ hne⟩
      · intro e' h
        obtain rfl := Except.error.inj (hfound.symm.trans h)
        exact ⟨rfl, put_same _ _ _⟩
      · intro known h
        cases hfound.symm.trans h
  | ok found =>
      have hended : ∀ known, os.getgrnam group = .ok known → found = known := fun known h =>
        Except.ok.inj (hfound.symm.trans h)
      cases found with
      | none =>
          refine ⟨rfl, fun _ => ⟨rfl, rfl, rfl, rfl, rfl, rfl⟩, fun other hne => ?_, ?_, ?_⟩
          · exact ⟨put_other _ _ hne, put_other _ _ hne, latest_cons_other _ _ hne⟩
          · intro e' h
            cases hfound.symm.trans h
          · intro known h
            obtain rfl := hended known h
            exact ⟨rfl, put_same _ _ _, put_same _ _ _⟩
      | some grGid =>
          refine ⟨rfl, fun _ => ⟨rfl, rfl, rfl, rfl, rfl, rfl⟩, fun other hne => ?_, ?_, ?_⟩
          · refine ⟨?_, ?_, latest_cons_other _ _ hne⟩
            · exact (put_other _ _ hne).trans (put_other _ _ hne)
            · exact (put_other _ _ hne).trans (put_other _ _ hne)
          · intro e' h
            cases hfound.symm.trans h
          · intro known h
            obtain rfl := hended known h
            exact ⟨rfl, put_same _ _ _, put_same _ _ _⟩

end Lookups

/-! ## Coherence -/

section Coherence

variable {T : Type} [LinearOrder T] {cfg : CacheConfig T} {s s' : CacheState T} {os : Os T}

/-- What is kept for a user with a timestamp stems from one lookup, the latest of this user. -/
def UserCoherent (cfg : CacheConfig T) (s : CacheState T) (user : Str) : Prop :=
  ∀ t, s.usersTimestamps user = some t → ∃ l known, latest s.userLookups user = some l ∧
    l.foundUser cfg = .ok (some known) ∧ Shows s user (some known) ∧ l.os.completed = t

/-- The same for a group. -/
def GroupCoherent (s : CacheState T) (group : Str) : Prop :=
  ∀ t, s.groupsTimestamps group = some t → ∃ l grGid, latest s.groupLookups group = some l ∧
    l.os.getgrnam l.name = .ok (some grGid) ∧ s.groups group = some grGid ∧ l.os.completed = t

structure Coherent (cfg : CacheConfig T) (s : CacheState T) : Prop where
  users : ∀ user, UserCoherent cfg s user
  groups : ∀ group, GroupCoherent s group

theorem coherent_init (cfg : CacheConfig T) : Coherent cfg (.init T) := ⟨fun _ _ => nofun, fun _ _ => nofun⟩

theorem UserCoherent.of_sameUser {user : Str} (h : UserCoherent cfg s user) (hsame : SameUser s s' user) :
    UserCoherent cfg s' user := by
  intro t ht
  obtain ⟨l, known, hlatest, hfound, hshows, hcompleted⟩ := h t (hsame.timestamp.symm.trans ht)
  refine ⟨l, known, hsame.latest.trans hlatest, hfound, ?_, hcompleted⟩
  exact ⟨hsame.uid.trans hshows.uid, hsame.gid.trans hshows.gid, hsame.home.trans hshows.home,
    hsame.groups.trans hshows.groups⟩

theorem GroupCoherent.of_sameGroup {group : Str} (h : GroupCoherent s group) (hsame : SameGroup s s' group) :
    GroupCoherent s' group := by
  intro t ht
  obtain ⟨l, grGid, hlatest, hfound, hgid, hcompleted⟩ := h t (hsame.timestamp.symm.trans ht)
  exact ⟨l, grGid, hsame.latest.trans hlatest, hfound, hsame.gid.trans hgid, hcompleted⟩

theorem UserUpdate.coherent {user : Str} {o : Outcome PyExc Unit} (h : UserUpdate cfg user os s s' o)
    (hs : Coherent cfg s) : Coherent cfg s' := by
  refine ⟨fun other => ?_, fun group => (hs.groups group).of_sameGroup (h.groups group)⟩
  by_cases hother : other = user
  · subst hother
    intro t ht
    cases hfound : Lookup.foundUser cfg ⟨other, os⟩ with
    | error e =>
        rw [(h.failed e hfound).2] at ht
        cases ht
    | ok known =>
        obtain ⟨-, hshows, htimestamp⟩ := h.ended known hfound
        rw [htimestamp] at ht
        cases known with
        | none => cases ht
        | some known =>
            refine ⟨⟨other, os⟩, known, ?_, hfound, hshows, Option.some.inj ht⟩
            rw [h.logged, latest_cons_same]
  · exact (hs.users other).of_sameUser (h.others other hother)

theorem GroupUpdate.coherent {group : Str} {o : Outcome PyExc Unit} (h : GroupUpdate group os s s' o)
    (hs : Coherent cfg s) : Coherent cfg s' := by
  refine ⟨fun user => (hs.users user).of_sameUser (h.users user), fun other => ?_⟩
  by_cases hother : other = group
  · subst hother
    intro t ht
    cases hfound : os.getgrnam other with
    | error e =>
        rw [(h.failed e hfound).2] at ht
        cases ht
    | ok known =>
        obtain ⟨-, hgid, htimestamp⟩ := h.ended known hfound
        rw [htimestamp] at ht
        cases known with
        | none => cases ht
        | some grGid =>
            refine ⟨⟨other, os⟩, grGid, ?_, hfound, hgid, Option.some.inj ht⟩
            rw [h.logged, latest_cons_same]
  · exact (hs.groups other).of_sameGroup (h.others other hother)

end Coherence

/-! ## Freshness -/

section Freshness

variable {T : Type} [LinearOrder T] [Add T] {cfg : CacheConfig T} {s : CacheState T} {os : Os T}

/-- The lookup was made for the call, or it was complete at most the time to live before the call began. -/
def Timely (cfg : CacheConfig T) (name : Str) (os : Os T) (before after : List (Lookup T)) (l : Lookup T) : Prop :=
  (l = ⟨name, os⟩ ∧ after = l :: before) ∨ (after = before ∧ os.began ≤ l.os.completed + cfg.cacheTtl)

/-- A timestamp that has not expired is not older than the time to live. -/
theorem expired_eq_false {timestamp : Option T} {now : T} :
    expired cfg timestamp now = false ↔ ∃ t, timestamp = some t ∧ now ≤ t + cfg.cacheTtl := by
  cases timestamp with
  | none => simp [expired]
  | some t => simp [expired]

theorem prepareUsers_run (cfg : CacheConfig T) (user : Str) (os : Os T) (s : CacheState T) :
    prepareUsers cfg user os s =
      if expired cfg (s.usersTimestamps user) os.checked then updateUserInfo cfg user os s else (.done (), s) := by
  rw [prepareUsers, bind_run_done ask_run, bind_run_done get_run]
  split <;> rfl

theorem prepareGroups_run (cfg : CacheConfig T) (group : Str) (os : Os T) (s : CacheState T) :
    prepareGroups cfg group os s =
      if expired cfg (s.groupsTimestamps group) os.checked then updateGroupInfo group os s else (.done (), s) := by
  rw [prepareGroups, bind_run_done ask_run, bind_run_done get_run]
  split <;> rfl

/-- `prepare_users` ends as the latest lookup of the user says, and this lookup is timely. -/
theorem prepareUsers_latest (hs : Coherent cfg s) (user : Str) (os : Os T) :
    ∃ l, latest (prepareUsers cfg user os s).2.userLookups user = some l ∧
      Timely cfg user os s.userLookups (prepareUsers cfg user os s).2.userLookups l ∧
      (∀ e, l.foundUser cfg = .error e → (prepareUsers cfg user os s).1 = .raised e) ∧
      ∀ known, l.foundUser cfg = .ok known →
        (prepareUsers cfg user os s).1 = .done () ∧ Shows (prepareUsers cfg user os s).2 user known := by
  rw [prepareUsers_run]
  cases hexpired : expired cfg (s.usersTimestamps user) os.checked with
  | true =>
      have hupdate := updateUserInfo_update cfg user os s
      rw [if_pos rfl]
      refine ⟨⟨user, os⟩, ?_, Or.inl ⟨rfl, hupdate.logged⟩, fun e he => (hupdate.failed e he).1, fun known hk => ?_⟩
      · rw [hupdate.logged, latest_cons_same]
      · exact ⟨(hupdate.ended known hk).1, (hupdate.ended known hk).2.1⟩
  | false =>
      obtain ⟨t, ht, hnow⟩ := expired_eq_false.mp hexpired
      obtain ⟨l, known, hlatest, hfound, hshows, rfl⟩ := hs.users user t ht
      rw [if_neg Bool.false_ne_true]
      refine ⟨l, hlatest, Or.inr ⟨rfl, os.began_le.trans hnow⟩, fun e he => ?_, fun known' hk => ?_⟩
      · cases hfound.symm.trans he
      · obtain rfl := Except.ok.inj (hfound.symm.trans hk)
        exact ⟨rfl, hshows⟩

theorem prepareGroups_latest (hs : Coherent cfg s) (group : Str) (os : Os T) :
    ∃ l, latest (prepareGroups cfg group os s).2.groupLookups group = some l ∧
      Timely cfg group os s.groupLookups (prepareGroups cfg group os s).2.groupLookups l ∧
      (∀ e, l.os.getgrnam l.name = .error e → (prepareGroups cfg group os s).1 = .raised e) ∧
      ∀ known, l.os.getgrnam l.name = .ok known →
        (prepareGroups cfg group os s).1 = .done () ∧ (prepareGroups cfg group os s).2.groups group = known := by
  rw [prepareGroups_run]
  cases hexpired : expired cfg (s.groupsTimestamps group) os.checked with
  | true =>
      have hupdate := updateGroupInfo_update group os s
      rw [if_pos rfl]
      refine ⟨⟨group, os⟩, ?_, Or.inl ⟨rfl, hupdate.logged⟩, fun e he => (hupdate.failed e he).1, fun known hk => ?_⟩
      · rw [hupdate.logged, latest_cons_same]
      · exact ⟨(hupdate.ended known hk).1, (hupdate.ended known hk).2.1⟩
  | false =>
      obtain ⟨t, ht, hnow⟩ := expired_eq_false.mp hexpired
      obtain ⟨l, grGid, hlatest, hfound, hgid, rfl⟩ := hs.groups group t ht
      rw [if_neg Bool.false_ne_true]
      refine ⟨l, hlatest, Or.inr ⟨rfl, os.began_le.trans hnow⟩, fun e he => ?_, fun known' hk => ?_⟩
      · cases hfound.symm.trans he
      · obtain rfl := Except.ok.inj (hfound.symm.trans hk)
        exact ⟨rfl, hgid⟩

/-- The lookups that matter for a call. -/
def Call.lookups (s : CacheState T) : Call → List (Lookup T)
  | .gid4group _ => s.groupLookups
  | _ => s.userLookups

def Call.name : Call → Str
  | .uid4user name | .gid4user name | .gids4user name | .home4user name | .gid4group name => name

/-- What a getter runs before it reads a field. -/
def Call.prepare (cfg : CacheConfig T) : Call → CacheM T Unit
  | .gid4group group => prepareGroups cfg group
  | call => prepareUsers cfg call.name

/-- The field it reads, with the default. -/
def Call.field (s : CacheState T) : Call → Value
  | .uid4user user => .id ((s.uids user).getD (-1))
  | .gid4user user => .id ((s.gids user).getD (-1))
  | .gids4user user => .ids ((s.allGroups user).getD [])
  | .home4user user => .home (s.homes user)
  | .gid4group group => .id ((s.groups group).getD (-1))

/-- What a lookup answers to a call. -/
def Call.answer (cfg : CacheConfig T) (l : Lookup T) : Call → Except PyExc Value
  | .uid4user _ => (l.foundUser cfg).map fun known => .id ((known.map (·.1.uid)).getD (-1))
  | .gid4user _ => (l.foundUser cfg).map fun known => .id ((known.map (·.1.gid)).getD (-1))
  | .gids4user _ => (l.foundUser cfg).map fun known => .ids ((known.map (·.2)).getD [])
  | .home4user _ => (l.foundUser cfg).map fun known => .home (known.map (·.1.home))
  | .gid4group _ => (l.os.getgrnam l.name).map fun known => .id (known.getD (-1))

theorem perform_eq (cfg : CacheConfig T) (call : Call) :
    perform cfg call = do
      call.prepare cfg
      let s ← get
      return call.field s := by
  cases call with
  | uid4user user =>
      rw [perform, getUid4user]
      simp only [bind_assoc, pure_bind]
      rfl
  | gid4user user =>
      rw [perform, getGid4user]
      simp only [bind_assoc, pure_bind]
      rfl
  | gids4user user =>
      rw [perform, getGids4user]
      simp only [bind_assoc, pure_bind]
      rfl
  | home4user user =>
      rw [perform, getHome4user]
      simp only [bind_assoc, pure_bind]
      rfl
  | gid4group group =>
      rw [perform, getGid4group]
      simp only [bind_assoc, pure_bind]
      rfl

/-- A getter raises what the preparation raises, and otherwise returns what the field is then. -/
theorem perform_run (call : Call) {α : Type} {found : Except PyExc α} {value : α → Value}
    (hfailed : ∀ e, found = .error e → (call.prepare cfg os s).1 = .raised e)
    (hended : ∀ known, found = .ok known →
      (call.prepare cfg os s).1 = .done () ∧ call.field (call.prepare cfg os s).2 = value known) :
    perform cfg call os s = (Outcome.ofExcept (found.map value), (call.prepare cfg os s).2) := by
  rw [perform_eq, bind_run]
  revert hfailed hended
  rcases call.prepare cfg os s with ⟨o, s'⟩
  cases found with
  | error e =>
      intro hfailed _
      obtain rfl : o = .raised e := hfailed e rfl
      rfl
  | ok known =>
      intro _ hended
      obtain ⟨ho, hfield⟩ := hended known rfl
      obtain rfl : o = .done () := ho
      show ((Outcome.done (call.field s') : Outcome PyExc Value), s') = _
      rw [hfield]
      rfl

/-- A call for a field of a user. -/
theorem userCall_latest (hs : Coherent cfg s) (call : Call) (os : Os T)
    {value : Option (Passwd × List Int) → Value} (hprepare : call.prepare cfg = prepareUsers cfg call.name)
    (hlookups : ∀ s : CacheState T, call.lookups s = s.userLookups)
    (hfield : ∀ (s : CacheState T) known, Shows s call.name known → call.field s = value known) :
    ∃ l, latest (call.lookups (perform cfg call os s).2) call.name = some l ∧
      Timely cfg call.name os (call.lookups s) (call.lookups (perform cfg call os s).2) l ∧
      (perform cfg call os s).1 = Outcome.ofExcept ((l.foundUser cfg).map value) := by
  obtain ⟨l, hlatest, htimely, hfailed, hended⟩ := prepareUsers_latest hs call.name os
  rw [← hprepare] at hlatest htimely hfailed hended
  refine ⟨l, ?_⟩
  rw [perform_run call hfailed fun known hk => ⟨(hended known hk).1, hfield _ _ (hended known hk).2⟩, hlookups,
    hlookups]
  exact ⟨hlatest, htimely, rfl⟩

/-- A call ends as the latest lookup of its name says, and this lookup is timely. -/
theorem perform_latest (hs : Coherent cfg s) (call : Call) (os : Os T) :
    ∃ l, latest (call.lookups (perform cfg call os s).2) call.name = some l ∧
      Timely cfg call.name os (call.lookups s) (call.lookups (perform cfg call os s).2) l ∧
      (perform cfg call os s).1 = Outcome.ofExcept (call.answer cfg l) := by
  cases call with
  | uid4user user =>
      refine userCall_latest hs (.uid4user user) os rfl (fun _ => rfl) fun s known h => ?_
      exact congrArg (fun uid => Value.id (uid.getD (-1))) h.uid
  | gid4user user =>
      refine userCall_latest hs (.gid4user user) os rfl (fun _ => rfl) fun s known h => ?_
      exact congrArg (fun gid => Value.id (gid.getD (-1))) h.gid
  | gids4user user =>
      refine userCall_latest hs (.gids4user user) os rfl (fun _ => rfl) fun s known h => ?_
      exact congrArg (fun gids => Value.ids (gids.getD [])) h.groups
  | home4user user =>
      refine userCall_latest hs (.home4user user) os rfl (fun _ => rfl) fun s known h => ?_
      exact congrArg Value.home h.home
  | gid4group group =>
      obtain ⟨l, hlatest, htimely, hfailed, hended⟩ := prepareGroups_latest hs group os
      refine ⟨l, ?_⟩
      rw [perform_run (.gid4group group) hfailed fun known hk => ⟨(hended known hk).1, ?_⟩]
      · exact ⟨hlatest, htimely, rfl⟩
      · exact congrArg (fun gid => Value.id (gid.getD (-1))) (hended known hk).2

/-- A call leaves the cache as it is, or runs one update. -/
theorem perform_preserves {P : CacheState T → Prop} (hs : P s)
    (husers : ∀ user, P (updateUserInfo cfg user os s).2) (hgroups : ∀ group, P (updateGroupInfo group os s).2)
    (call : Call) : P (perform cfg call os s).2 := by
  have hprepareUsers : ∀ user, P (prepareUsers cfg user os s).2 := by
    intro user
    rw [prepareUsers_run]
    split
    · exact husers user
    · exact hs
  have hprepare : P (call.prepare cfg os s).2 := by
    cases call with
    | gid4group group =>
        show P (prepareGroups cfg group os s).2
        rw [prepareGroups_run]
        split
        · exact hgroups group
        · exact hs
    | uid4user user => exact hprepareUsers user
    | gid4user user => exact hprepareUsers user
    | gids4user user => exact hprepareUsers user
    | home4user user => exact hprepareUsers user
  rw [perform_eq]
  refine bind_post hprepare fun _ s' hrun => ?_
  rw [hrun] at hprepare
  exact hprepare

theorem perform_coherent (hs : Coherent cfg s) (call : Call) (os : Os T) :
    Coherent cfg (perform cfg call os s).2 := by
  refine perform_preserves hs (fun user => ?_) (fun group => ?_) call
  · exact (updateUserInfo_update cfg user os s).coherent hs
  · exact (updateGroupInfo_update group os s).coherent hs

theorem afterCalls_coherent (hs : Coherent cfg s) (calls : List (Call × Os T)) :
    Coherent cfg (afterCalls cfg calls s) := by
  induction calls generalizing s with
  | nil => exact hs
  | cons entry calls ih => exact ih (perform_coherent hs entry.1 entry.2)

/-- The operating system did not know the name at the lookup. -/
def Call.UnknownAt (l : Lookup T) : Call → Prop
  | .gid4group _ => l.os.getgrnam l.name = .ok none
  | _ => l.os.getpwnam l.name = .ok none

/-- What a getter returns for an unknown name. -/
def Call.default : Call → Value
  | .gids4user _ => .ids []
  | .home4user _ => .home none
  | _ => .id (-1)

omit [Add T] in
theorem answer_of_unknown {l : Lookup T} {call : Call} (h : call.UnknownAt l) :
    call.answer cfg l = .ok call.default := by
  have huser : l.os.getpwnam l.name = .ok none → l.foundUser cfg = .ok none := by
    intro h
    rw [Lookup.foundUser, h]
    rfl
  cases call with
  | gid4group group =>
      have hgroup : l.os.getgrnam l.name = .ok none := h
      rw [Call.answer, hgroup]
      rfl
  | uid4user user =>
      rw [Call.answer, huser h]
      rfl
  | gid4user user =>
      rw [Call.answer, huser h]
      rfl
  | gids4user user =>
      rw [Call.answer, huser h]
      rfl
  | home4user user =>
      rw [Call.answer, huser h]
      rfl

/-- A value that stems from the latest lookup of the name, which is timely; it is the default if the name was
unknown then. -/
def Answered (cfg : CacheConfig T) (call : Call) (os : Os T) (s s' : CacheState T) (v : Value) : Prop :=
  ∃ l, latest (call.lookups s') call.name = some l ∧ call.answer cfg l = .ok v ∧
    Timely cfg call.name os (call.lookups s) (call.lookups s') l ∧ (call.UnknownAt l → v = call.default)

/-- **Coherence and freshness.**  After any calls, whatever the operating system answered during them, what is
kept stems from one lookup, and the next call that returns a value returns an answer of the latest lookup. -/
theorem cache_coherent_fresh (cfg : CacheConfig T) (calls : List (Call × Os T)) :
    Coherent cfg (afterCalls cfg calls (.init T)) ∧
      ∀ (call : Call) (os : Os T) (v : Value) (s' : CacheState T),
        perform cfg call os (afterCalls cfg calls (.init T)) = (.done v, s') →
          Answered cfg call os (afterCalls cfg calls (.init T)) s' v := by
  have hcoherent := afterCalls_coherent (coherent_init cfg) calls
  refine ⟨hcoherent, fun call os v s' hcall => ?_⟩
  obtain ⟨l, hlatest, htimely, hends⟩ := perform_latest hcoherent call os
  rw [hcall] at hlatest htimely hends
  have hanswer : call.answer cfg l = .ok v := by
    cases h : call.answer cfg l with
    | error e =>
        rw [h] at hends
        cases hends
    | ok v' =>
        rw [h] at hends
        exact congrArg _ (Outcome.done.inj hends).symm
  refine ⟨l, hlatest, hanswer, htimely, fun hunknown => ?_⟩
  exact Except.ok.inj (hanswer.symm.trans (answer_of_unknown hunknown))

end Freshness

/-- The answers for a user that is there from 0 on and is gone from 10 on. -/
def demoOs (began : Nat) : Os Nat where
  getpwnam user := .ok (if user = "demo".toList ∧ began < 10 then some ⟨1000, 100, "/home/demo".toList⟩ else none)
  getgrnam _ := .ok none
  getgrall := .ok []
  runCommand _ := .ok (true, "100 101\n".toList)
  began := began
  checked := began
  completed := began + 1
  began_le := le_rfl
  checked_le := Nat.le_succ began

theorem cache_coherent_fresh_demo :
    ∃ s', perform ⟨60, true⟩ (.uid4user "demo".toList) (demoOs 10)
        (afterCalls ⟨60, true⟩ [(.home4user "demo".toList, demoOs 0)] (.init Nat)) = (.done (.id 1000), s') ∧
      Answered ⟨60, true⟩ (.uid4user "demo".toList) (demoOs 10)
        (afterCalls ⟨60, true⟩ [(.home4user "demo".toList, demoOs 0)] (.init Nat)) s' (.id 1000) := by
  have hcall : perform ⟨60, true⟩ (.uid4user "demo".toList) (demoOs 10)
      (afterCalls ⟨60, true⟩ [(.home4user "demo".toList, demoOs 0)] (.init Nat)) = (.done (.id 1000),
        (perform ⟨60, true⟩ (.uid4user "demo".toList) (demoOs 10)
          (afterCalls ⟨60, true⟩ [(.home4user "demo".toList, demoOs 0)] (.init Nat))).2) :=
    Prod.ext (by decide +kernel) rfl
  exact ⟨_, hcall, (cache_coherent_fresh _ _).2 _ _ _ _ hcall⟩

/-! ## A database that does not change -/

section Unchanged

variable {T : Type} [LinearOrder T] [Add T] {cfg : CacheConfig T} {db : UserDb}

/-- What the operating system answers are the entries of a database. -/
structure ShowsDb (cfg : CacheConfig T) (db : UserDb) (os : Os T) : Prop where
  getpwnam : ∀ user, os.getpwnam user = .ok (db.getpwnam user)
  getgrnam : ∀ group, os.getgrnam group = .ok (db.getgrnam group)
  getGids4userNc : ∀ user gid, CachedLookups.getGids4userNc cfg os user gid = db.getGids4userNc user gid

/-- The getters of a view, as calls. -/
def Call.view (view : UserCache) : Call → Except PyExc Value
  | .uid4user user => (view.getUid4user user).map .id
  | .gid4user user => (view.getGid4user user).map .id
  | .gids4user user => (view.getGids4user user).map .ids
  | .home4user user => (view.getHome4user user).map .home
  | .gid4group group => (view.getGid4group group).map .id

omit [Add T] in
theorem answer_of_showsDb {l : Lookup T} (h : ShowsDb cfg db l.os) {call : Call} (hname : l.name = call.name) :
    call.answer cfg l = call.view db.cache := by
  have huser : ∀ {α : Type} (default : α) (field : Passwd → List Int → α) (value : α → Value),
      (l.foundUser cfg).map (fun known => value ((known.map fun k => field k.1 k.2).getD default)) =
        (db.userField default field l.name).map value := by
    intro α default field value
    rw [Lookup.foundUser, UserDb.userField, h.getpwnam, ok_bind]
    cases db.getpwnam l.name with
    | none => rfl
    | some entry =>
        dsimp only
        rw [h.getGids4userNc]
        cases db.getGids4userNc l.name entry.gid with
        | error e => rfl
        | ok gids => rfl
  cases call with
  | uid4user user =>
      obtain rfl : l.name = user := hname
      exact huser (-1) (fun entry _ => entry.uid) Value.id
  | gid4user user =>
      obtain rfl : l.name = user := hname
      exact huser (-1) (fun entry _ => entry.gid) Value.id
  | gids4user user =>
      obtain rfl : l.name = user := hname
      exact huser [] (fun _ gids => gids) Value.ids
  | home4user user =>
      obtain rfl : l.name = user := hname
      have hhome := huser none (fun entry _ => some entry.home) Value.home
      rw [Call.view, UserDb.cache, ← hhome, Call.answer]
      congr 1
      funext known
      cases known with
      | none => rfl
      | some known => rfl
  | gid4group group =>
      obtain rfl : l.name = group := hname
      rw [Call.answer, h.getgrnam]
      rfl

/-- The latest lookups have seen the database. -/
structure SeenDb (cfg : CacheConfig T) (db : UserDb) (s : CacheState T) : Prop where
  users : ∀ user l, latest s.userLookups user = some l → ShowsDb cfg db l.os
  groups : ∀ group l, latest s.groupLookups group = some l → ShowsDb cfg db l.os

theorem perform_seenDb {s : CacheState T} (hs : SeenDb cfg db s) (call : Call) {os : Os T} (hos : ShowsDb cfg db os) :
    SeenDb cfg db (perform cfg call os s).2 := by
  refine perform_preserves hs (fun user => ?_) (fun group => ?_) call
  · have hupdate := updateUserInfo_update cfg user os s
    refine ⟨fun other l hlatest => ?_, fun group l hlatest => ?_⟩
    · by_cases hother : other = user
      · rw [hother, hupdate.logged, latest_cons_same] at hlatest
        obtain rfl := Option.some.inj hlatest
        exact hos
      · exact hs.users other l ((hupdate.others other hother).latest.symm.trans hlatest)
    · exact hs.groups group l ((hupdate.groups group).latest.symm.trans hlatest)
  · have hupdate := updateGroupInfo_update group os s
    refine ⟨fun user l hlatest => ?_, fun other l hlatest => ?_⟩
    · exact hs.users user l ((hupdate.users user).latest.symm.trans hlatest)
    · by_cases hother : other = group
      · rw [hother, hupdate.logged, latest_cons_same] at hlatest
        obtain rfl := Option.some.inj hlatest
        exact hos
      · exact hs.groups other l ((hupdate.others other hother).latest.symm.trans hlatest)

theorem afterCalls_seenDb {s : CacheState T} (hs : SeenDb cfg db s) {calls : List (Call × Os T)}
    (hcalls : ∀ entry ∈ calls, ShowsDb cfg db entry.2) : SeenDb cfg db (afterCalls cfg calls s) := by
  induction calls generalizing s with
  | nil => exact hs
  | cons entry calls ih =>
      refine ih (perform_seenDb hs entry.1 (hcalls entry List.mem_cons_self)) fun later hlater => ?_
      exact hcalls later (List.mem_cons_of_mem _ hlater)

/-- On a database that does not change the getters answer as the view of it does, whatever was cached when. -/
theorem unchanged_database {calls : List (Call × Os T)} (hcalls : ∀ entry ∈ calls, ShowsDb cfg db entry.2)
    (call : Call) {os : Os T} (hos : ShowsDb cfg db os) :
    (perform cfg call os (afterCalls cfg calls (.init T))).1 = Outcome.ofExcept (call.view db.cache) := by
  have hseen : SeenDb cfg db (afterCalls cfg calls (.init T)) :=
    afterCalls_seenDb ⟨fun _ _ h => by simp [latest, CacheState.init] at h,
      fun _ _ h => by simp [latest, CacheState.init] at h⟩ hcalls
  have hafter := perform_seenDb hseen call hos
  obtain ⟨l, hlatest, -, hends⟩ := perform_latest (afterCalls_coherent (coherent_init cfg) calls) call os
  have hshows : ShowsDb cfg db l.os := by
    cases call with
    | gid4group group => exact hafter.groups group l hlatest
    | uid4user user => exact hafter.users user l hlatest
    | gid4user user => exact hafter.users user l hlatest
    | gids4user user => exact hafter.users user l hlatest
    | home4user user => exact hafter.users user l hlatest
  rw [hends, answer_of_showsDb hshows (latest_name hlatest)]

end Unchanged

end UnicoreTsi.CachedLookups
