/-
# UnicoreTsi.ConfiguredNumbers — the numbers of the configuration where they are used.

Two settings are calculated with: the time to live of the user cache, and the number of the next worker.  Their
defaults are numbers, but the value of a line of the file is kept as the text it is.  Here the getters of the
cache run with the value that the dictionary holds (`Call.performWith`); with a number they are the getters of
`UnicoreTsi.CachedLookups` (`performWith_int`), with a text the first lookup of a user works and the second one
raises (`expiryTest_str`).  The worker counter is followed over every run of the server (`serve_counts`).
-/
import UnicoreTsi.CachedLookups
import UnicoreTsi.PropertyFile
import UnicoreTsi.Serving

set_option autoImplicit false

namespace UnicoreTsi.CachedLookups

open UnicoreTsi.Text UnicoreTsi.Effects UnicoreTsi.Utils UnicoreTsi.Configuration

/-! ## The cache with a configured time to live -/

section Model

variable {T : Type} [LinearOrder T] [Add T] [IntCast T]

/-- `timestamp + self.cache_ttl` -/
def plusTtl (timestamp : T) : ConfigValue → Except PyExc T
  | .int n => .ok (timestamp + (n : T))
  | .bool b => .ok (timestamp + ((if b then 1 else 0 : Int) : T))
  | _ => .error (typeError "unsupported operand type(s) for +: 'float' and 'str'")

def expiredWith (cacheTtl : ConfigValue) (timestamp : Option T) (now : T) : Except PyExc Bool :=
  match timestamp with
  | none => .ok true
  | some t => (plusTtl t cacheTtl).map fun limit => decide (limit < now)

/-- The timestamp that a call checks. -/
def Call.timestamp (s : CacheState T) : Call → Option T
  | .gid4group group => s.groupsTimestamps group
  | call => s.usersTimestamps call.name

/-- The lookup that a call makes if the timestamp has expired. -/
def Call.update (cfg : CacheConfig T) : Call → CacheM T Unit
  | .gid4group group => updateGroupInfo group
  | call => updateUserInfo cfg call.name

/-- The test of the timestamp in a call. -/
def Call.expiryTest (cache : CacheConfig ConfigValue) (call : Call) (os : Os T) (s : CacheState T) :
    Except PyExc Bool :=
  expiredWith cache.cacheTtl (call.timestamp s) os.checked

/-- A getter of the cache that `initialize` makes: the preparation, then the field it reads. -/
def Call.performWith (cache : CacheConfig ConfigValue) (call : Call) : CacheM T Value := do
  let os ← ask
  let s ← get
  let expired ← ofExcept (call.expiryTest cache os s)
  -- a lookup does not use the time to live
  if expired then call.update ⟨os.checked, cache.useIdToResolveGroups⟩
  let s ← get
  return call.field s

def afterCallsWith (cache : CacheConfig ConfigValue) : List (Call × Os T) → CacheState T → CacheState T
  | [], s => s
  | (call, os) :: calls, s => afterCallsWith cache calls (call.performWith cache os s).2

end Model

section Ttl

variable {T : Type} [LinearOrder T] [Add T] [IntCast T]

theorem expiredWith_int (n : Int) (useId : Bool) (timestamp : Option T) (now : T) :
    expiredWith (.int n) timestamp now = .ok (expired ⟨(n : T), useId⟩ timestamp now) := by
  cases timestamp <;> rfl

omit [IntCast T] in
theorem prepare_run (cfg : CacheConfig T) (call : Call) (os : Os T) (s : CacheState T) :
    call.prepare cfg os s =
      if expired cfg (call.timestamp s) os.checked then call.update cfg os s else (.done (), s) := by
  cases call with
  | gid4group group => exact prepareGroups_run cfg group os s
  | uid4user user => exact prepareUsers_run cfg user os s
  | gid4user user => exact prepareUsers_run cfg user os s
  | gids4user user => exact prepareUsers_run cfg user os s
  | home4user user => exact prepareUsers_run cfg user os s

omit [LinearOrder T] [Add T] [IntCast T] in
theorem update_congr [LinearOrder T] (ttl ttl' : T) (useId : Bool) (call : Call) :
    call.update ⟨ttl, useId⟩ = call.update (T := T) ⟨ttl', useId⟩ := by
  cases call <;> rfl

/-- With a number the getters are those of the cache with that time to live. -/
theorem performWith_int (n : Int) (useId : Bool) (call : Call) :
    call.performWith ⟨.int n, useId⟩ = perform (T := T) ⟨(n : T), useId⟩ call := by
  funext os s
  have htest : call.expiryTest ⟨.int n, useId⟩ os s =
      .ok (expired ⟨(n : T), useId⟩ (call.timestamp s) os.checked) := expiredWith_int n useId _ _
  cases hexpired : expired ⟨(n : T), useId⟩ (call.timestamp s) os.checked with
  | true =>
      have hprepare : call.prepare ⟨(n : T), useId⟩ os s = call.update ⟨(n : T), useId⟩ os s := by
        rw [prepare_run, hexpired, if_pos rfl]
      rw [perform_eq, bind_run, hprepare, Call.performWith, bind_run_done ask_run, bind_run_done get_run, htest,
        hexpired, ofExcept_ok, pure_bind, if_pos rfl, update_congr os.checked (n : T) useId call, bind_run]
  | false =>
      have hprepare : call.prepare ⟨(n : T), useId⟩ os s = (.done (), s) := by
        rw [prepare_run, hexpired, if_neg Bool.false_ne_true]
      rw [perform_eq, bind_run_done hprepare, Call.performWith, bind_run_done ask_run, bind_run_done get_run, htest,
        hexpired, ofExcept_ok, pure_bind, if_neg Bool.false_ne_true]

theorem afterCallsWith_int (n : Int) (useId : Bool) (calls : List (Call × Os T)) (s : CacheState T) :
    afterCallsWith ⟨.int n, useId⟩ calls s = afterCalls ⟨(n : T), useId⟩ calls s := by
  induction calls generalizing s with
  | nil => rfl
  | cons entry calls ih => rw [afterCallsWith, afterCalls, performWith_int, ih]

/-- An entry that is used is read, and nothing else happens. -/
theorem performWith_used {cache : CacheConfig ConfigValue} {call : Call} {os : Os T} {s : CacheState T}
    (h : call.expiryTest cache os s = .ok false) : call.performWith cache os s = (.done (call.field s), s) := by
  rw [Call.performWith, bind_run_done ask_run, bind_run_done get_run, h, ofExcept_ok, pure_bind]
  rfl

/-- With a text the test works for a name without a timestamp only. -/
theorem expiryTest_str (value : Str) (useId : Bool) {call : Call} {s : CacheState T} {t : T}
    (h : call.timestamp s = some t) (os : Os T) :
    call.expiryTest ⟨.str value, useId⟩ os s =
      .error (typeError "unsupported operand type(s) for +: 'float' and 'str'") := by
  rw [Call.expiryTest, h]
  rfl

/-- An operating system that knows every name, at one moment. -/
def Os.knowing (now : T) : Os T where
  getpwnam _ := .ok (some ⟨1000, 1000, "/home/user".toList⟩)
  getgrnam _ := .ok none
  getgrall := .ok []
  runCommand _ := .ok (false, [])
  began := now
  checked := now
  completed := now
  began_le := le_refl now
  checked_le := le_refl now

/-- A call that makes a lookup leaves the state that the lookup leaves. -/
theorem performWith_expired {cache : CacheConfig ConfigValue} {call : Call} {os : Os T} {s : CacheState T}
    (h : call.expiryTest cache os s = .ok true) :
    (call.performWith cache os s).2 = (call.update ⟨os.checked, cache.useIdToResolveGroups⟩ os s).2 := by
  rw [Call.performWith, bind_run_done ask_run, bind_run_done get_run, h, ofExcept_ok, pure_bind, if_pos rfl, bind_run]
  rcases call.update ⟨os.checked, cache.useIdToResolveGroups⟩ os s with ⟨a | e | _, s'⟩ <;> rfl

/-- The first lookup of a user leaves a timestamp, whatever the time to live is. -/
theorem timestamp_first (cache : CacheConfig ConfigValue) (user : Str) (now : T) :
    (Call.uid4user user).timestamp (afterCallsWith cache [(.uid4user user, .knowing now)] (.init T)) = some now := by
  have hfirst : (Call.uid4user user).expiryTest cache (.knowing now) (.init T) = .ok true := rfl
  let cfg : CacheConfig T := ⟨now, cache.useIdToResolveGroups⟩
  have hfound : ∃ gids, Lookup.foundUser cfg ⟨user, .knowing now⟩ = .ok (some (⟨1000, 1000, "/home/user".toList⟩, gids)) := by
    have hgids : ∃ gids, getGids4userNc cfg (.knowing now) user 1000 = .ok gids := by
      rw [getGids4userNc]
      split
      · exact ⟨[], rfl⟩
      · exact ⟨[1000], rfl⟩
    obtain ⟨gids, hgids⟩ := hgids
    refine ⟨gids, ?_⟩
    show (getGids4userNc cfg (.knowing now) user 1000 >>= _) = _
    rw [hgids]
    rfl
  obtain ⟨gids, hfound⟩ := hfound
  rw [afterCallsWith, afterCallsWith, performWith_expired hfirst]
  exact ((updateUserInfo_update cfg user (.knowing now) (.init T)).ended _ hfound).2.2

end Ttl

end UnicoreTsi.CachedLookups

namespace UnicoreTsi.Server

open UnicoreTsi.Text UnicoreTsi.Effects UnicoreTsi.Utils UnicoreTsi.Configuration

/-! ## The worker counter -/

/-- How many workers the server has counted. -/
def workers (s : ServerState) : Nat := s.acts.count .countWorker

/-- A number in the counter has grown by the workers that were counted. -/
def Counts (s s' : ServerState) : Prop :=
  ∀ n : Int, s.config.workerId = .int n → s'.config.workerId = .int (n + (workers s' - workers s))

theorem Counts.of_same {s s' : ServerState} (hid : s'.config.workerId = s.config.workerId)
    (hworkers : workers s' = workers s) : Counts s s' := by
  intro n hn
  rw [hid, hn, hworkers]
  congr 1
  omega

instance : Std.Refl Counts := ⟨fun _ => .of_same rfl rfl⟩

instance : IsTrans ServerState Counts := ⟨by
  intro s t u hst htu n hn
  rw [htu _ (hst n hn)]
  congr 1
  omega⟩

theorem workers_record (s : ServerState) {act : Act} (h : act ≠ .countWorker) :
    workers { s with acts := s.acts ++ [act] } = workers s := by
  rw [workers, workers, List.count_append, List.count_singleton, beq_false_of_ne h, if_neg Bool.false_ne_true]
  omega

theorem counts_steps : LoopSteps Counts where
  records s _ hact := .of_same rfl (workers_record s hact)
  attempts _ := .of_same rfl rfl
  rotates _ _ := .of_same rfl rfl
  sets _ _ := .of_same rfl rfl

/-- A relation under which nothing is counted. -/
def SameWorkers (s s' : ServerState) : Prop :=
  s'.config.workerId = s.config.workerId ∧ workers s' = workers s

instance : Std.Refl SameWorkers := ⟨fun _ => ⟨rfl, rfl⟩⟩

instance : IsTrans ServerState SameWorkers := ⟨fun _ _ _ h h' => ⟨h'.1.trans h.1, h'.2.trans h.2⟩⟩

theorem sameWorkers_steps : CallSteps SameWorkers where
  records s _ hact := ⟨rfl, workers_record s hact⟩
  attempts _ := ⟨rfl, rfl⟩
  rotates _ _ := ⟨rfl, rfl⟩

theorem SameWorkers.counts {s s' : ServerState} (h : SameWorkers s s') : Counts s s' := .of_same h.1 h.2

/-- The parent counts the worker that it has forked. -/
theorem countWorker_counts {m : Int} {s t : ServerState} (h : SameWorkers s t) (hm : s.config.workerId = .int m) :
    Counts s { t with config := { t.config with workerId := .int (m + 1) }, acts := t.acts ++ [.countWorker] } := by
  intro n hn
  obtain rfl : m = n := ConfigValue.int.inj (hm.symm.trans hn)
  have hworkers : workers { t with
      config := { t.config with workerId := .int (m + 1) }, acts := t.acts ++ [.countWorker] } = workers s + 1 := by
    rw [← h.2, workers, workers, List.count_append]
    rfl
  rw [hworkers]
  show ConfigValue.int (m + 1) = _
  congr 1
  omega

/-- The number is formatted before the fork, and counted up after it. -/
theorem startWorker_counts (params : Str) (numConns : Nat) : Within Counts (startWorker params numConns) := by
  have hstop : ∀ {s₀ : ServerState}, ∀ t, SameWorkers s₀ t → Counts s₀ t := fun _ h => h.counts
  intro c s
  refine bind_after (refl_of SameWorkers s) (guarded_within (callBack_within sameWorkers_steps params numConns))
    hstop ?_
  intro called s₁ hcalled
  cases called with
  | none => exact hcalled.counts
  | some _ =>
      dsimp only
      rw [bind_run_done get_run]
      cases hnumber : number s₁.config.workerId with
      | error e => exact hcalled.counts
      | ok m =>
          have hm : s₁.config.workerId = .int m := by
            unfold number at hnumber
            split at hnumber
            · rename_i k hk
              rw [hk, Except.ok.inj hnumber]
            · cases hnumber
          rw [ofExcept_ok, pure_bind]
          refine trans_of Counts hcalled.counts ?_
          refine bind_after (refl_of SameWorkers s₁) (record_within sameWorkers_steps (by simp)) hstop ?_
          intro _ s₂ hforking
          refine bind_after hforking (raising_within _) hstop ?_
          intro _ s₃ hforked
          refine bind_after hforked (closeSockets_within numConns 0) hstop ?_
          intro _ s₄ hclosed
          exact countWorker_counts hclosed hm

theorem serve_counts (conns : List Connection) (s : ServerState) : Counts s (serve conns s).2 :=
  serve_keeps counts_steps startWorker_counts conns s

end UnicoreTsi.Server

namespace UnicoreTsi.Configuration

open UnicoreTsi.Text UnicoreTsi.Effects UnicoreTsi.Utils UnicoreTsi.CachedLookups UnicoreTsi.Server

/-! ## From the file to its uses -/

/-- The truth of a value in a condition. -/
def ConfigValue.truth : ConfigValue → Bool
  | .null => false
  | .str s => decide (s ≠ [])
  | .int n => decide (n ≠ 0)
  | .bool b => b
  | .strs ss => decide (ss ≠ [])
  | .pids ns => decide (ns ≠ [])
  | .acl paths => decide (paths ≠ [])
  | .dns names => decide (names ≠ [])

/-- `config[key]` -/
def Config.getItem (config : Config) (key : Str) : Except PyExc ConfigValue :=
  match config.get key with
  | some value => .ok value
  | none => .error { kind := .keyError, text := "'".toList ++ key ++ "'".toList }

/-- The cache that `BecomeUser.initialize` sets up. -/
def initUserCache (config : Config) : Except PyExc (CacheConfig ConfigValue) := do
  let cacheTtl ← config.getItem "tsi.userCacheTtl".toList
  let useId ← config.getItem "tsi.use_id_to_resolve_gids".toList
  return ⟨cacheTtl, useId.truth⟩

/-- `config.get('tsi.worker.id', 1)` -/
def workerId (config : Config) : ConfigValue := (config.get "tsi.worker.id".toList).getD (.int 1)

/-- The number that a file configures: that of the last line for it, the default without one. -/
def configuredNumber (lines : List Str) (key : Str) (default : Int) : Option Int :=
  match lastValue [key] (lines.filterMap property) with
  | none => some default
  | some value => (pyInt 10 value).toOption

/-- The cache can be used in every sequence of lookups, and a configured number is its time to live: the getters
are those of a cache with that number, and an entry is used until that many seconds after its lookup. -/
structure TtlUsable (T : Type) [LinearOrder T] [Add T] [IntCast T] (cache : CacheConfig ConfigValue)
    (ttl : Option Int) : Prop where
  no_error : ∀ (calls : List (Call × Os T)) (call : Call) (os : Os T),
    ∃ b, call.expiryTest cache os (afterCallsWith cache calls (.init T)) = .ok b
  as_number : ∀ n ∈ ttl, ∀ call : Call,
    call.performWith cache = perform (T := T) ⟨(n : T), cache.useIdToResolveGroups⟩ call
  used_until : ∀ n ∈ ttl, ∀ (call : Call) (os : Os T) (s : CacheState T) (t : T), call.timestamp s = some t →
    (call.expiryTest cache os s = .ok false ↔ os.checked ≤ t + (n : T)) ∧
      (os.checked ≤ t + (n : T) → call.performWith cache os s = (.done (call.field s), s))

/-- In every state that the server reaches the number of the next worker can be formatted; it is the configured
number and one more for every worker that was counted. -/
structure CounterUsable (value : ConfigValue) (first : Option Int) : Prop where
  no_error : ∀ (server : ServerConfig) (conns : List Connection), server.workerId = value →
    ∃ n, number (serve conns (listening server)).2.config.workerId = .ok n
  counts : ∀ m ∈ first, ∀ (server : ServerConfig) (conns : List Connection), server.workerId = value →
    number (serve conns (listening server)).2.config.workerId =
      .ok (m + workers (serve conns (listening server)).2)

/-- Both numbers of a file can be used as numbers. -/
structure NumbersUsable (T : Type) [LinearOrder T] [Add T] [IntCast T] (lines : List Str) (config : Config) :
    Prop where
  ttl : ∃ cache, initUserCache config = .ok cache ∧
    TtlUsable T cache (configuredNumber lines "tsi.userCacheTtl".toList 600)
  counter : CounterUsable (workerId config) (configuredNumber lines "tsi.worker.id".toList 1)

section Values

variable {T : Type} [LinearOrder T] [Add T] [IntCast T]

theorem ttlUsable_int (n : Int) (useId : Bool) : TtlUsable T ⟨.int n, useId⟩ (some n) := by
  refine ⟨?_, ?_, ?_⟩
  · intro calls call os
    exact ⟨_, expiredWith_int n useId _ _⟩
  · rintro m hm call
    obtain rfl := Option.some.inj hm
    exact performWith_int n useId call
  · rintro m hm call os s t ht
    obtain rfl := Option.some.inj hm
    have htest : call.expiryTest ⟨.int n, useId⟩ os s = .ok (decide (t + (n : T) < os.checked)) := by
      rw [Call.expiryTest, ht]
      rfl
    have hused : call.expiryTest ⟨.int n, useId⟩ os s = .ok false ↔ os.checked ≤ t + (n : T) := by
      rw [htest, Except.ok.injEq, decide_eq_false_iff_not, not_lt]
    exact ⟨hused, fun h => performWith_used (hused.mpr h)⟩

/-- The second lookup of a user raises. -/
theorem not_ttlUsable_str (value : Str) (useId : Bool) (ttl : Option Int) : ¬ TtlUsable T ⟨.str value, useId⟩ ttl := by
  intro h
  let now : T := ((0 : Int) : T)
  obtain ⟨b, hb⟩ := h.no_error [(.uid4user "user".toList, .knowing now)] (.uid4user "user".toList) (.knowing now)
  rw [expiryTest_str value useId (timestamp_first _ _ now)] at hb
  cases hb

end Values

theorem counterUsable_int (n : Int) : CounterUsable (.int n) (some n) := by
  have hnumber : ∀ (server : ServerConfig) (conns : List Connection), server.workerId = .int n →
      number (serve conns (listening server)).2.config.workerId =
        .ok (n + workers (serve conns (listening server)).2) := by
    intro server conns hserver
    have hcounts := serve_counts conns (listening server) n hserver
    have hnone : workers (listening server) = 0 := rfl
    rw [hnone, Int.natCast_zero, Int.sub_zero] at hcounts
    rw [hcounts, number]
  refine ⟨?_, ?_⟩
  · intro server conns hserver
    exact ⟨_, hnumber server conns hserver⟩
  · intro m hm
    obtain rfl := Option.some.inj hm
    exact hnumber

theorem not_counterUsable_str (value : Str) (first : Option Int) : ¬ CounterUsable (.str value) first := by
  intro h
  let server : ServerConfig := { localServer with workerId := .str value }
  obtain ⟨n, hn⟩ := h.no_error server [] rfl
  cases hn

/-! ## The files -/

section Files

variable {lines : List Str} {config : Config}

/-- No property takes an entry out of the dictionary. -/
theorem get_isSome {properties : List (Str × Str)} {config config' : Config} {name : Str}
    (h : processConfigValues properties config = .ok config') (hname : (config.get name).isSome = true) :
    (config'.get name).isSome = true := by
  induction properties generalizing config with
  | nil =>
      obtain rfl := Except.ok.inj h
      exact hname
  | cons p properties ih =>
      rw [processConfigValues, List.foldlM_cons, processConfigValue_eq] at h
      obtain ⟨next, hnext, hrest⟩ := except_bind_eq_ok.mp h
      obtain ⟨entry, -, rfl⟩ := except_map_eq_ok.mp hnext
      refine ih hrest ?_
      by_cases heq : name = entry.1
      · rw [heq, Config.get_set_self]
        rfl
      · rwa [Config.get_set_ne config entry.2 heq]

/-- What `initialize` finds in the dictionary of a file. -/
theorem initUserCache_eq (hread : readConfigFile lines = .ok config) :
    ∃ useId, initUserCache config =
      .ok ⟨((lastValue ["tsi.userCacheTtl".toList] (lines.filterMap property)).map ConfigValue.str).getD (.int 600),
        useId⟩ := by
  have hplain : PlainKey "tsi.userCacheTtl".toList := by decide +kernel
  have hget := get_readConfigFile hplain hread
  have hdefault : getDefaultConfig.get "tsi.userCacheTtl".toList = some (.int 600) := by decide +kernel
  have huse : (config.get "tsi.use_id_to_resolve_gids".toList).isSome = true := get_isSome hread (by decide +kernel)
  obtain ⟨useId, huseId⟩ := Option.isSome_iff_exists.mp huse
  refine ⟨useId.truth, ?_⟩
  rw [hdefault] at hget
  rw [initUserCache, Config.getItem, Config.getItem, hget, huseId]
  cases lastValue ["tsi.userCacheTtl".toList] (lines.filterMap property) <;> rfl

theorem workerId_eq (hread : readConfigFile lines = .ok config) :
    workerId config =
      ((lastValue ["tsi.worker.id".toList] (lines.filterMap property)).map ConfigValue.str).getD (.int 1) := by
  have hplain : PlainKey "tsi.worker.id".toList := by decide +kernel
  have hget := get_readConfigFile hplain hread
  have hdefault : getDefaultConfig.get "tsi.worker.id".toList = some (.int 1) := by decide +kernel
  rw [hdefault] at hget
  rw [workerId, hget]
  cases lastValue ["tsi.worker.id".toList] (lines.filterMap property) <;> rfl

/-- A setting is usable exactly if the file leaves its default. -/
theorem noLine_iff {key : Str} :
    lastValue [key] (lines.filterMap property) = none ↔ ∀ p ∈ lines.filterMap property, p.1 ≠ key := by
  rw [lastValue_eq_none_iff]
  simp only [List.mem_singleton, ne_eq]

section Time

variable (T : Type) [LinearOrder T] [Add T] [IntCast T]

theorem ttl_iff (hread : readConfigFile lines = .ok config) :
    (∃ cache, initUserCache config = .ok cache ∧
      TtlUsable T cache (configuredNumber lines "tsi.userCacheTtl".toList 600)) ↔
      ∀ p ∈ lines.filterMap property, p.1 ≠ "tsi.userCacheTtl".toList := by
  obtain ⟨useId, hcache⟩ := initUserCache_eq hread
  rw [← noLine_iff, hcache, configuredNumber]
  cases lastValue ["tsi.userCacheTtl".toList] (lines.filterMap property) with
  | none => exact ⟨fun _ => rfl, fun _ => ⟨_, rfl, ttlUsable_int 600 useId⟩⟩
  | some value =>
      constructor
      · rintro ⟨cache, hcache, husable⟩
        obtain rfl := Except.ok.inj hcache
        exact absurd husable (not_ttlUsable_str value useId _)
      · intro h
        cases h

omit [LinearOrder T] [Add T] [IntCast T] in
theorem counter_iff (hread : readConfigFile lines = .ok config) :
    CounterUsable (workerId config) (configuredNumber lines "tsi.worker.id".toList 1) ↔
      ∀ p ∈ lines.filterMap property, p.1 ≠ "tsi.worker.id".toList := by
  rw [← noLine_iff, workerId_eq hread, configuredNumber]
  cases lastValue ["tsi.worker.id".toList] (lines.filterMap property) with
  | none => exact ⟨fun _ => rfl, fun _ => counterUsable_int 1⟩
  | some value =>
      constructor
      · intro husable
        exact absurd husable (not_counterUsable_str value _)
      · intro h
        cases h

/-- The numbers of a file are usable exactly if the file does not set them. -/
theorem numbers_usable_iff (hread : readConfigFile lines = .ok config) :
    NumbersUsable T lines config ↔
      ∀ p ∈ lines.filterMap property, p.1 ≠ "tsi.userCacheTtl".toList ∧ p.1 ≠ "tsi.worker.id".toList := by
  constructor
  · intro h p hp
    exact ⟨(ttl_iff T hread).mp h.ttl p hp, (counter_iff hread).mp h.counter p hp⟩
  · intro h
    exact ⟨(ttl_iff T hread).mpr fun p hp => (h p hp).1, (counter_iff hread).mpr fun p hp => (h p hp).2⟩

end Time

end Files

/-- A file that sets neither. -/
theorem numbers_usable_iff_port :
    readConfigFile ["tsi.my_port=4433\n".toList] =
        .ok (getDefaultConfig.set "tsi.my_port".toList (.str "4433".toList)) ∧
      (NumbersUsable Int ["tsi.my_port=4433\n".toList]
          (getDefaultConfig.set "tsi.my_port".toList (.str "4433".toList)) ↔
        ∀ p ∈ ["tsi.my_port=4433\n".toList].filterMap property,
          p.1 ≠ "tsi.userCacheTtl".toList ∧ p.1 ≠ "tsi.worker.id".toList) := by
  have hread : readConfigFile ["tsi.my_port=4433\n".toList] =
      .ok (getDefaultConfig.set "tsi.my_port".toList (.str "4433".toList)) := by decide +kernel
  exact ⟨hread, numbers_usable_iff Int hread⟩

/-- A time to live of one minute, and the second lookup of a user raises. -/
theorem cache_ttl_is_no_number :
    readConfigFile ["tsi.userCacheTtl=60\n".toList] =
        .ok (getDefaultConfig.set "tsi.userCacheTtl".toList (.str "60".toList)) ∧
      ¬ NumbersUsable Int ["tsi.userCacheTtl=60\n".toList]
          (getDefaultConfig.set "tsi.userCacheTtl".toList (.str "60".toList)) := by
  have hread : readConfigFile ["tsi.userCacheTtl=60\n".toList] =
      .ok (getDefaultConfig.set "tsi.userCacheTtl".toList (.str "60".toList)) := by decide +kernel
  refine ⟨hread, ?_⟩
  intro h
  have hline : ("tsi.userCacheTtl".toList, "60".toList) ∈ ["tsi.userCacheTtl=60\n".toList].filterMap property := by
    decide +kernel
  exact (ttl_iff Int hread).mp h.ttl _ hline rfl

end UnicoreTsi.Configuration
