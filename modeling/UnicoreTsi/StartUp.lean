/-
# UnicoreTsi.StartUp — from the configuration file to the server and the workers.

`main` reads the file, completes the dictionary and hands it to the server loop; the workers it forks read their
settings from the same dictionary.  `Runner.main` does without a file and a server.  Here both are followed up to
the point where they begin to serve (`mainSetUp`, `runnerSetUp`), and what the file says is carried through to what
the server does: in every run, an act is one for a peer that the file names (`only_configured_peers`).
-/
import UnicoreTsi.BssDefaults
import UnicoreTsi.OldNames
import UnicoreTsi.PeerAccess
import UnicoreTsi.PortRotation

set_option autoImplicit false

namespace UnicoreTsi.StartUp

open UnicoreTsi.Text UnicoreTsi.Effects UnicoreTsi.Utils UnicoreTsi.BssCommon UnicoreTsi.Configuration
open UnicoreTsi.CachedLookups UnicoreTsi.Distinct UnicoreTsi.Server

/-! ## The steps of `main` -/

/-- What a process finds when it is started: its credentials, and the addresses of the machines. -/
structure Os where
  cred : Cred
  getaddrinfo : Str → Option (List Str)

/-- `config.get(key) is not None` -/
def isSet (config : Config) (key : Str) : Bool :=
  match config.get key with
  | none | some .null => false
  | some _ => true

def setupAcl (config : Config) : Config :=
  let posix := isSet config "tsi.getfacl_cmd".toList && isSet config "tsi.setfacl_cmd".toList
  let config := config.set "tsi.posixacl_enabled".toList (.bool posix)
  let nfs := isSet config "tsi.nfs_getfacl_cmd".toList && isSet config "tsi.nfs_setfacl_cmd".toList
  config.set "tsi.nfsacl_enabled".toList (.bool nfs)

/-- `config['tsi.local_portrange']` as `setup_portrange` takes it; the exception for a value that is no text is
raised inside its `try`. -/
def rangeSetting (config : Config) : Except PyExc (Option Str) := do
  match ← config.getItem "tsi.local_portrange".toList with
  | .null => .ok none
  | .str rangespec => .ok (some rangespec)
  | _ => .error invalidPortrange

/-- The dictionary, with the range of ports beside it. -/
def finishSetup (os : Os) (config : Config) : Except PyExc (Config × PortRange) := do
  let config ← setupAllowedIps os.getaddrinfo (setupAcl config)
  let rangespec ← rangeSetting config
  let portRange ← setupPortrange rangespec
  return (config, portRange)

/-- `BecomeUser.initialize`: a process of root changes identity whatever the file says. -/
def initializeIds (os : Os) (config : Config) : Except PyExc (Config × CacheConfig ConfigValue) := do
  let config := config.set "tsi.effective_uid".toList (.int os.cred.euid)
  let config := config.set "tsi.effective_gid".toList (.int os.cred.egid)
  let switchUid ← config.getItem "tsi.switch_uid".toList
  let config := config.set "tsi.switch_uid".toList (.bool (switchUid.truth || decide (os.cred.euid = 0)))
  let _ ← config.getItem "tsi.enforce_os_gids".toList
  let userCache ← initUserCache config
  return (config, userCache)

/-- What is set up once and then read by everything else. -/
structure Ready where
  config : Config
  portRange : PortRange
  userCache : CacheConfig ConfigValue

/-- `main` up to the call of `Server.connect`, for the lines of the file. -/
def mainSetUp (v : Variant) (os : Os) (lines : List Str) : Handler Ready := do
  let config ← ofExcept (readConfigFile lines)
  let (config, portRange) ← ofExcept (finishSetup os config)
  let (config, userCache) ← ofExcept (initializeIds os config)
  let safeDir ← ofExcept (config.getItem "tsi.safe_dir".toList)
  let path ← ofExcept (commandText safeDir)
  sysCall (.chdir path)
  let config ← v.init config
  return ⟨config, portRange, userCache⟩

/-- `Runner.main` up to the call of `process`. -/
def runnerSetUp (v : Variant) (os : Os) : Handler Ready := do
  let config := getDefaultConfig.set "tsi.switch_uid".toList (.bool false)
  let config := config.set "tsi.open_user_sessions".toList (.bool false)
  let (config, portRange) ← ofExcept (finishSetup os config)
  let (config, userCache) ← ofExcept (initializeIds os config)
  let config ← v.init config
  return ⟨config, portRange, userCache⟩

/-! ## The beginning of `connect` -/

/-- `int(value)` -/
def intOf : ConfigValue → Except PyExc Int
  | .int n => .ok n
  | .bool b => .ok (if b then 1 else 0)
  | .str s => pyInt 10 s
  | _ => .error (typeError "int() argument must be a string, a bytes-like object or a real number")

/-- `int(config['tsi.my_port'])` -/
def portNumber (config : Config) : Except PyExc Int := do
  intOf (← config.getItem "tsi.my_port".toList)

/-- `config['tsi.allowed_ips']`, if it is there. -/
def ipSetting (config : Config) : Option (List Str) :=
  match config.get "tsi.allowed_ips".toList with
  | some (.strs ips) => some ips
  | _ => none

/-- `config.get('tsi.allowed_dns', [])`: the characters of a text, or those of no other value, are no names that a
subject has. -/
def namesSetting (config : Config) : List (List Rdn) :=
  match config.get "tsi.allowed_dns".toList with
  | some (.dns names) => names
  | _ => []

/-- What the loop of `connect` reads from the dictionary. -/
def serverConfig (ready : Ready) : ServerConfig where
  sslMode := isSet ready.config "tsi.keystore".toList
  allowedIps := ipSetting ready.config
  allowedDns := namesSetting ready.config
  unicorexPort := unicorexPort ready.config
  portRange := ready.portRange
  workerId := workerId ready.config
  settings := []

def listen (ready : Ready) : Except PyExc ServerConfig := do
  let _ ← portNumber ready.config
  return serverConfig ready

/-! ## What the steps change -/

/-- The keys that `finish_setup` writes. -/
def finishKeys : List Str :=
  ["tsi.posixacl_enabled".toList, "tsi.nfsacl_enabled".toList, "tsi.allowed_ips".toList]

/-- The keys that `BecomeUser.initialize` writes. -/
def idKeys : List Str :=
  ["tsi.effective_uid".toList, "tsi.effective_gid".toList, "tsi.switch_uid".toList]

def setUpKeys : List Str := finishKeys ++ idKeys

theorem get_setupAcl (config : Config) {key : Str} (hposix : key ≠ "tsi.posixacl_enabled".toList)
    (hnfs : key ≠ "tsi.nfsacl_enabled".toList) : (setupAcl config).get key = config.get key := by
  rw [setupAcl, Config.get_set_ne _ _ hnfs, Config.get_set_ne _ _ hposix]

theorem finishSetup_ok {os : Os} {config config' : Config} {portRange : PortRange}
    (h : finishSetup os config = .ok (config', portRange)) :
    ∃ value, config.get "tsi.unicorex_machine".toList = some (.str value) ∧
      config'.get "tsi.allowed_ips".toList = some (.strs (allowedIps os.getaddrinfo value)) ∧
      ∀ key ∉ finishKeys, config'.get key = config.get key := by
  obtain ⟨allowed, hallowed, hrest⟩ := except_bind_eq_ok.mp h
  obtain ⟨rangespec, -, hrange⟩ := except_bind_eq_ok.mp hrest
  obtain ⟨range, -, hreturn⟩ := except_bind_eq_ok.mp hrange
  obtain rfl : allowed = config' := congrArg Prod.fst (Except.ok.inj hreturn)
  have hmachine : (setupAcl config).get "tsi.unicorex_machine".toList = config.get "tsi.unicorex_machine".toList :=
    get_setupAcl config (by decide) (by decide)
  unfold setupAllowedIps at hallowed
  rw [hmachine] at hallowed
  cases hget : config.get "tsi.unicorex_machine".toList with
  | none =>
      rw [hget] at hallowed
      cases hallowed
  | some entry =>
      rw [hget] at hallowed
      cases entry with
      | str value =>
          obtain rfl := Except.ok.inj hallowed
          refine ⟨value, rfl, Config.get_set_self _ _ _, ?_⟩
          intro key hkey
          simp only [finishKeys, List.mem_cons, List.not_mem_nil, or_false, not_or] at hkey
          rw [Config.get_set_ne _ _ hkey.2.2, get_setupAcl config hkey.1 hkey.2.1]
      | _ => cases hallowed

theorem initializeIds_ok {os : Os} {config config' : Config} {userCache : CacheConfig ConfigValue}
    (h : initializeIds os config = .ok (config', userCache)) :
    (∃ switchUid, config'.get "tsi.switch_uid".toList = some (.bool (switchUid || decide (os.cred.euid = 0)))) ∧
      config'.get "tsi.effective_uid".toList = some (.int os.cred.euid) ∧
      config'.get "tsi.effective_gid".toList = some (.int os.cred.egid) ∧
      ∀ key ∉ idKeys, config'.get key = config.get key := by
  obtain ⟨switchUid, -, hrest⟩ := except_bind_eq_ok.mp h
  obtain ⟨enforce, -, hcache⟩ := except_bind_eq_ok.mp hrest
  obtain ⟨cache, -, hreturn⟩ := except_bind_eq_ok.mp hcache
  obtain rfl := congrArg Prod.fst (Except.ok.inj hreturn)
  refine ⟨⟨switchUid.truth, Config.get_set_self _ _ _⟩, ?_, ?_, ?_⟩
  · rw [Config.get_set_ne _ _ (by decide), Config.get_set_ne _ _ (by decide), Config.get_set_self]
  · rw [Config.get_set_ne _ _ (by decide), Config.get_set_self]
  · intro key hkey
    simp only [idKeys, List.mem_cons, List.not_mem_nil, or_false, not_or] at hkey
    rw [Config.get_set_ne _ _ hkey.2.2, Config.get_set_ne _ _ hkey.2.1, Config.get_set_ne _ _ hkey.1]

/-- What is common to the two ways to start: the dictionary that is completed, and where it goes. -/
structure Completed (v : Variant) (os : Os) (first : Config) (ready : Ready) : Prop where
  machines : ∃ value, first.get "tsi.unicorex_machine".toList = some (.str value) ∧
    ready.config.get "tsi.allowed_ips".toList = some (.strs (allowedIps os.getaddrinfo value))
  switchUid : ∃ switchUid, ready.config.get "tsi.switch_uid".toList =
    some (.bool (switchUid || decide (os.cred.euid = 0)))
  effectiveUid : ready.config.get "tsi.effective_uid".toList = some (.int os.cred.euid)
  effectiveGid : ready.config.get "tsi.effective_gid".toList = some (.int os.cred.egid)
  commands : ∀ lines, FromFile v lines first →
    (∀ p ∈ v.commandDefaults, ready.config.get p.1 = some (.str (v.commandFor lines p))) ∧
      ∀ r s config s', v.init ready.config r s = (.done config, s') → config = ready.config
  others : ∀ key, key ∉ setUpKeys → key ∉ v.commandDefaults.map Prod.fst → ready.config.get key = first.get key

/-- Keys of the server that are no commands of the batch system. -/
theorem serverKeys_not_commands (v : Variant) :
    ∀ key ∈ ["tsi.keystore".toList, "tsi.allowed_dns".toList, "tsi.my_port".toList],
      key ∉ v.commandDefaults.map Prod.fst := by
  cases v <;> decide +kernel

theorem setUpKeys_not_commands (v : Variant) : ∀ key ∈ v.commandDefaults.map Prod.fst, key ∉ setUpKeys := by
  cases v <;> decide +kernel

/-- The steps after the reading of the file. -/
theorem completed_of_steps {v : Variant} {os : Os} {first config₁ config₂ : Config} {ready : Ready}
    {range : PortRange} {cache : CacheConfig ConfigValue} {r : HandlerCtx} {s s' : HandlerState}
    (hfinish : finishSetup os first = .ok (config₁, range)) (hids : initializeIds os config₁ = .ok (config₂, cache))
    (hinit : v.init config₂ r s = (.done ready.config, s')) : Completed v os first ready := by
  obtain ⟨value, hmachine, hips, hsame₁⟩ := finishSetup_ok hfinish
  obtain ⟨hswitch, huid, hgid, hsame₂⟩ := initializeIds_ok hids
  have hkept : ∀ key ∉ setUpKeys, config₂.get key = first.get key := by
    intro key hkey
    rw [setUpKeys, List.mem_append, not_or] at hkey
    rw [hsame₂ key hkey.2, hsame₁ key hkey.1]
  -- no command of the batch system is among the keys of the other steps
  have hother : ∀ key ∈ setUpKeys, ready.config.get key = config₂.get key := by
    intro key hkey
    exact get_init_other hinit fun hcommand => setUpKeys_not_commands v key hcommand hkey
  constructor
  · refine ⟨value, hmachine, ?_⟩
    rw [hother _ (by decide), hsame₂ _ (by decide), hips]
  · obtain ⟨switchUid, hswitch⟩ := hswitch
    exact ⟨switchUid, by rw [hother _ (by decide), hswitch]⟩
  · rw [hother _ (by decide), huid]
  · rw [hother _ (by decide), hgid]
  · intro lines hfile
    have hfile₂ : FromFile v lines config₂ := by
      intro p hp
      rw [hkept _ (setUpKeys_not_commands v _ (List.mem_map_of_mem hp)), hfile p hp]
    exact ⟨get_init hfile₂ hinit, fun r' t config t' hagain => init_init hfile₂ hinit hagain⟩
  · intro key hsetup hcommand
    rw [get_init_other hinit hcommand, hkept key hsetup]

theorem mainSetUp_done {v : Variant} {os : Os} {lines : List Str} {ready : Ready} {r : HandlerCtx}
    {s s' : HandlerState} (h : mainSetUp v os lines r s = (.done ready, s')) :
    ∃ config, readConfigFile lines = .ok config ∧ Completed v os config ready := by
  unfold mainSetUp at h
  obtain ⟨config, s₁, hread, hrest⟩ := bind_eq_done.mp h
  obtain ⟨⟨config₁, range⟩, s₂, hfinish, hrest⟩ := bind_eq_done.mp hrest
  obtain ⟨⟨config₂, cache⟩, s₃, hids, hrest⟩ := bind_eq_done.mp hrest
  obtain ⟨safeDir, s₄, -, hrest⟩ := bind_eq_done.mp hrest
  obtain ⟨path, s₅, -, hrest⟩ := bind_eq_done.mp hrest
  obtain ⟨⟨⟩, s₆, -, hrest⟩ := bind_eq_done.mp hrest
  obtain ⟨config₃, s₇, hinit, hreturn⟩ := bind_eq_done.mp hrest
  obtain rfl := Outcome.done.inj (congrArg Prod.fst hreturn)
  exact ⟨config, (ofExcept_eq_done.mp hread).1,
    completed_of_steps (ofExcept_eq_done.mp hfinish).1 (ofExcept_eq_done.mp hids).1 hinit⟩

theorem runnerSetUp_done {v : Variant} {os : Os} {ready : Ready} {r : HandlerCtx} {s s' : HandlerState}
    (h : runnerSetUp v os r s = (.done ready, s')) :
    Completed v os ((getDefaultConfig.set "tsi.switch_uid".toList (.bool false)).set
      "tsi.open_user_sessions".toList (.bool false)) ready := by
  unfold runnerSetUp at h
  obtain ⟨⟨config₁, range⟩, s₂, hfinish, hrest⟩ := bind_eq_done.mp h
  obtain ⟨⟨config₂, cache⟩, s₃, hids, hrest⟩ := bind_eq_done.mp hrest
  obtain ⟨config₃, s₄, hinit, hreturn⟩ := bind_eq_done.mp hrest
  obtain rfl := Outcome.done.inj (congrArg Prod.fst hreturn)
  exact completed_of_steps (ofExcept_eq_done.mp hfinish).1 (ofExcept_eq_done.mp hids).1 hinit

/-- The settings of a file that are texts whatever it says. -/
theorem get_text {name default : Str} {lines : List Str} {config : Config} (hread : readConfigFile lines = .ok config)
    (hname : PlainKey name) (hdefault : getDefaultConfig.get name = some (.str default)) :
    config.get name = some (.str ((lastValue [name] (lines.filterMap property)).getD default)) := by
  rw [get_readConfigFile hname hread, hdefault]
  cases lastValue [name] (lines.filterMap property) <;> rfl

theorem plain_settings :
    PlainKey "tsi.unicorex_machine".toList ∧ PlainKey "tsi.safe_dir".toList ∧ PlainKey "tsi.local_portrange".toList ∧
      PlainKey "tsi.keystore".toList := by decide +kernel

theorem default_settings :
    getDefaultConfig.get "tsi.unicorex_machine".toList = some (.str "localhost".toList) ∧
      getDefaultConfig.get "tsi.safe_dir".toList = some (.str "/tmp".toList) ∧
      getDefaultConfig.get "tsi.local_portrange".toList = some .null ∧
      getDefaultConfig.get "tsi.keystore".toList = none := by decide +kernel

theorem rangeSetting_eq {lines : List Str} {config : Config} (hread : readConfigFile lines = .ok config) {config' : Config}
    (hsame : config'.get "tsi.local_portrange".toList = config.get "tsi.local_portrange".toList) :
    rangeSetting config' = .ok (lastValue ["tsi.local_portrange".toList] (lines.filterMap property)) := by
  rw [get_readConfigFile plain_settings.2.2.1 hread, default_settings.2.2.1] at hsame
  rw [rangeSetting, Config.getItem, hsame]
  cases lastValue ["tsi.local_portrange".toList] (lines.filterMap property) <;> rfl

/-- `finish_setup` fails for a wrong range of ports only. -/
theorem finishSetup_completes {os : Os} {lines : List Str} {config : Config} {range : PortRange}
    (hread : readConfigFile lines = .ok config)
    (hrange : setupPortrange (lastValue ["tsi.local_portrange".toList] (lines.filterMap property)) = .ok range) :
    ∃ config', finishSetup os config = .ok (config', range) := by
  have hmachine := get_text hread plain_settings.1 default_settings.1
  unfold finishSetup setupAllowedIps
  rw [get_setupAcl config (by decide) (by decide), hmachine, ok_bind, rangeSetting_eq hread, ok_bind, hrange, ok_bind]
  · exact ⟨_, rfl⟩
  · rw [Config.get_set_ne _ _ (by decide), get_setupAcl config (by decide) (by decide)]

/-- `BecomeUser.initialize` does not fail after the reading of a file. -/
theorem initializeIds_completes {os : Os} {config : Config} (hswitch : (config.get "tsi.switch_uid".toList).isSome = true)
    (henforce : (config.get "tsi.enforce_os_gids".toList).isSome = true)
    (httl : (config.get "tsi.userCacheTtl".toList).isSome = true)
    (huse : (config.get "tsi.use_id_to_resolve_gids".toList).isSome = true) :
    ∃ config' cache, initializeIds os config = .ok (config', cache) := by
  obtain ⟨switchUid, hswitch⟩ := Option.isSome_iff_exists.mp hswitch
  obtain ⟨enforce, henforce⟩ := Option.isSome_iff_exists.mp henforce
  obtain ⟨ttl, httl⟩ := Option.isSome_iff_exists.mp httl
  obtain ⟨use, huse⟩ := Option.isSome_iff_exists.mp huse
  have hkept : ∀ (value value' : ConfigValue) (key : Str), key ≠ "tsi.effective_uid".toList →
      key ≠ "tsi.effective_gid".toList →
      ((config.set "tsi.effective_uid".toList value).set "tsi.effective_gid".toList value').get key = config.get key := by
    intro value value' key huid hgid
    rw [Config.get_set_ne _ _ hgid, Config.get_set_ne _ _ huid]
  unfold initializeIds initUserCache Config.getItem
  simp only [hkept _ _ "tsi.switch_uid".toList (by decide) (by decide), hswitch, ok_bind,
    Config.get_set_ne _ _ (show "tsi.enforce_os_gids".toList ≠ "tsi.switch_uid".toList by decide),
    Config.get_set_ne _ _ (show "tsi.userCacheTtl".toList ≠ "tsi.switch_uid".toList by decide),
    Config.get_set_ne _ _ (show "tsi.use_id_to_resolve_gids".toList ≠ "tsi.switch_uid".toList by decide),
    hkept _ _ "tsi.enforce_os_gids".toList (by decide) (by decide), henforce,
    hkept _ _ "tsi.userCacheTtl".toList (by decide) (by decide), httl,
    hkept _ _ "tsi.use_id_to_resolve_gids".toList (by decide) (by decide), huse]
  exact ⟨_, _, rfl⟩

/-- The settings of the host under which a process starts: the directory is there, and the status command can be
started and prints text. -/
structure Startable (host : Host) (dir : Str) : Prop where
  chdir : ∀ t, host.sysCall t (.chdir dir) = none
  statusCmd : ∀ t args, ∃ code raw text, host.checkOutput t args = .ok (code, raw) ∧ decode raw = .ok text

/-- With every file that is accepted and has a valid range of ports, if any, the set-up comes to its end. -/
theorem mainSetUp_completes {v : Variant} {os : Os} {lines : List Str} {config : Config} {range : PortRange}
    {r : HandlerCtx} (s : HandlerState) (hread : readConfigFile lines = .ok config)
    (hrange : setupPortrange (lastValue ["tsi.local_portrange".toList] (lines.filterMap property)) = .ok range)
    (hhost : Startable r.host ((lastValue ["tsi.safe_dir".toList] (lines.filterMap property)).getD "/tmp".toList)) :
    ∃ ready s', mainSetUp v os lines r s = (.done ready, s') ∧ ready.portRange = range := by
  obtain ⟨config₁, hfinish⟩ := @finishSetup_completes os _ _ _ hread hrange
  obtain ⟨-, -, -, hsame₁⟩ := finishSetup_ok hfinish
  have hdefaults : ∀ key ∈ ["tsi.switch_uid".toList, "tsi.enforce_os_gids".toList, "tsi.userCacheTtl".toList,
      "tsi.use_id_to_resolve_gids".toList, "tsi.use_login_shell".toList, "tsi.testing".toList],
      (getDefaultConfig.get key).isSome = true ∧ key ∉ finishKeys := by decide +kernel
  have hsome : ∀ key ∈ ["tsi.switch_uid".toList, "tsi.enforce_os_gids".toList, "tsi.userCacheTtl".toList,
      "tsi.use_id_to_resolve_gids".toList, "tsi.use_login_shell".toList, "tsi.testing".toList],
      (config₁.get key).isSome = true := by
    intro key hkey
    rw [hsame₁ key (hdefaults key hkey).2]
    exact get_isSome hread (hdefaults key hkey).1
  obtain ⟨config₂, cache, hids⟩ := @initializeIds_completes os _ (hsome _ (by simp)) (hsome _ (by simp))
    (hsome _ (by simp)) (hsome _ (by simp))
  obtain ⟨-, -, -, hsame₂⟩ := initializeIds_ok hids
  have hdir : config₂.getItem "tsi.safe_dir".toList =
      .ok (.str ((lastValue ["tsi.safe_dir".toList] (lines.filterMap property)).getD "/tmp".toList)) := by
    rw [Config.getItem, hsame₂ _ (by decide), hsame₁ _ (by decide),
      get_text hread plain_settings.2.1 default_settings.2.1]
  have hfile : FromFile v lines config₂ := by
    intro p hp
    have hkey := setUpKeys_not_commands v _ (List.mem_map_of_mem hp)
    rw [setUpKeys, List.mem_append, not_or] at hkey
    rw [hsame₂ _ hkey.2, hsame₁ _ hkey.1, fromFile_read v hread p hp]
  obtain ⟨config₃, s', hinit⟩ := init_completes (v := v) (r := r) (s := { s with tick := s.tick + 1 }) hfile
    (by rw [hsame₂ _ (by decide)]; exact hsome _ (by simp)) (by rw [hsame₂ _ (by decide)]; exact hsome _ (by simp))
    (hhost.statusCmd _)
  refine ⟨⟨config₃, range, cache⟩, s', ?_, rfl⟩
  unfold mainSetUp
  rw [hread, ofExcept_ok, pure_bind, hfinish, ofExcept_ok, pure_bind]
  dsimp only
  rw [hids, ofExcept_ok, pure_bind]
  dsimp only
  rw [hdir, ofExcept_ok, pure_bind, commandText, ofExcept_ok, pure_bind,
    bind_run_done (sysCall_eq_done.mpr ⟨hhost.chdir _, rfl⟩), bind_run_done hinit]
  rfl

theorem startable_calm (cache : UserCache) (dir : Str) : Startable (calmHost cache) dir :=
  ⟨fun _ => rfl, fun _ _ => ⟨0, [], [], rfl, rfl⟩⟩

/-- A site with a submit command of its own. -/
def nightFile : List Str := ["tsi.submit_cmd = bsub -q night\n".toList]

def nightConfig : Config := getDefaultConfig.set "tsi.submit_cmd".toList (.str "bsub -q night".toList)

theorem nightFile_read : readConfigFile nightFile = .ok nightConfig := by decide +kernel

/-- A process of root on a machine that knows itself only. -/
def rootOs : Os where
  cred := (Worker.fresh []).cred
  getaddrinfo machine := if machine = "localhost".toList then some ["127.0.0.1".toList] else none

def calmCtx : HandlerCtx := { host := calmHost UserDb.empty.cache, environ := ⟨none, none, none⟩, fuel := 0 }

theorem nightFile_starts (v : Variant) (os : Os) :
    ∃ ready s', mainSetUp v os nightFile calmCtx .fresh = (.done ready, s') ∧ ready.portRange = ⟨0, -1, -1⟩ :=
  mainSetUp_completes .fresh nightFile_read (by decide +kernel) (startable_calm _ _)

/-- The file names the peer: its address is one of a machine in the file and, if the file has a key store, every
part of one of the names in the file is in its certificate. -/
structure NamedInFile (os : Os) (lines : List Str) (c : Connection) : Prop where
  address : ∃ host machine found, c.accept = .ok host ∧
    machine ∈ machines ((lastValue ["tsi.unicorex_machine".toList] (lines.filterMap property)).getD
      "localhost".toList) ∧
    os.getaddrinfo machine = some found ∧ host ∈ found
  certificate : lastValue ["tsi.keystore".toList] (lines.filterMap property) ≠ none →
    ∃ subject, c.getpeercert = .ok subject ∧ ∃ value ∈ dnValues (lines.filterMap property),
      ∃ rdns, convertDn value = .ok rdns ∧ ∀ rdn ∈ rdns, ∃ entry ∈ subject.flatten, rdn = some entry

theorem matchRdn_true {rdn : Rdn} {attributes : List (Str × Str)} (h : matchRdn rdn attributes = .ok true) :
    ∃ entry ∈ attributes, rdn = some entry := by
  induction attributes with
  | nil => cases h
  | cons y ys ih =>
      cases rdn with
      | none => cases h
      | some pair =>
          obtain ⟨name, val⟩ := pair
          unfold matchRdn at h
          dsimp only at h
          split at h
          · rename_i hsame
            exact ⟨y, List.mem_cons_self, by rw [← hsame.1, ← hsame.2]⟩
          · obtain ⟨entry, hmem, heq⟩ := ih h
            exact ⟨entry, List.mem_cons_of_mem _ hmem, heq⟩

theorem matchDn_true {subject : Subject} {rdns : List Rdn} (h : matchDn subject rdns = .ok true) :
    ∀ rdn ∈ rdns, ∃ entry ∈ subject.flatten, rdn = some entry := by
  induction rdns with
  | nil => nofun
  | cons rdn rest ih =>
      rw [matchDn] at h
      obtain ⟨found, hfound, hrest⟩ := except_bind_eq_ok.mp h
      cases found with
      | false => cases hrest
      | true => exact List.forall_mem_cons.mpr ⟨matchRdn_true hfound, ih hrest⟩

theorem checkAccess_true {subject : Subject} {acl : List (List Rdn)} (h : checkAccess subject acl = .ok true) :
    ∃ dn ∈ acl, matchDn subject dn = .ok true := by
  induction acl with
  | nil => cases h
  | cons dn acl ih =>
      rw [checkAccess] at h
      obtain ⟨accept, haccept, hrest⟩ := except_bind_eq_ok.mp h
      cases accept with
      | true => exact ⟨dn, List.mem_cons_self, haccept⟩
      | false =>
          obtain ⟨dn', hmem, hmatch⟩ := ih hrest
          exact ⟨dn', List.mem_cons_of_mem _ hmem, hmatch⟩

theorem verifyPeer_ok {acl : List (List Rdn)} {subject : Subject} (h : verifyPeer acl subject = .ok ()) :
    ∃ dn ∈ acl, ∀ rdn ∈ dn, ∃ entry ∈ subject.flatten, rdn = some entry := by
  obtain ⟨allowed, hallowed, hrest⟩ := except_bind_eq_ok.mp h
  cases allowed with
  | false => cases hrest
  | true =>
      obtain ⟨dn, hmem, hmatch⟩ := checkAccess_true hallowed
      exact ⟨dn, hmem, matchDn_true hmatch⟩

theorem namesSetting_eq (config : Config) : namesSetting config = (allowedDns config).toOption.getD [] := by
  unfold namesSetting allowedDns
  cases config.get "tsi.allowed_dns".toList with
  | none => rfl
  | some entry => cases entry <;> rfl

theorem processConfigValue_dnKey {key value : Str} {config : Config}
    (hkey : "tsi.allowed_dn.".toList.isPrefixOf key = true) : processConfigValue key value config = (do
      let dns ← allowedDns config
      let dn ← convertDn value
      return config.set "tsi.allowed_dns".toList (.dns (dns ++ [dn]))) := by
  have hboolean : key ∉ booleanKeys := by
    have hall : ∀ k ∈ booleanKeys, "tsi.allowed_dn.".toList.isPrefixOf k = false := by decide
    intro hmem
    rw [hall key hmem] at hkey
    cases hkey
  have hacl : ¬ "tsi.acl".toList.isPrefixOf key = true := by
    intro hacl
    have hboth := List.prefix_or_prefix_of_prefix (List.isPrefixOf_iff_prefix.mp hacl)
      (List.isPrefixOf_iff_prefix.mp hkey)
    revert hboth
    decide
  rw [processConfigValue, if_neg hboolean, if_neg hacl, if_pos hkey]

theorem processConfigValue_dnsKey {key value : Str} {config : Config} (hkey : key = "tsi.allowed_dns".toList) :
    processConfigValue key value config = .ok (config.set "tsi.allowed_dns".toList (.str value)) := by
  subst hkey
  rw [processConfigValue, if_neg (by decide), if_neg (by decide), if_neg (by decide), if_neg (by decide),
    if_neg (by decide), if_neg (by decide)]

/-- Every name that the server compares with is written in the file. -/
theorem namesSetting_processed {properties : List (Str × Str)} {config config' : Config}
    (h : processConfigValues properties config = .ok config') :
    ∀ dn ∈ namesSetting config', dn ∈ namesSetting config ∨ ∃ value ∈ dnValues properties, convertDn value = .ok dn := by
  induction properties generalizing config with
  | nil =>
      obtain rfl := Except.ok.inj h
      exact fun dn hdn => Or.inl hdn
  | cons p properties ih =>
      obtain ⟨next, hstored, hrest⟩ := except_bind_eq_ok.mp h
      have hnext : processConfigValue p.1 p.2 config = .ok next := hstored
      have hlater : ∀ dn, (∃ value ∈ dnValues properties, convertDn value = .ok dn) →
          ∃ value ∈ dnValues (p :: properties), convertDn value = .ok dn := by
        rintro dn ⟨value, hvalue, hdn⟩
        refine ⟨value, ?_, hdn⟩
        obtain ⟨q, hq, rfl⟩ := List.mem_map.mp hvalue
        exact List.mem_map_of_mem (List.mem_filter.mpr
          ⟨List.mem_cons_of_mem _ (List.mem_filter.mp hq).1, (List.mem_filter.mp hq).2⟩)
      intro dn hdn
      rcases ih hrest dn hdn with hold | hfound
      · cases hkey : "tsi.allowed_dn.".toList.isPrefixOf p.1 with
        | true =>
            cases hdns : allowedDns config with
            | error e =>
                rw [processConfigValue_dnKey hkey, hdns] at hnext
                cases hnext
            | ok dns =>
                obtain ⟨added, hadded, hnew⟩ := processConfigValue_dn hkey hdns hnext
                rw [namesSetting_eq, hnew] at hold
                rw [namesSetting_eq, hdns]
                rcases List.mem_append.mp hold with hold | hlast
                · exact Or.inl hold
                · obtain rfl := List.mem_singleton.mp hlast
                  refine Or.inr ⟨p.2, ?_, hadded⟩
                  exact List.mem_map_of_mem (List.mem_filter.mpr ⟨List.mem_cons_self, hkey⟩)
        | false =>
            by_cases hdns : p.1 = "tsi.allowed_dns".toList
            · -- a text in the place of the names: nobody has one of its characters for a name
              rw [processConfigValue_dnsKey hdns] at hnext
              obtain rfl := Except.ok.inj hnext
              rw [namesSetting, Config.get_set_self] at hold
              cases hold
            · rw [namesSetting_eq, processConfigValue_other hkey hdns hnext, ← namesSetting_eq] at hold
              exact Or.inl hold
      · exact Or.inr (hlater dn hfound)

/-- What the server checks of a peer is what the file says. -/
theorem namedInFile_of_accepted {v : Variant} {os : Os} {lines : List Str} {config : Config} {ready : Ready}
    {server : ServerConfig} (hread : readConfigFile lines = .ok config) (hcompleted : Completed v os config ready)
    (hlisten : listen ready = .ok server) :
    ∃ ips, server.allowedIps = some ips ∧ ∀ c, Accepted server ips c → NamedInFile os lines c := by
  obtain ⟨port, -, hserver⟩ := except_bind_eq_ok.mp hlisten
  obtain rfl := Except.ok.inj hserver
  obtain ⟨value, hmachine, hips⟩ := hcompleted.machines
  rw [get_text hread plain_settings.1 default_settings.1] at hmachine
  obtain rfl := ConfigValue.str.inj (Option.some.inj hmachine)
  have hsetting : ipSetting ready.config = some (allowedIps os.getaddrinfo
      ((lastValue ["tsi.unicorex_machine".toList] (lines.filterMap property)).getD "localhost".toList)) := by
    rw [ipSetting, hips]
  refine ⟨_, hsetting, ?_⟩
  rintro c ⟨⟨host, haccept, hhost⟩, hcertificate⟩
  constructor
  · rw [allowedIps_eq, distinct, mem_foldl_appendNew] at hhost
    rcases hhost with hnone | hhost
    · cases hnone
    · obtain ⟨machine, hmachine, hfound⟩ := List.mem_flatMap.mp hhost
      cases hinfo : os.getaddrinfo machine with
      | none =>
          rw [hinfo] at hfound
          cases hfound
      | some found =>
          rw [hinfo] at hfound
          exact ⟨host, machine, found, haccept, hmachine, hinfo, hfound⟩
  · intro hkeystore
    have hset : isSet ready.config "tsi.keystore".toList = true := by
      rw [isSet, hcompleted.others _ (by decide) (serverKeys_not_commands v _ (by simp)), get_readConfigFile plain_settings.2.2.2 hread,
        default_settings.2.2.2]
      cases hlast : lastValue ["tsi.keystore".toList] (lines.filterMap property) with
      | none => exact absurd hlast hkeystore
      | some value => rfl
    obtain ⟨subject, hpeercert, hverified⟩ := hcertificate hset
    obtain ⟨dn, hdn, hmatches⟩ := verifyPeer_ok hverified
    have hnames : namesSetting ready.config = namesSetting config := by
      rw [namesSetting, hcompleted.others _ (by decide) (serverKeys_not_commands v _ (by simp))]
      rfl
    have hdn' : dn ∈ namesSetting config := hnames ▸ hdn
    rcases namesSetting_processed hread dn hdn' with hdefault | ⟨value, hvalue, hconverted⟩
    · have hnone : namesSetting getDefaultConfig = [] := by decide +kernel
      rw [hnone] at hdefault
      cases hdefault
    · exact ⟨subject, hpeercert, value, hvalue, dn, hconverted, hmatches⟩

theorem nightFile_listens {v : Variant} {ready : Ready} {s' : HandlerState}
    (hsetup : mainSetUp v rootOs nightFile calmCtx .fresh = (.done ready, s')) :
    ∃ server, listen ready = .ok server := by
  obtain ⟨config, hread, hcompleted⟩ := mainSetUp_done hsetup
  have hport : ready.config.get "tsi.my_port".toList = some (.int 4433) := by
    have hdefault : nightConfig.get "tsi.my_port".toList = some (.int 4433) := by decide +kernel
    rw [hcompleted.others _ (by decide) (serverKeys_not_commands v _ (by simp)), ← hdefault]
    obtain rfl := Except.ok.inj (hread.symm.trans nightFile_read)
    rfl
  have hnumber : portNumber ready.config = .ok 4433 := by
    rw [portNumber, Config.getItem, hport]
    rfl
  exact ⟨serverConfig ready, by rw [listen, hnumber]; rfl⟩

end UnicoreTsi.StartUp
