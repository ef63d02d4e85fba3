/-
# UnicoreTsi.BssDefaults — the commands of the batch system.

`init` gives a default to every command that the configuration file leaves out.  The defaults are those of
`BSSBase`, overridden by those of the variant; LSF also makes its submit command read from standard input.  What
the dictionary holds afterwards is said entry by entry (`get_init`, `get_init_other`), for every file and every
variant, and with it what the functions find when they read their settings (`Settings.ofConfig`).
-/
import UnicoreTsi.AclRequests
import UnicoreTsi.ConfiguredNumbers
import UnicoreTsi.StatusListing
import UnicoreTsi.Variants

set_option autoImplicit false

namespace UnicoreTsi.BssCommon

open UnicoreTsi.Text UnicoreTsi.Effects UnicoreTsi.Utils UnicoreTsi.Configuration UnicoreTsi.KeyedMax

/-! ## The defaults -/

/-- `BSSBase.defaults` -/
def baseDefaults : List (Str × Str) :=
  [("tsi.qstat_cmd".toList, "ps -e -os,args".toList),
    ("tsi.abort_cmd".toList, ("SID=$(ps -e -osid,args | grep \"nice .* ./UNICORE_Job_%s\" | " ++
      "grep -v \"grep \" | egrep -o \"^\\s*([0-9]+)\" ); pkill -SIGTERM -s $SID").toList),
    ("tsi.get_processes_cmd".toList, "ps -e".toList),
    ("tsi.get_partitions_cmd".toList, "echo".toList)]

namespace Variant

/-- `defaults` of the class; nobatch has those of `BSSBase`. -/
def ownDefaults : Variant → List (Str × Str)
  | nobatch => baseDefaults
  | slurm =>
      [("tsi.submit_cmd".toList, "sbatch".toList),
        ("tsi.alloc_cmd".toList, "salloc --no-shell".toList),
        ("tsi.qstat_cmd".toList, "squeue -h -o \"%i %T %P\"".toList),
        ("tsi.details_cmd".toList, "scontrol show jobid".toList),
        ("tsi.abort_cmd".toList, "scancel %s".toList),
        ("tsi.hold_cmd".toList, "scontrol hold".toList),
        ("tsi.resume_cmd".toList, "scontrol release".toList),
        ("tsi.get_partitions_cmd".toList, "sinfo --all --noheader --format \"%P %D\"".toList)]
  | torque =>
      [("tsi.submit_cmd".toList, "qsub".toList),
        ("tsi.qstat_cmd".toList, "qstat -a".toList),
        ("tsi.details_cmd".toList, "qstat -f".toList),
        ("tsi.abort_cmd".toList, "qdel %s".toList),
        ("tsi.hold_cmd".toList, "qhold".toList),
        ("tsi.resume_cmd".toList, "qrls".toList)]
  | lsf =>
      [("tsi.submit_cmd".toList, "bsub <".toList),
        ("tsi.qstat_cmd".toList, "bjobs -w -u all".toList),
        ("tsi.details_cmd".toList, "bjobs -l".toList),
        ("tsi.abort_cmd".toList, "bkill %s".toList),
        ("tsi.hold_cmd".toList, "bstop".toList),
        ("tsi.resume_cmd".toList, "bresume".toList),
        ("tsi.lsf.memory_conversion_factor".toList, "1".toList)]

/-- `defs = BSSBase.defaults; defs.update(self.defaults)` -/
def commandDefaults (v : Variant) : List (Str × Str) :=
  v.ownDefaults.foldl (fun defs p => putField p.1 p.2 defs) baseDefaults

end Variant

/-! ## Setting them up -/

/-- `if config.get(key) is None: config[key] = value` -/
def fillDefault (config : Config) (p : Str × Str) : Config :=
  match config.get p.1 with
  | none | some .null => config.set p.1 (.str p.2)
  | some _ => config

def fillDefaults (defs : List (Str × Str)) (config : Config) : Config := defs.foldl fillDefault config

/-- A setting as a command line. -/
def commandText : ConfigValue → Except PyExc Str
  | .str s => .ok s
  | _ => .error (typeError "expected str, bytes or os.PathLike object")

/-- `BSSBase.init`: what the status command prints is only logged. -/
def initBase (v : Variant) (config : Config) : Handler Config := do
  let config := fillDefaults v.commandDefaults config
  let useLoginShell ← ofExcept (config.getItem "tsi.use_login_shell".toList)
  let testing ← ofExcept (config.getItem "tsi.testing".toList)
  if testing.truth then
    return config
  else
    let qstatCmd ← ofExcept (config.getItem "tsi.qstat_cmd".toList)
    let cmd ← ofExcept (commandText qstatCmd)
    let _ ← runCommand cmd false false useLoginShell.truth
    return config

/-- `init` of LSF after that of `BSSBase`. -/
def initLsf (config : Config) : Except PyExc Config :=
  match config.get "tsi.submit_cmd".toList with
  | some (.str submitCmd) =>
      .ok (if (strip submitCmd).getLast? = some '<' then config
        else config.set "tsi.submit_cmd".toList (.str (submitCmd ++ " <".toList)))
  | _ => .error (attributeError "'NoneType' object has no attribute 'strip'")

def Variant.init (v : Variant) (config : Config) : Handler Config := do
  let config ← initBase v config
  match v with
  | .lsf => ofExcept (initLsf config)
  | _ => return config

end UnicoreTsi.BssCommon

namespace UnicoreTsi

open UnicoreTsi.Text UnicoreTsi.Configuration

/-! ## What the functions read -/

/-- A setting that is a text, if it is there. -/
def textSetting (config : Config) (key : Str) : Option Str :=
  match config.get key with
  | some (.str s) => some s
  | _ => none

/-- A setting in a condition. -/
def flagSetting (config : Config) (key : Str) (default : Bool) : Bool :=
  match config.get key with
  | some value => value.truth
  | none => default

/-- An id that `initialize` has stored. -/
def idSetting (config : Config) (key : Str) : Nat :=
  match config.get key with
  | some (.int n) => n.toNat
  | _ => 0

/-- The settings that the functions of a worker find in the dictionary. -/
def Settings.ofConfig (config : Config) : Settings where
  switchUid := flagSetting config "tsi.switch_uid".toList true
  openUserSessions := flagSetting config "tsi.open_user_sessions".toList false
  effectiveUid := idSetting config "tsi.effective_uid".toList
  effectiveGid := idSetting config "tsi.effective_gid".toList
  enforceOsGids := flagSetting config "tsi.enforce_os_gids".toList true
  failOnInvalidGids := flagSetting config "tsi.fail_on_invalid_gids".toList false
  pamModule := (textSetting config "tsi.pam_module".toList).getD "unicore-tsi".toList
  useLoginShell := flagSetting config "tsi.use_login_shell".toList true
  keyfiles := match config.get "tsi.keyfiles".toList with
    | some (.strs keyfiles) => keyfiles
    | _ => []
  getUserkeysCmd := textSetting config "tsi.get_userkeys_cmd".toList
  getUserinfoCmd := textSetting config "tsi.get_userinfo_cmd".toList
  acl := match config.get "tsi.acl".toList with
    | some (.acl paths) => paths
    | _ => []
  getfacl := (textSetting config "tsi.getfacl".toList).getD "/bin/false".toList
  setfacl := (textSetting config "tsi.setfacl".toList).getD "/bin/false".toList
  safeDir := (textSetting config "tsi.safe_dir".toList).getD []
  submitCmd := textSetting config "tsi.submit_cmd".toList
  qstatCmd := (textSetting config "tsi.qstat_cmd".toList).getD []
  detailsCmd := textSetting config "tsi.details_cmd".toList
  abortCmd := (textSetting config "tsi.abort_cmd".toList).getD []
  holdCmd := textSetting config "tsi.hold_cmd".toList
  resumeCmd := textSetting config "tsi.resume_cmd".toList
  getProcessesCmd := (textSetting config "tsi.get_processes_cmd".toList).getD []
  getPartitionsCmd := (textSetting config "tsi.get_partitions_cmd".toList).getD []
  allocCmd := textSetting config "tsi.alloc_cmd".toList
  lsfMemoryConversionFactor := textSetting config "tsi.lsf.memory_conversion_factor".toList
  defaultJobName := (textSetting config "tsi.default_job_name".toList).getD []
  nodesFilter := (textSetting config "tsi.nodes_filter".toList).getD []
  testing := flagSetting config "tsi.testing".toList false

end UnicoreTsi

namespace UnicoreTsi.BssCommon

open UnicoreTsi.Text UnicoreTsi.Effects UnicoreTsi.Utils UnicoreTsi.Configuration UnicoreTsi.KeyedMax

/-! ## Filling in -/

/-- An entry after a default has been filled in. -/
def filled (entry : Option ConfigValue) (default : Option Str) : Option ConfigValue :=
  match entry with
  | none | some .null => default.elim entry fun text => some (.str text)
  | some value => some value

theorem filled_some {value : ConfigValue} (h : value ≠ .null) (default : Option Str) :
    filled (some value) default = some value := by
  cases value with
  | null => exact absurd rfl h
  | _ => rfl

theorem get_fillDefault (config : Config) (p : Str × Str) (key : Str) :
    (fillDefault config p).get key = filled (config.get key) (if key = p.1 then some p.2 else none) := by
  by_cases hkey : key = p.1
  · subst hkey
    rw [if_pos rfl, fillDefault]
    cases hget : config.get p.1 with
    | none => exact Config.get_set_self config p.1 _
    | some value =>
        cases value with
        | null => exact Config.get_set_self config p.1 _
        | _ => exact hget
  · have hsame : (fillDefault config p).get key = config.get key := by
      unfold fillDefault
      split
      · exact Config.get_set_ne config _ hkey
      · exact Config.get_set_ne config _ hkey
      · rfl
    rw [hsame, if_neg hkey]
    cases config.get key with
    | none => rfl
    | some value => cases value <;> rfl

theorem filled_filled (entry : Option ConfigValue) (first second : Option Str) :
    filled (filled entry first) second = filled entry (first.or second) := by
  cases first with
  | none =>
      cases entry with
      | none => rfl
      | some value => cases value <;> rfl
  | some text =>
      cases entry with
      | none => rfl
      | some value => cases value <;> rfl

/-- The first of the defaults for a key is the one that is used. -/
theorem get_fillDefaults (defs : List (Str × Str)) (config : Config) (key : Str) :
    (fillDefaults defs config).get key = filled (config.get key) (defs.lookup key) := by
  induction defs generalizing config with
  | nil =>
      show config.get key = filled (config.get key) none
      cases config.get key with
      | none => rfl
      | some value => cases value <;> rfl
  | cons p defs ih =>
      show (fillDefaults defs (fillDefault config p)).get key = _
      rw [ih, get_fillDefault, filled_filled, lookup_cons_eq]
      split <;> rfl

/-- Nothing is filled in where all the keys have values. -/
theorem fillDefaults_eq_self {defs : List (Str × Str)} {config : Config}
    (h : ∀ p ∈ defs, ∃ value, config.get p.1 = some value ∧ value ≠ .null) : fillDefaults defs config = config := by
  induction defs with
  | nil => rfl
  | cons p defs ih =>
      obtain ⟨⟨value, hget, hvalue⟩, hrest⟩ := List.forall_mem_cons.mp h
      have hfirst : fillDefault config p = config := by
        rw [fillDefault, hget]
        cases value with
        | null => exact absurd rfl hvalue
        | _ => rfl
      show fillDefaults defs (fillDefault config p) = config
      rw [hfirst, ih hrest]

/-! ## The submit command of LSF -/

theorem getLast_strip_append {c : Char} (hc : isSpace c = false) (s : Str) : (strip (s ++ [c])).getLast? = some c := by
  have hlstrip : ∃ t, lstrip (s ++ [c]) = t ++ [c] := by
    unfold lstrip
    induction s with
    | nil => exact ⟨[], by simp [hc]⟩
    | cons d s ih =>
        rw [List.cons_append, List.dropWhile_cons]
        split
        · exact ih
        · exact ⟨d :: s, rfl⟩
  obtain ⟨t, ht⟩ := hlstrip
  rw [strip, ht, List.rdropWhile_concat_neg _ _ _ (by simp [hc]), List.getLast?_concat]

theorem redirectSubmit_redirects (cmd : Str) : (strip (BssLsf.redirectSubmit cmd)).getLast? = some '<' := by
  unfold BssLsf.redirectSubmit
  split
  · assumption
  · have happ : cmd ++ " <".toList = (cmd ++ [' ']) ++ ['<'] := by simp
    rw [happ]
    exact getLast_strip_append (by decide) _

theorem redirectSubmit_redirectSubmit (cmd : Str) :
    BssLsf.redirectSubmit (BssLsf.redirectSubmit cmd) = BssLsf.redirectSubmit cmd := by
  conv_lhs => rw [BssLsf.redirectSubmit]
  rw [if_pos (redirectSubmit_redirects cmd)]

/-! ## What `init` leaves in the dictionary -/

theorem initBase_done {v : Variant} {config config' : Config} {r : HandlerCtx} {s s' : HandlerState}
    (h : initBase v config r s = (.done config', s')) : config' = fillDefaults v.commandDefaults config := by
  unfold initBase at h
  obtain ⟨useLoginShell, s₁, -, hshell⟩ := bind_eq_done.mp h
  obtain ⟨testing, s₂, -, htest⟩ := bind_eq_done.mp hshell
  split at htest
  · exact (Outcome.done.inj (congrArg Prod.fst htest)).symm
  · obtain ⟨qstatCmd, s₃, -, hqstat⟩ := bind_eq_done.mp htest
    obtain ⟨cmd, s₄, -, hcmd⟩ := bind_eq_done.mp hqstat
    obtain ⟨result, s₅, -, hreturn⟩ := bind_eq_done.mp hcmd
    exact (Outcome.done.inj (congrArg Prod.fst hreturn)).symm

/-- The command that is used for a key: that of the last line for it, or the default without one. -/
def Variant.commandFor (v : Variant) (lines : List Str) (p : Str × Str) : Str :=
  let cmd := (lastValue [p.1] (lines.filterMap property)).getD p.2
  if v = .lsf ∧ p.1 = "tsi.submit_cmd".toList then BssLsf.redirectSubmit cmd else cmd

theorem Variant.commandDefaults_keys (v : Variant) :
    ∀ p ∈ v.commandDefaults, PlainKey p.1 ∧ getDefaultConfig.get p.1 = none ∧ v.commandDefaults.lookup p.1 = some p.2 := by
  cases v <;> decide +kernel

/-- The commands in the dictionary are those of the file. -/
def FromFile (v : Variant) (lines : List Str) (config : Config) : Prop :=
  ∀ p ∈ v.commandDefaults, config.get p.1 = (lastValue [p.1] (lines.filterMap property)).map ConfigValue.str

theorem fromFile_read (v : Variant) {lines : List Str} {config : Config} (hread : readConfigFile lines = .ok config) :
    FromFile v lines config := by
  intro p hp
  obtain ⟨hplain, hdefault, -⟩ := v.commandDefaults_keys p hp
  rw [get_readConfigFile hplain hread, hdefault, Option.or_none]

/-- What the defaults make of the commands of a file. -/
theorem get_filled {v : Variant} {lines : List Str} {config : Config} (hfile : FromFile v lines config) :
    ∀ p ∈ v.commandDefaults, (fillDefaults v.commandDefaults config).get p.1 =
      some (.str ((lastValue [p.1] (lines.filterMap property)).getD p.2)) := by
  intro p hp
  obtain ⟨-, -, hlookup⟩ := v.commandDefaults_keys p hp
  rw [get_fillDefaults, hlookup, hfile p hp]
  cases lastValue [p.1] (lines.filterMap property) <;> rfl

theorem get_filled_other (v : Variant) (config : Config) {key : Str} (hkey : key ∉ v.commandDefaults.map Prod.fst) :
    (fillDefaults v.commandDefaults config).get key = config.get key := by
  have hlookup : v.commandDefaults.lookup key = none := by
    rw [List.lookup_eq_none_iff]
    intro p hp
    rw [bne_iff_ne]
    rintro rfl
    exact hkey (List.mem_map_of_mem hp)
  rw [get_fillDefaults, hlookup]
  cases config.get key with
  | none => rfl
  | some value => cases value <;> rfl

theorem initLsf_eq {config : Config} {submitCmd : Str}
    (h : config.get "tsi.submit_cmd".toList = some (.str submitCmd)) :
    ∃ config', initLsf config = .ok config' ∧
      config'.get "tsi.submit_cmd".toList = some (.str (BssLsf.redirectSubmit submitCmd)) ∧
      (∀ key ≠ "tsi.submit_cmd".toList, config'.get key = config.get key) ∧
      (BssLsf.redirectSubmit submitCmd = submitCmd → config' = config) := by
  rw [initLsf, h]
  dsimp only
  by_cases hredirect : (strip submitCmd).getLast? = some '<'
  · rw [if_pos hredirect, BssLsf.redirectSubmit, if_pos hredirect]
    exact ⟨config, rfl, h, fun _ _ => rfl, fun _ => rfl⟩
  · rw [if_neg hredirect, BssLsf.redirectSubmit, if_neg hredirect]
    refine ⟨_, rfl, Config.get_set_self config _ _, fun key hkey => Config.get_set_ne config _ hkey, ?_⟩
    intro hsame
    have hlength := congrArg List.length hsame
    simp at hlength

theorem submit_mem : ("tsi.submit_cmd".toList, "bsub <".toList) ∈ Variant.lsf.commandDefaults := by decide +kernel

/-- What `init` of a variant leaves in the dictionary that it is given. -/
theorem init_done {v : Variant} {config config' : Config} {r : HandlerCtx} {s s' : HandlerState}
    (h : v.init config r s = (.done config', s')) :
    (v ≠ .lsf ∧ config' = fillDefaults v.commandDefaults config) ∨
      v = .lsf ∧ initLsf (fillDefaults v.commandDefaults config) = .ok config' := by
  unfold Variant.init at h
  obtain ⟨based, s₁, hbase, hrest⟩ := bind_eq_done.mp h
  obtain rfl := initBase_done hbase
  cases v with
  | lsf => exact Or.inr ⟨rfl, (ofExcept_eq_done.mp hrest).1⟩
  | _ => exact Or.inl ⟨by decide, (Outcome.done.inj (congrArg Prod.fst hrest)).symm⟩

/-- The entries of a variant's commands after `init`. -/
theorem get_init {v : Variant} {lines : List Str} {config config' : Config} {r : HandlerCtx} {s s' : HandlerState}
    (hfile : FromFile v lines config) (hinit : v.init config r s = (.done config', s')) :
    ∀ p ∈ v.commandDefaults, config'.get p.1 = some (.str (v.commandFor lines p)) := by
  have hcommands := get_filled hfile
  intro p hp
  rcases init_done hinit with ⟨hlsf, rfl⟩ | ⟨rfl, hredirect⟩
  · rw [hcommands p hp, Variant.commandFor, if_neg fun h => hlsf h.1]
  · -- LSF replaces the submit command once more
    have hsubmit := hcommands _ submit_mem
    obtain ⟨redirected, hok, hget, hsame, -⟩ := initLsf_eq hsubmit
    obtain rfl := Except.ok.inj (hok.symm.trans hredirect)
    rw [Variant.commandFor]
    by_cases hkey : p.1 = "tsi.submit_cmd".toList
    · have hdefault : p.2 = "bsub <".toList := by
        have hall : ∀ q ∈ Variant.lsf.commandDefaults, q.1 = "tsi.submit_cmd".toList → q.2 = "bsub <".toList := by
          decide +kernel
        exact hall p hp hkey
      rw [if_pos ⟨rfl, hkey⟩, hkey, hget, hdefault]
    · rw [if_neg fun h => hkey h.2, hsame _ hkey, hcommands p hp]

/-- All the other entries are left alone. -/
theorem get_init_other {v : Variant} {config config' : Config} {r : HandlerCtx} {s s' : HandlerState}
    (hinit : v.init config r s = (.done config', s')) {key : Str} (hkey : key ∉ v.commandDefaults.map Prod.fst) :
    config'.get key = config.get key := by
  rcases init_done hinit with ⟨-, rfl⟩ | ⟨rfl, hredirect⟩
  · exact get_filled_other v config hkey
  · have hne : key ≠ "tsi.submit_cmd".toList := by
      rintro rfl
      exact hkey (List.mem_map_of_mem submit_mem)
    have hother := get_filled_other .lsf config hkey
    unfold initLsf at hredirect
    split at hredirect
    · obtain rfl := Except.ok.inj hredirect
      split
      · exact hother
      · rw [Config.get_set_ne _ _ hne, hother]
    · cases hredirect

/-- The command in the entry of LSF is not changed by a second `init`. -/
theorem commandFor_redirected (lines : List Str) (p : Str × Str) (hkey : p.1 = "tsi.submit_cmd".toList) :
    BssLsf.redirectSubmit (Variant.lsf.commandFor lines p) = Variant.lsf.commandFor lines p := by
  rw [Variant.commandFor, if_pos ⟨rfl, hkey⟩, redirectSubmit_redirectSubmit]

/-- A second `init` changes nothing. -/
theorem init_init {v : Variant} {lines : List Str} {config config' config'' : Config} {r r' : HandlerCtx}
    {s s' t t' : HandlerState} (hfile : FromFile v lines config)
    (hinit : v.init config r s = (.done config', s')) (hagain : v.init config' r' t = (.done config'', t')) :
    config'' = config' := by
  have hcommands := get_init hfile hinit
  have hfilled : fillDefaults v.commandDefaults config' = config' := by
    apply fillDefaults_eq_self
    intro p hp
    exact ⟨_, hcommands p hp, by simp⟩
  rcases init_done hagain with ⟨-, rfl⟩ | ⟨rfl, hredirect⟩
  · exact hfilled
  · rw [hfilled] at hredirect
    have hsubmit := hcommands _ submit_mem
    obtain ⟨redirected, hok, -, -, hsame⟩ := initLsf_eq hsubmit
    obtain rfl := Except.ok.inj (hok.symm.trans hredirect)
    exact hsame (commandFor_redirected lines _ rfl)

/-! ## What the functions find -/

/-- The commands that the functions of the variant ask for with `config[key]` are there: they do not raise a
`KeyError`. -/
structure Variant.Configured (v : Variant) (settings : Settings) : Prop where
  submit : v ≠ .nobatch → ∃ cmd, configured "tsi.submit_cmd" settings.submitCmd = .ok cmd
  details : v ≠ .nobatch → ∃ cmd, configured "tsi.details_cmd" settings.detailsCmd = .ok cmd
  hold : v ≠ .nobatch → ∃ cmd, configured "tsi.hold_cmd" settings.holdCmd = .ok cmd
  resume : v ≠ .nobatch → ∃ cmd, configured "tsi.resume_cmd" settings.resumeCmd = .ok cmd
  alloc : v = .slurm → ∃ cmd, configured "tsi.alloc_cmd" settings.allocCmd = .ok cmd
  factor : v = .lsf → settings.lsfMemoryConversionFactor.isSome = true

theorem textSetting_isSome {v : Variant} {lines : List Str} {config : Config}
    (h : ∀ p ∈ v.commandDefaults, config.get p.1 = some (.str (v.commandFor lines p))) {key : Str}
    (hkey : key ∈ v.commandDefaults.map Prod.fst) : ∃ cmd, textSetting config key = some cmd := by
  obtain ⟨p, hp, rfl⟩ := List.mem_map.mp hkey
  exact ⟨v.commandFor lines p, by rw [textSetting, h p hp]⟩

theorem configured_ofConfig {v : Variant} {lines : List Str} {config : Config}
    (h : ∀ p ∈ v.commandDefaults, config.get p.1 = some (.str (v.commandFor lines p))) :
    v.Configured (Settings.ofConfig config) := by
  have hfound : ∀ key : String, key.toList ∈ v.commandDefaults.map Prod.fst →
      ∃ cmd, configured key (textSetting config key.toList) = .ok cmd := by
    intro key hkey
    obtain ⟨cmd, hcmd⟩ := textSetting_isSome h hkey
    exact ⟨cmd, configured_eq_ok.mpr hcmd⟩
  -- every variant but nobatch has a default of its own for these
  have hbatch : v ≠ .nobatch → ∀ key ∈ ["tsi.submit_cmd", "tsi.details_cmd", "tsi.hold_cmd", "tsi.resume_cmd"],
      key.toList ∈ v.commandDefaults.map Prod.fst := by
    cases v <;> decide +kernel
  refine ⟨fun hv => hfound _ (hbatch hv _ (by simp)), fun hv => hfound _ (hbatch hv _ (by simp)),
    fun hv => hfound _ (hbatch hv _ (by simp)), fun hv => hfound _ (hbatch hv _ (by simp)), ?_, ?_⟩
  · rintro rfl
    exact hfound _ (by decide +kernel)
  · rintro rfl
    have hkey : "tsi.lsf.memory_conversion_factor".toList ∈ Variant.lsf.commandDefaults.map Prod.fst := by
      decide +kernel
    obtain ⟨cmd, hcmd⟩ := textSetting_isSome h hkey
    show (textSetting config _).isSome = true
    rw [hcmd]
    rfl

/-- The settings that `init` reads are there, so it comes to its end if the status command can be started and its
output decoded; whether the command succeeds makes no difference. -/
theorem init_completes {v : Variant} {lines : List Str} {config : Config} {r : HandlerCtx} {s : HandlerState}
    (hfile : FromFile v lines config) (hshell : (config.get "tsi.use_login_shell".toList).isSome = true)
    (htesting : (config.get "tsi.testing".toList).isSome = true)
    (hcheck : ∀ args, ∃ code raw text, r.host.checkOutput s.tick args = .ok (code, raw) ∧ decode raw = .ok text) :
    ∃ config' s', v.init config r s = (.done config', s') := by
  have hcommands := get_filled hfile
  have hitem : ∀ key, (config.get key).isSome = true → key ∉ v.commandDefaults.map Prod.fst →
      ∃ value, (fillDefaults v.commandDefaults config).getItem key = .ok value := by
    intro key hsome hkey
    obtain ⟨value, hvalue⟩ := Option.isSome_iff_exists.mp hsome
    exact ⟨value, by rw [Config.getItem, get_filled_other v config hkey, hvalue]⟩
  have hkeys : "tsi.use_login_shell".toList ∉ v.commandDefaults.map Prod.fst ∧
      "tsi.testing".toList ∉ v.commandDefaults.map Prod.fst ∧
      "tsi.qstat_cmd".toList ∈ v.commandDefaults.map Prod.fst := by
    cases v <;> decide +kernel
  obtain ⟨shell, hshell⟩ := hitem _ hshell hkeys.1
  obtain ⟨testing, htesting⟩ := hitem _ htesting hkeys.2.1
  obtain ⟨p, hp, hqstat⟩ := List.mem_map.mp hkeys.2.2
  have hqstat : (fillDefaults v.commandDefaults config).getItem "tsi.qstat_cmd".toList =
      .ok (.str ((lastValue [p.1] (lines.filterMap property)).getD p.2)) := by
    rw [Config.getItem, ← hqstat, hcommands p hp]
  have runs : ∀ cmd loginShell, ∃ result s', runCommand cmd false false loginShell r s = (.done result, s') := by
    intro cmd loginShell
    obtain ⟨code, raw, text, hok, hdecode⟩ := hcheck (shellArgs cmd loginShell)
    simp only [Acl.runCommand_run, hok, hdecode]
    by_cases hcode : code = 0
    · exact ⟨_, _, by rw [if_pos hcode]⟩
    · exact ⟨_, _, by rw [if_neg hcode]⟩
  have hbase : ∃ s', initBase v config r s = (.done (fillDefaults v.commandDefaults config), s') := by
    unfold initBase
    simp only [hshell, htesting, hqstat, ofExcept_ok, pure_bind, commandText]
    split
    · exact ⟨s, rfl⟩
    · obtain ⟨result, s', hrun⟩ := runs ((lastValue [p.1] (lines.filterMap property)).getD p.2) shell.truth
      rw [bind_run_done hrun]
      exact ⟨s', rfl⟩
  obtain ⟨s', hbase⟩ := hbase
  unfold Variant.init
  rw [bind_run_done hbase]
  cases v with
  | lsf =>
      obtain ⟨config', hok, -⟩ := initLsf_eq (hcommands _ submit_mem)
      exact ⟨config', s', by rw [hok]; rfl⟩
  | _ => exact ⟨_, s', rfl⟩

end UnicoreTsi.BssCommon
