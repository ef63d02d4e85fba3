/-
# UnicoreTsi.OldNames — the names that properties had before.

`tsi.njs_machine` and `tsi.njs_port` are the old names of `tsi.unicorex_machine` and `tsi.unicorex_port`, and a
file may still use them.  Here a file is read twice, as it is and with the new names in the place of the old ones
(`renameLine`), and what the code makes of the two dictionaries is compared: the addresses that may connect
(`setupAllowedIps`), the port of a callback (`getUnicorexPort`) and every other entry (`SameReads`).

The value of an old name lands under a key that nothing reads.  So the two files do the same exactly if the
last lines under the new names alone say what the last lines under either name say (`old_names_iff`).
-/
import UnicoreTsi.Lib.Distinct
import UnicoreTsi.PropertyFile
import UnicoreTsi.Server

set_option autoImplicit false

namespace UnicoreTsi.Configuration

open UnicoreTsi.Text UnicoreTsi.Distinct UnicoreTsi.Regex UnicoreTsi.Effects UnicoreTsi.Utils UnicoreTsi.BssCommon

/-! ## What the code reads -/

/-- The names of the machines in a value. -/
def machines (value : Str) : List Str := (value.splitOn ',').map strip

/-- The addresses of the machines; an exception of `getaddrinfo` (`none`) leaves a machine out. -/
def allowedIps (getaddrinfo : Str → Option (List Str)) (value : Str) : List Str :=
  (machines value).foldl
    (fun ips machine =>
      match getaddrinfo machine with
      | none => ips
      | some found => found.foldl appendNew ips)
    []

def setupAllowedIps (getaddrinfo : Str → Option (List Str)) (config : Config) : Except PyExc Config :=
  match config.get "tsi.unicorex_machine".toList with
  | none => .error { kind := .keyError, text := "'tsi.unicorex_machine'".toList }
  | some (.str value) => .ok (config.set "tsi.allowed_ips".toList (.strs (allowedIps getaddrinfo value)))
  | some _ => .error (attributeError "object has no attribute 'split'")

/-- `config.get('tsi.unicorex_port', None)`, which is a text if it is there. -/
def unicorexPort (config : Config) : Option Str :=
  match config.get "tsi.unicorex_port".toList with
  | some (.str port) => some port
  | _ => none

/-- The entries by which the files differ.  The two that are read are read by `setupAllowedIps` and
`getUnicorexPort` only. -/
def aliasKeys : List Str :=
  ["tsi.unicorex_machine".toList, "tsi_unicorex_machine".toList, "tsi.unicorex_port".toList, "tsi.njs_port".toList]

/-- The other entries are the same. -/
def Agree (config config' : Config) : Prop := ∀ key ∉ aliasKeys, config'.get key = config.get key

/-- The code does the same with both dictionaries. -/
structure SameReads (config config' : Config) : Prop where
  allowed_ips : ∀ getaddrinfo : Str → Option (List Str),
    ((setupAllowedIps getaddrinfo config').map fun c => c.get "tsi.allowed_ips".toList) =
      (setupAllowedIps getaddrinfo config).map fun c => c.get "tsi.allowed_ips".toList
  unicorex_port : ∀ (server : Server.ServerConfig) (params : Str),
    Server.getUnicorexPort { server with unicorexPort := unicorexPort config' } params =
      Server.getUnicorexPort { server with unicorexPort := unicorexPort config } params
  others : Agree config config'

/-- Two files are rejected with the same exception, or accepted with dictionaries of which `R` holds. -/
inductive Results (R : Config → Config → Prop) : Except PyExc Config → Except PyExc Config → Prop where
  | rejected (e : PyExc) : Results R (.error e) (.error e)
  | accepted {config config' : Config} (h : R config config') : Results R (.ok config) (.ok config')

/-! ## Renaming -/

/-- The new name of a property. -/
def newName (key : Str) : Str :=
  if key = "tsi.njs_machine".toList then "tsi.unicorex_machine".toList
  else if key = "tsi.njs_port".toList then "tsi.unicorex_port".toList
  else key

/-- A line of the form key=value with the new name, the rest as it stands. -/
def renameLine (line : Str) : Str :=
  match matchItems propertyItems none line with
  | some (blanks :: key :: _) => blanks ++ (newName key ++ line.drop (blanks.length + key.length))
  | _ => line

theorem newName_chars {key : Str} (h : ∀ c ∈ key, isKeyChar c = true) : ∀ c ∈ newName key, isKeyChar c = true := by
  unfold newName
  split
  · decide +kernel
  · split
    · decide +kernel
    · exact h

theorem newName_ne_nil {key : Str} (h : key ≠ []) : newName key ≠ [] := by
  unfold newName
  split
  · decide
  · split
    · decide
    · exact h

/-- The renamed line has the same value under the new name. -/
theorem property_renameLine (line : Str) :
    property (renameLine line) = (property line).map fun p => (newName p.1, p.2) := by
  cases hmatch : matchItems propertyItems none line with
  | none => simp [renameLine, property, hmatch]
  | some ps =>
      obtain ⟨blanks, key, blanks', tail, hparts, rfl⟩ := parts_of_matchItems hmatch
      have hparts' : NameParts blanks (newName key) blanks' :=
        { hparts with key_chars := newName_chars hparts.key_chars, key_ne_nil := newName_ne_nil hparts.key_ne_nil }
      have hrename : renameLine (blanks ++ (key ++ (blanks' ++ ("=".toList ++ tail)))) =
          blanks ++ (newName key ++ (blanks' ++ ("=".toList ++ tail))) := by
        rw [renameLine, matchItems_parts hparts]
        simp
      rw [hrename, property, property, matchItems_parts hparts, matchItems_parts hparts']
      rfl

theorem property_rename (lines : List Str) :
    (lines.map renameLine).filterMap property =
      (lines.filterMap property).map fun p => (newName p.1, p.2) := by
  rw [List.filterMap_map, List.map_filterMap]
  refine List.filterMap_congr ?_
  intro line _
  exact property_renameLine line

/-! ## Two runs -/

section Runs

variable {config config' : Config}

theorem agree_set_both (h : Agree config config') (key : Str) (value : ConfigValue) :
    Agree (config.set key value) (config'.set key value) := by
  intro other hother
  by_cases heq : other = key
  · rw [heq, Config.get_set_self, Config.get_set_self]
  · rw [Config.get_set_ne config' value heq, Config.get_set_ne config value heq]
    exact h other hother

/-- Entries among those by which the files may differ. -/
theorem agree_set {key key' : Str} (h : Agree config config') (hkey : key ∈ aliasKeys) (hkey' : key' ∈ aliasKeys)
    (value : ConfigValue) : Agree (config.set key value) (config'.set key' value) := by
  intro other hother
  have hne : ∀ {k : Str}, k ∈ aliasKeys → other ≠ k := fun hk heq => hother (heq ▸ hk)
  rw [Config.get_set_ne config' value (hne hkey'), Config.get_set_ne config value (hne hkey)]
  exact h other hother

/-- The ACL settings and the certificate names read so far are the same. -/
theorem soFar_of_agree (h : Agree config config') :
    aclSoFar config' = aclSoFar config ∧ allowedDns config' = allowedDns config := by
  unfold aclSoFar allowedDns
  rw [h "tsi.acl".toList (by decide), h "tsi.allowed_dns".toList (by decide)]
  exact ⟨rfl, rfl⟩

theorem results_map {R : Config → Config → Prop} {α : Type} (x : Except PyExc α) {f f' : α → Config}
    (h : ∀ a, R (f a) (f' a)) : Results R (x.map f) (x.map f') := by
  cases x with
  | error e => exact .rejected e
  | ok a => exact .accepted (h a)

/-- One property, under its name and under the new one. -/
theorem processConfigValue_newName (h : Agree config config') (key value : Str) :
    Results Agree (processConfigValue key value config) (processConfigValue (newName key) value config') := by
  obtain ⟨hacl, hdns⟩ := soFar_of_agree h
  rw [processConfigValue_eq, processConfigValue_eq, hacl, hdns, newName]
  split
  · rename_i hmachine
    subst hmachine
    -- the old name has an entry of its own
    have hold : "tsi_unicorex_machine".toList ∈ aliasKeys := by decide
    have hnew : "tsi.unicorex_machine".toList ∈ aliasKeys := by decide
    exact .accepted (agree_set h hold hnew (.str value))
  · split
    · rename_i hport
      subst hport
      have hold : "tsi.njs_port".toList ∈ aliasKeys := by decide
      have hnew : "tsi.unicorex_port".toList ∈ aliasKeys := by decide
      exact .accepted (agree_set h hold hnew (.str value))
    · refine results_map _ ?_
      intro entry
      exact agree_set_both h entry.1 entry.2

theorem processConfigValues_newName (h : Agree config config') (properties : List (Str × Str)) :
    Results Agree (processConfigValues properties config)
      (processConfigValues (properties.map fun p => (newName p.1, p.2)) config') := by
  induction properties generalizing config config' with
  | nil => exact .accepted h
  | cons p properties ih =>
      rw [List.map_cons, processConfigValues, processConfigValues, List.foldlM_cons, List.foldlM_cons]
      have hstep := processConfigValue_newName h p.1 p.2
      generalize processConfigValue p.1 p.2 config = x at hstep ⊢
      generalize processConfigValue (newName p.1) p.2 config' = x' at hstep ⊢
      cases hstep with
      | rejected e => exact .rejected e
      | accepted hnext => exact ih hnext

end Runs

theorem readConfigFile_rename (lines : List Str) :
    Results Agree (readConfigFile lines) (readConfigFile (lines.map renameLine)) := by
  rw [readConfigFile, readConfigFile, property_rename]
  exact processConfigValues_newName (fun key _ => rfl) (lines.filterMap property)

/-! ## The addresses and the port -/

theorem allowedIps_eq (getaddrinfo : Str → Option (List Str)) (value : Str) :
    allowedIps getaddrinfo value =
      distinct ((machines value).flatMap fun machine => (getaddrinfo machine).getD []) := by
  rw [allowedIps, distinct, List.foldl_flatMap]
  congr 1
  funext ips machine
  cases getaddrinfo machine <;> rfl

/-- The addresses are the same whatever the names resolve to, exactly if the machines are. -/
theorem allowedIps_eq_iff {value value' : Str} :
    (∀ getaddrinfo, allowedIps getaddrinfo value' = allowedIps getaddrinfo value) ↔
      distinct (machines value') = distinct (machines value) := by
  constructor
  · intro h
    -- every name resolves to itself
    have hself := h fun machine => some [machine]
    rw [allowedIps_eq, allowedIps_eq] at hself
    simpa using hself
  · intro h getaddrinfo
    rw [allowedIps_eq, allowedIps_eq, distinct_flatMap, h, ← distinct_flatMap]

/-- The machines as they are read, for the value of the last line with one of these names. -/
def machinesOf (names : List Str) (properties : List (Str × Str)) : List Str :=
  distinct (machines ((lastValue names properties).getD "localhost".toList))

/-- The names of the property for the machines, and of the one for the port. -/
def machineNames : List Str := ["tsi.njs_machine".toList, "tsi.unicorex_machine".toList]
def portNames : List Str := ["tsi.njs_port".toList, "tsi.unicorex_port".toList]

/-- The last lines under the new names say what the last lines under either name say. -/
structure NewNamesDecide (properties : List (Str × Str)) : Prop where
  machines : machinesOf machineNames properties = machinesOf ["tsi.unicorex_machine".toList] properties
  port : lastValue portNames properties = lastValue ["tsi.unicorex_port".toList] properties

theorem newName_machine (key : Str) : newName key ∈ ["tsi.unicorex_machine".toList] ↔ key ∈ machineNames := by
  simp only [newName, machineNames, List.mem_cons, List.not_mem_nil, or_false]
  split
  · simp_all
  · split
    · rename_i hport
      subst hport
      decide
    · simp_all

theorem newName_port (key : Str) : newName key ∈ ["tsi.unicorex_port".toList] ↔ key ∈ portNames := by
  simp only [newName, portNames, List.mem_cons, List.not_mem_nil, or_false]
  split
  · rename_i hmachine
    subst hmachine
    decide
  · split
    · simp_all
    · simp_all

/-- The addresses allowed by a file. -/
theorem setupAllowedIps_get {lines : List Str} {config : Config} (hread : readConfigFile lines = .ok config)
    (getaddrinfo : Str → Option (List Str)) :
    ((setupAllowedIps getaddrinfo config).map fun c => c.get "tsi.allowed_ips".toList) =
      .ok (some (.strs (allowedIps getaddrinfo
        ((lastValue ["tsi.unicorex_machine".toList] (lines.filterMap property)).getD "localhost".toList)))) := by
  have hplain : PlainKey "tsi.unicorex_machine".toList := by decide +kernel
  have hget := get_readConfigFile hplain hread
  unfold setupAllowedIps
  cases hlast : lastValue ["tsi.unicorex_machine".toList] (lines.filterMap property) with
  | none =>
      have hdefault : getDefaultConfig.get "tsi.unicorex_machine".toList = some (.str "localhost".toList) := by
        decide +kernel
      rw [hget, hlast, hdefault]
      simp [Except.map, Config.get_set_self]
  | some value =>
      rw [hget, hlast]
      simp [Except.map, Config.get_set_self]

theorem unicorexPort_eq {lines : List Str} {config : Config} (hread : readConfigFile lines = .ok config) :
    unicorexPort config = lastValue ["tsi.unicorex_port".toList] (lines.filterMap property) := by
  have hplain : PlainKey "tsi.unicorex_port".toList := by decide +kernel
  have hget := get_readConfigFile hplain hread
  have hdefault : getDefaultConfig.get "tsi.unicorex_port".toList = none := by decide +kernel
  rw [hdefault] at hget
  rw [unicorexPort, hget]
  cases lastValue ["tsi.unicorex_port".toList] (lines.filterMap property) <;> rfl

/-- The port of a callback is the same for every message, exactly if the configured one is. -/
theorem getUnicorexPort_eq_iff {port port' : Option Str} :
    (∀ (server : Server.ServerConfig) (params : Str),
      Server.getUnicorexPort { server with unicorexPort := port' } params =
        Server.getUnicorexPort { server with unicorexPort := port } params) ↔ port' = port := by
  constructor
  · intro h
    -- a message without a blank names its port itself
    let server : Server.ServerConfig := ⟨false, none, [], none, ⟨0, -1, -1⟩, .int 1, []⟩
    have hone := h server "1".toList
    have htwo := h server "2".toList
    have hdiffer : "1".toList ≠ "2".toList := by decide
    rcases port with _ | port <;> rcases port' with _ | port'
    · rfl
    · exact absurd ((Option.some.inj hone).symm.trans (Option.some.inj htwo)) hdiffer
    · exact absurd ((Option.some.inj hone).trans (Option.some.inj htwo).symm) hdiffer
    · exact hone
  · rintro rfl server params
    rfl

/-! ## Old names and new names -/

section Files

variable (lines : List Str)

theorem machines_rename :
    lastValue ["tsi.unicorex_machine".toList] ((lines.map renameLine).filterMap property) =
      lastValue machineNames (lines.filterMap property) := by
  rw [property_rename, lastValue_map newName_machine]

theorem port_rename :
    lastValue ["tsi.unicorex_port".toList] ((lines.map renameLine).filterMap property) =
      lastValue portNames (lines.filterMap property) := by
  rw [property_rename, lastValue_map newName_port]

/-- For a file that is accepted. -/
theorem sameReads_iff {config config' : Config} (hread : readConfigFile lines = .ok config)
    (hread' : readConfigFile (lines.map renameLine) = .ok config') (hothers : Agree config config') :
    SameReads config config' ↔ NewNamesDecide (lines.filterMap property) := by
  have hips := fun getaddrinfo => setupAllowedIps_get hread getaddrinfo
  have hips' := fun getaddrinfo => setupAllowedIps_get hread' getaddrinfo
  have hport := unicorexPort_eq hread
  have hport' := unicorexPort_eq hread'
  rw [machines_rename] at hips'
  rw [port_rename] at hport'
  constructor
  · intro h
    refine ⟨allowedIps_eq_iff.mp ?_, ?_⟩
    · intro getaddrinfo
      have hsame := h.allowed_ips getaddrinfo
      rw [hips, hips'] at hsame
      simpa using hsame
    · have hsame := getUnicorexPort_eq_iff.mp h.unicorex_port
      rwa [hport, hport'] at hsame
  · intro h
    refine ⟨?_, getUnicorexPort_eq_iff.mpr ?_, hothers⟩
    · intro getaddrinfo
      rw [hips, hips', allowedIps_eq_iff.mpr h.machines getaddrinfo]
    · rw [hport, hport', h.port]

/-- The old names are aliases for the files in which the new names alone decide. -/
theorem old_names_iff :
    Results SameReads (readConfigFile lines) (readConfigFile (lines.map renameLine)) ↔
      ((readConfigFile lines).isOk = true → NewNamesDecide (lines.filterMap property)) := by
  have hresults := readConfigFile_rename lines
  generalize hread : readConfigFile lines = x at hresults ⊢
  generalize hread' : readConfigFile (lines.map renameLine) = x' at hresults ⊢
  cases hresults with
  | rejected e =>
      constructor
      · intro _ hok
        cases hok
      · intro _
        exact .rejected e
  | accepted hothers =>
      have hiff := sameReads_iff lines hread hread' hothers
      constructor
      · rintro (_ | hsame) _
        exact hiff.mp hsame
      · intro h
        exact .accepted (hiff.mpr (h rfl))

end Files

/-- With the old name of the machines, those of the default may connect. -/
theorem njs_machine_is_ignored :
    ¬ Results SameReads (readConfigFile ["tsi.njs_machine=ux.example.org\n".toList])
      (readConfigFile (["tsi.njs_machine=ux.example.org\n".toList].map renameLine)) := by
  intro h
  have hok : (readConfigFile ["tsi.njs_machine=ux.example.org\n".toList]).isOk = true := by decide +kernel
  generalize hread : readConfigFile ["tsi.njs_machine=ux.example.org\n".toList] = x at h hok
  generalize hread' : readConfigFile (["tsi.njs_machine=ux.example.org\n".toList].map renameLine) = x' at h
  cases h with
  | rejected e => cases hok
  | accepted hsame =>
      have hdecide := (sameReads_iff _ hread hread' hsame.others).mp hsame
      exact absurd hdecide.machines (by decide +kernel)

end UnicoreTsi.Configuration
