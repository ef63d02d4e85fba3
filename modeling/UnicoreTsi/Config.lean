/-
# UnicoreTsi.Config — the configuration dictionary, and the certificates it allows.

`processConfigValue` stores one property of the configuration file; `readConfigFile` folds it over the lines
of the file.  The names of the certificates that may connect are converted while the file is read
(`convertDn`) and compared with the subject of a certificate when a peer has connected (`checkAccess`).
-/
import UnicoreTsi.BssCommon

set_option autoImplicit false

namespace UnicoreTsi.Configuration

open UnicoreTsi.Text UnicoreTsi.Regex UnicoreTsi.Utils UnicoreTsi.BssCommon

/-! ## Distinguished names -/

/-- An RDN by the name `getpeercert` has for its type, and its value; `none` for a type without one. -/
abbrev Rdn := Option (Str × Str)

/-- The subject of a certificate as `getpeercert` gives it: a list of lists of attributes. -/
abbrev Subject := List (List (Str × Str))

def rdnMap : List (Str × Str) :=
  [("C".toList, "countryName".toList),
    ("CN".toList, "commonName".toList),
    ("O".toList, "organizationName".toList),
    ("OU".toList, "organizationalUnitName".toList),
    ("L".toList, "localityName".toList),
    ("ST".toList, "stateOrProvinceName".toList),
    ("DC".toList, "domainComponent".toList)]

def convertRdn (rdn : Str) : Except PyExc Rdn :=
  let split := rdn.splitOn '='
  match rdnMap.lookup (split.headD []) with
  | none => .ok none
  | some translated =>
      match split.tail with
      | [] => .error (indexError "list index out of range")
      | val :: _ => .ok (some (translated, val))

/-- The elements of a DN, without the blank ones. -/
def elements (dn : Str) : List Str := ((dn.splitOn ',').map strip).filter (· ≠ [])

/-- `convert_dn`; an RDN of an unknown type is appended as `None`. -/
def convertDn (dn : Str) : Except PyExc (List Rdn) := (elements dn).mapM convertRdn

/-- `match_rdn`, over the attributes of the subject in order; `None` has no items to compare. -/
def matchRdn (rdn : Rdn) : List (Str × Str) → Except PyExc Bool
  | [] => .ok false
  | y :: ys =>
      match rdn with
      | none => .error (typeError "'NoneType' object is not subscriptable")
      | some (name, val) => if y.1 = name ∧ y.2 = val then .ok true else matchRdn rdn ys

/-- Every RDN of the ACL entry has to be in the subject. -/
def matchDn (subject : Subject) : List Rdn → Except PyExc Bool
  | [] => .ok true
  | rdn :: rest => do
      let found ← matchRdn rdn subject.flatten
      if found then matchDn subject rest else .ok false

def checkAccess (subject : Subject) : List (List Rdn) → Except PyExc Bool
  | [] => .ok false
  | dn :: acl => do
      let accept ← matchDn subject dn
      if accept then .ok true else checkAccess subject acl

def notAllowed : PyExc := { kind := .osError, text := "Connection not allowed by ACL".toList }

/-- `verify_peer` for a peer whose certificate has the given subject. -/
def verifyPeer (acl : List (List Rdn)) (subject : Subject) : Except PyExc Unit := do
  let allowed ← checkAccess subject acl
  if allowed then .ok () else .error notAllowed

/-! ## The dictionary -/

inductive ConfigValue where
  | null
  | str (s : Str)
  | int (n : Int)
  | bool (b : Bool)
  | strs (ss : List Str)
  | pids (ns : List Int)
  | acl (paths : List (Str × Str))
  | dns (dns : List (List Rdn))
  deriving DecidableEq

abbrev Config := List (Str × ConfigValue)

/-- `config.get(key)` -/
def Config.get (config : Config) (key : Str) : Option ConfigValue := config.lookup key

/-- `config[key] = value` -/
def Config.set (config : Config) (key : Str) (value : ConfigValue) : Config := putField key value config

theorem Config.get_set_self (config : Config) (key : Str) (value : ConfigValue) :
    (config.set key value).get key = some value := by
  unfold Config.get Config.set
  induction config with
  | nil => simp [putField]
  | cons entry config ih =>
      obtain ⟨k, v⟩ := entry
      rw [putField]
      split
      · simp
      · rename_i hk
        rw [List.lookup_cons, beq_false_of_ne (Ne.symm hk)]
        exact ih

theorem Config.get_set_ne (config : Config) {key other : Str} (value : ConfigValue) (h : other ≠ key) :
    (config.set key value).get other = config.get other := by
  unfold Config.get Config.set
  induction config with
  | nil => simp [putField, List.lookup_cons, beq_false_of_ne h]
  | cons entry config ih =>
      obtain ⟨k, v⟩ := entry
      rw [putField]
      split
      · rename_i hk
        rw [hk, List.lookup_cons, List.lookup_cons, beq_false_of_ne h]
      · rw [List.lookup_cons, List.lookup_cons, ih]

def getDefaultConfig : Config :=
  [("tsi.default_job_name".toList, .str "UnicoreJob".toList),
    ("tsi.nodes_filter".toList, .str []),
    ("tsi.userCacheTtl".toList, .int 600),
    ("tsi.enforce_os_gids".toList, .bool true),
    ("tsi.fail_on_invalid_gids".toList, .bool false),
    ("tsi.use_id_to_resolve_gids".toList, .bool true),
    ("tsi.open_user_sessions".toList, .bool false),
    ("tsi.switch_uid".toList, .bool true),
    ("tsi.debug".toList, .int 0),
    ("tsi.use_syslog".toList, .bool false),
    ("tsi.worker.id".toList, .int 1),
    ("tsi.my_addr".toList, .str []),
    ("tsi.my_port".toList, .int 4433),
    ("tsi.unicorex_machine".toList, .str "localhost".toList),
    ("tsi.disable_ipv6".toList, .bool false),
    ("tsi.local_portrange".toList, .null),
    ("tsi.safe_dir".toList, .str "/tmp".toList),
    ("tsi.keyfiles".toList, .strs [".ssh/authorized_keys".toList]),
    ("tsi.use_login_shell".toList, .bool true),
    ("tsi.child_pids".toList, .pids []),
    ("tsi.testing".toList, .bool false)]

/-! ## Reading the file -/

def booleanKeys : List Str :=
  ["tsi.open_user_sessions".toList, "tsi.switch_uid".toList, "tsi.enforce_os_gids".toList,
    "tsi.fail_on_invalid_gids".toList, "tsi.use_id_to_resolve_gids".toList, "tsi.use_syslog".toList,
    "tsi.debug".toList, "tsi.disable_ipv6".toList, "tsi.use_login_shell".toList]

def invalidAcl (key value : Str) : PyExc :=
  { kind := .keyError,
    text := "\"Invalid value '".toList ++ value ++ "' for parameter '".toList ++ key ++
      "', must be 'NONE', 'POSIX' or 'NFS'\"".toList }

/-- The ACL settings read so far. -/
def aclSoFar (config : Config) : Except PyExc (List (Str × Str)) :=
  match config.get "tsi.acl".toList with
  | none => .ok []
  | some (.acl paths) => .ok paths
  | some _ => .error (typeError "'str' object does not support item assignment")

/-- The names read so far; a property `tsi.allowed_dns` puts a text in their place. -/
def allowedDns (config : Config) : Except PyExc (List (List Rdn)) :=
  match config.get "tsi.allowed_dns".toList with
  | none => .ok []
  | some (.dns dns) => .ok dns
  | some _ => .error (attributeError "'str' object has no attribute 'append'")

def processConfigValue (key value : Str) (config : Config) : Except PyExc Config :=
  if key ∈ booleanKeys then
    .ok (config.set key (.bool (decide (value.map Char.toLower ∈ ["1".toList, "true".toList]))))
  else if "tsi.acl".toList.isPrefixOf key then
    if value = "NONE".toList ∨ value = "POSIX".toList ∨ value = "NFS".toList then do
      let path := key.drop 8
      let acl ← aclSoFar config
      return config.set "tsi.acl".toList (.acl (putField path value acl))
    else .error (invalidAcl key value)
  else if "tsi.allowed_dn.".toList.isPrefixOf key then do
    let dns ← allowedDns config
    let dn ← convertDn value
    return config.set "tsi.allowed_dns".toList (.dns (dns ++ [dn]))
  else if key = "tsi.keyfiles".toList then
    .ok (config.set "tsi.keyfiles".toList (.strs (((value.splitOn ':').map strip).filter (· ≠ []))))
  else if key = "tsi.njs_machine".toList then
    .ok (config.set "tsi_unicorex_machine".toList (.str value))
  else if key = "tsi_njs_port".toList then
    .ok (config.set "tsi_unicorex_port".toList (.str value))
  else .ok (config.set key (.str value))

/-- The class `[a-zA-Z0-9.\-_/]`. -/
def isKeyChar (c : Char) : Bool :=
  c.isAlphanum || decide (c ∈ ['.', '-', '_', '/'])

/-- `\s*([a-zA-Z0-9.\-_/]+)\s*=\s*(.*)$`; a line ends where the last item does. -/
def propertyItems : List (Item Char) :=
  [.rep isSpace 0 none, .rep isKeyChar 1 none, .rep isSpace 0 none, literal "=", .rep isSpace 0 none, anyChars]

/-- Key and value of a line of the form key=value. -/
def property (line : Str) : Option (Str × Str) :=
  match matchItems propertyItems none line with
  | some [_, key, _, _, _, value] => some (key, strip value)
  | _ => none

/-- Store properties one after the other. -/
def processConfigValues (properties : List (Str × Str)) (config : Config) : Except PyExc Config :=
  properties.foldlM (fun config p => processConfigValue p.1 p.2 config) config

/-- `read_config_file` for the lines of the file. -/
def readConfigFile (lines : List Str) : Except PyExc Config :=
  processConfigValues (lines.filterMap property) getDefaultConfig

end UnicoreTsi.Configuration
