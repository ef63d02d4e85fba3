/-
# UnicoreTsi.PropertyFile — what the lines of the configuration file leave in the dictionary.

A property writes one entry of the dictionary, and what it writes depends on the dictionary only through the
ACL settings and the certificate names read so far (`processConfigValue_eq`).  Most properties are `PlainKey`:
they put their value under their own name as the text it is, and no other property touches that entry.  So a
plain entry holds the value of the last line for it (`get_readConfigFile`).
-/
import UnicoreTsi.Config
import UnicoreTsi.Lib.Effects
import UnicoreTsi.Lib.Words

set_option autoImplicit false

namespace UnicoreTsi.Configuration

open UnicoreTsi.Text UnicoreTsi.Regex UnicoreTsi.Words UnicoreTsi.Effects UnicoreTsi.Utils UnicoreTsi.BssCommon

/-! ## What a property writes -/

/-- The entry that a property writes, for the ACL settings and the certificate names read so far. -/
def stored (key value : Str) (acl : Except PyExc (List (Str × Str))) (dns : Except PyExc (List (List Rdn))) :
    Except PyExc (Str × ConfigValue) :=
  if key ∈ booleanKeys then
    .ok (key, .bool (decide (value.map Char.toLower ∈ ["1".toList, "true".toList])))
  else if "tsi.acl".toList.isPrefixOf key then
    if value = "NONE".toList ∨ value = "POSIX".toList ∨ value = "NFS".toList then
      acl.map fun paths => ("tsi.acl".toList, .acl (putField (key.drop 8) value paths))
    else .error (invalidAcl key value)
  else if "tsi.allowed_dn.".toList.isPrefixOf key then do
    let names ← dns
    let dn ← convertDn value
    return ("tsi.allowed_dns".toList, .dns (names ++ [dn]))
  else if key = "tsi.keyfiles".toList then
    .ok (key, .strs (((value.splitOn ':').map strip).filter (· ≠ [])))
  else if key = "tsi.njs_machine".toList then .ok ("tsi_unicorex_machine".toList, .str value)
  else if key = "tsi_njs_port".toList then .ok ("tsi_unicorex_port".toList, .str value)
  else .ok (key, .str value)

theorem processConfigValue_eq (key value : Str) (config : Config) :
    processConfigValue key value config =
      (stored key value (aclSoFar config) (allowedDns config)).map fun entry => config.set entry.1 entry.2 := by
  unfold processConfigValue stored
  split
  · rfl
  · split
    · split
      · cases aclSoFar config <;> rfl
      · rfl
    · split
      · cases allowedDns config with
        | error e => rfl
        | ok names => cases hdn : convertDn value <;> simp [bind, Except.bind, Except.map, pure, Except.pure]
      · split
        · rename_i hkeyfiles
          rw [hkeyfiles]
          rfl
        · split
          · rfl
          · split <;> rfl

/-! ## PlainKey properties -/

/-- The names under which something else than the text of a property of that name may be stored. -/
def specialKeys : List Str :=
  booleanKeys ++ ["tsi.keyfiles".toList, "tsi.njs_machine".toList, "tsi_njs_port".toList,
    "tsi.allowed_dns".toList, "tsi_unicorex_machine".toList, "tsi_unicorex_port".toList]

/-- The entry of that name is written by the properties of that name only, with their text. -/
def PlainKey (name : Str) : Prop :=
  name ∉ specialKeys ∧ "tsi.acl".toList.isPrefixOf name = false ∧ "tsi.allowed_dn.".toList.isPrefixOf name = false

instance (name : Str) : Decidable (PlainKey name) := by
  unfold PlainKey
  infer_instance

theorem stored_of_plain {name : Str} (h : PlainKey name) (value : Str) (acl : Except PyExc (List (Str × Str)))
    (dns : Except PyExc (List (List Rdn))) : stored name value acl dns = .ok (name, .str value) := by
  obtain ⟨hspecial, hacl, hdn⟩ := h
  simp only [specialKeys, List.mem_append, List.mem_cons, not_or] at hspecial
  obtain ⟨hboolean, hkeyfiles, hmachine, hport, -⟩ := hspecial
  rw [stored, if_neg hboolean, hacl, if_neg Bool.false_ne_true, hdn, if_neg Bool.false_ne_true,
    if_neg hkeyfiles, if_neg hmachine, if_neg hport]

/-- A property of another name writes another entry. -/
theorem stored_ne {key value name : Str} {acl : Except PyExc (List (Str × Str))}
    {dns : Except PyExc (List (List Rdn))} {entry : Str × ConfigValue} (hname : PlainKey name) (hkey : key ≠ name)
    (h : stored key value acl dns = .ok entry) : entry.1 ≠ name := by
  obtain ⟨hspecial, hacl, hdn⟩ := hname
  simp only [specialKeys, List.mem_append, List.mem_cons, not_or] at hspecial
  obtain ⟨-, hkeyfiles, -, -, hdns, hmachine, hport, -⟩ := hspecial
  unfold stored at h
  split at h
  · obtain rfl := Except.ok.inj h
    exact hkey
  · split at h
    · split at h
      · cases acl with
        | error e => cases h
        | ok paths =>
            obtain rfl := Except.ok.inj h
            show "tsi.acl".toList ≠ name
            rintro rfl
            exact absurd hacl (by decide)
      · cases h
    · split at h
      · obtain ⟨names, -, h⟩ := except_bind_eq_ok.mp h
        obtain ⟨dn, -, h⟩ := except_bind_eq_ok.mp h
        obtain rfl := Except.ok.inj h
        exact Ne.symm hdns
      · split at h
        · obtain rfl := Except.ok.inj h
          exact hkey
        · split at h
          · obtain rfl := Except.ok.inj h
            exact Ne.symm hmachine
          · split at h
            · obtain rfl := Except.ok.inj h
              exact Ne.symm hport
            · obtain rfl := Except.ok.inj h
              exact hkey

/-! ## The last line wins -/

/-- The value of the last of the properties with one of these names. -/
def lastValue (names : List Str) : List (Str × Str) → Option Str
  | [] => none
  | (key, value) :: properties => (lastValue names properties).or (if key ∈ names then some value else none)

theorem lastValue_eq_none_iff {names : List Str} {properties : List (Str × Str)} :
    lastValue names properties = none ↔ ∀ p ∈ properties, p.1 ∉ names := by
  induction properties with
  | nil => simp [lastValue]
  | cons p properties ih =>
      rw [lastValue, Option.or_eq_none_iff, ih, List.forall_mem_cons, ite_eq_right_iff]
      constructor
      · rintro ⟨hrest, hfirst⟩
        refine ⟨?_, hrest⟩
        intro hmem
        cases hfirst hmem
      · rintro ⟨hfirst, hrest⟩
        refine ⟨hrest, ?_⟩
        intro hmem
        exact absurd hmem hfirst

/-- Other names, for a list of names that holds them for the old ones. -/
theorem lastValue_map {names names' : List Str} {f : Str → Str} (h : ∀ key, f key ∈ names ↔ key ∈ names')
    (properties : List (Str × Str)) :
    lastValue names (properties.map fun p => (f p.1, p.2)) = lastValue names' properties := by
  induction properties with
  | nil => rfl
  | cons p properties ih =>
      rw [List.map_cons, lastValue, lastValue, ih]
      simp only [h]

/-- One property more for a plain entry. -/
theorem get_processConfigValue {key value name : Str} {config config' : Config} (hname : PlainKey name)
    (h : processConfigValue key value config = .ok config') :
    config'.get name = if key = name then some (.str value) else config.get name := by
  rw [processConfigValue_eq] at h
  split
  · rename_i hkey
    rw [hkey, stored_of_plain hname] at h
    obtain rfl := Except.ok.inj h
    exact Config.get_set_self config name (.str value)
  · rename_i hkey
    cases hentry : stored key value (aclSoFar config) (allowedDns config) with
    | error e =>
        rw [hentry] at h
        cases h
    | ok entry =>
        rw [hentry] at h
        obtain rfl := Except.ok.inj h
        exact Config.get_set_ne config entry.2 (Ne.symm (stored_ne hname hkey hentry))

/-- All the properties, for a plain entry. -/
theorem get_processConfigValues {name : Str} {properties : List (Str × Str)} {config config' : Config}
    (hname : PlainKey name) (h : processConfigValues properties config = .ok config') :
    config'.get name = ((lastValue [name] properties).map ConfigValue.str).or (config.get name) := by
  induction properties generalizing config with
  | nil =>
      obtain rfl := Except.ok.inj h
      rfl
  | cons p properties ih =>
      obtain ⟨key, value⟩ := p
      rw [processConfigValues, List.foldlM_cons] at h
      obtain ⟨next, hnext, hrest⟩ := except_bind_eq_ok.mp h
      rw [ih hrest, get_processConfigValue hname hnext, lastValue]
      -- a later line hides this one
      cases lastValue [name] properties with
      | some later => rfl
      | none =>
          simp only [List.mem_singleton]
          split <;> rfl

/-- What a file leaves in a plain entry: the text of its last line for it, the default without one. -/
theorem get_readConfigFile {name : Str} {lines : List Str} {config : Config} (hname : PlainKey name)
    (h : readConfigFile lines = .ok config) :
    config.get name =
      ((lastValue [name] (lines.filterMap property)).map ConfigValue.str).or (getDefaultConfig.get name) :=
  get_processConfigValues hname h


/-! ## How a line is read -/

theorem isKeyChar_range {c : Char} (h : isKeyChar c = true) : 33 ≤ c.toNat ∧ c.toNat ≤ 126 := by
  rw [isKeyChar, Bool.or_eq_true, decide_eq_true_eq] at h
  rcases h with halnum | hmem
  · exact isAlphanum_range halnum
  · simp only [List.mem_cons, List.not_mem_nil, or_false] at hmem
    rcases hmem with rfl | rfl | rfl | rfl <;> decide

/-- No character of a name is white space. -/
theorem isSpace_of_isKeyChar {c : Char} (h : isKeyChar c = true) : isSpace c = false := by
  rw [← Bool.not_eq_true]
  intro hspace
  have hkey := isKeyChar_range h
  have hrange := isSpace_range hspace
  omega

theorem isKeyChar_of_isSpace {c : Char} (h : isSpace c = true) : isKeyChar c = false := by
  rw [← Bool.not_eq_true]
  intro hkey
  rw [isSpace_of_isKeyChar hkey] at h
  cases h

/-- The blanks before the value of a line, and the value up to the end of the line. -/
def valuePieces (tail : Str) : List Str :=
  [tail.takeWhile isSpace, (tail.dropWhile isSpace).takeWhile fun c => decide (c ≠ '\n')]

theorem matchItems_value (prev : Option Char) (tail : Str) :
    matchItems [.rep isSpace 0 none, anyChars] prev tail = some (valuePieces tail) := by
  have hrest : ∀ (prev : Option Char) (x : Str),
      matchItems [anyChars] prev x = some [x.takeWhile fun c => decide (c ≠ '\n')] := by
    intro prev x
    conv_lhs => rw [← List.takeWhile_append_dropWhile (p := fun c => decide (c ≠ '\n')) (l := x)]
    refine matchItems_rep_run ?_ (Nat.zero_le _) rfl
    rw [List.takeWhile_append_dropWhile]
  conv_lhs => rw [← List.takeWhile_append_dropWhile (p := isSpace) (l := tail)]
  refine matchItems_rep_run ?_ (Nat.zero_le _) (hrest _ _)
  rw [List.takeWhile_append_dropWhile]

/-- A line with a name, a sign of equality and a value, and blanks before and after the name. -/
structure NameParts (blanks key blanks' : Str) : Prop where
  blanks_space : ∀ c ∈ blanks, isSpace c = true
  key_chars : ∀ c ∈ key, isKeyChar c = true
  key_ne_nil : key ≠ []
  blanks'_space : ∀ c ∈ blanks', isSpace c = true

theorem matchItems_parts {blanks key blanks' : Str} (h : NameParts blanks key blanks') (tail : Str) :
    matchItems propertyItems none (blanks ++ (key ++ (blanks' ++ ("=".toList ++ tail)))) =
      some ([blanks, key, blanks', "=".toList] ++ valuePieces tail) := by
  have hequals : ∀ {p : Char → Bool}, p '=' = false → Stops p ("=".toList ++ tail) := fun hp => stops_cons hp
  refine matchItems_rep_run ?_ (Nat.zero_le _) (matchItems_rep_run ?_ ?_
    (matchItems_rep_run ?_ (Nat.zero_le _) (matchItems_lit (matchItems_value _ tail))))
  · refine takeWhile_run h.blanks_space (stops_append_left h.key_ne_nil ?_ _)
    intro c hc
    exact isSpace_of_isKeyChar (h.key_chars c hc)
  · refine takeWhile_run h.key_chars (Stops.append ?_ (hequals (by decide)))
    intro c hc
    exact isKeyChar_of_isSpace (h.blanks'_space c (List.mem_of_mem_head? hc))
  · exact List.length_pos_iff.mpr h.key_ne_nil
  · exact takeWhile_run h.blanks'_space (hequals (by decide))

/-- Every line that matches has this form. -/
theorem parts_of_matchItems {line : Str} {ps : List Str} (h : matchItems propertyItems none line = some ps) :
    ∃ blanks key blanks' tail, NameParts blanks key blanks' ∧
      line = blanks ++ (key ++ (blanks' ++ ("=".toList ++ tail))) := by
  obtain ⟨hfits, rest, rfl⟩ := matchItems_sound h
  rcases ps with _ | ⟨blanks, _ | ⟨key, _ | ⟨blanks', _ | ⟨equals, ps⟩⟩⟩⟩
  · exact absurd hfits (by simp [Fits, propertyItems])
  · exact absurd hfits.2 (by simp [Fits])
  · exact absurd hfits.2.2 (by simp [Fits])
  · exact absurd hfits.2.2.2 (by simp [Fits])
  · obtain ⟨hblanks, hkey, hblanks', rfl, -⟩ := hfits
    refine ⟨blanks, key, blanks', ps.flatten ++ rest, ⟨hblanks.1, hkey.1, ?_, hblanks'.1⟩, ?_⟩
    · exact List.length_pos_iff.mp hkey.2.1
    · simp

end UnicoreTsi.Configuration
