/-
# UnicoreTsi.PeerAccess — which certificates the configured names let in.

A configured name is meant as a list of RDNs, each an attribute type and a complete value (`Satisfied`).  The
code compares something else (`Taken`): it cuts a value at its next `=`, it has nothing to compare for a blank
name, and it stops with a `TypeError` at an RDN whose type it does not know (`Stumbles`).  The main result says
on which configurations and subjects the difference shows (`verify_peer_right_iff`).
-/
import UnicoreTsi.Config

set_option autoImplicit false

namespace UnicoreTsi.Configuration

open UnicoreTsi.Text UnicoreTsi.Effects

/-! ## What a name means -/

/-- The RDNs of a name: attribute type and complete value. -/
def rdns (dn : Str) : List (Str × Str) := (elements dn).filterMap (splitOnce '=')

/-- Every RDN is of the form TYPE=value. -/
def RfcStyle (dn : Str) : Prop := ∀ element ∈ elements dn, '=' ∈ element

/-- The subject has every RDN of the name; `longName` is the name of an attribute type in a subject. -/
def Satisfied (longName : Str → Str) (subject : Subject) (dn : Str) : Prop :=
  rdns dn ≠ [] ∧ ∀ rdn ∈ rdns dn, (longName rdn.1, rdn.2) ∈ subject.flatten

/-! ## What the code compares -/

/-- `split[1]`: a value ends before the next `=`. -/
def cutValue (value : Str) : Str := value.takeWhile (· ≠ '=')

/-- What `convert_rdn` makes of an RDN. -/
def converted (rdn : Str × Str) : Rdn := (rdnMap.lookup rdn.1).map fun name => (name, cutValue rdn.2)

def CutOccurs (subject : Subject) (rdn : Str × Str) : Prop :=
  ∃ name, rdnMap.lookup rdn.1 = some name ∧ (name, cutValue rdn.2) ∈ subject.flatten

/-- The code takes the subject for one with the name. -/
def Taken (subject : Subject) (dn : Str) : Prop := ∀ rdn ∈ rdns dn, CutOccurs subject rdn

/-- Comparing with these RDNs comes to one of an unknown type. -/
def StumblesOver (subject : Subject) (rdns : List (Str × Str)) : Prop :=
  ∃ before rdn after, rdns = before ++ rdn :: after ∧ (∀ b ∈ before, CutOccurs subject b) ∧
    rdnMap.lookup rdn.1 = none ∧ subject.flatten ≠ []

def Stumbles (subject : Subject) (dn : Str) : Prop := StumblesOver subject (rdns dn)

/-- Comparing with the names comes to one that makes it stumble before one is taken. -/
def StumblesFirst (subject : Subject) (dns : List Str) : Prop :=
  ∃ before dn after, dns = before ++ dn :: after ∧ (∀ d ∈ before, ¬ Taken subject d) ∧ Stumbles subject dn

/-- A name with RDNs of known types, and no `=` in their values. -/
def Plain (dn : Str) : Prop :=
  rdns dn ≠ [] ∧ ∀ rdn ∈ rdns dn, (rdnMap.lookup rdn.1).isSome = true ∧ '=' ∉ rdn.2

/-! ## Conversion -/

theorem splitOn_head (value : Str) : ∃ rest, value.splitOn '=' = cutValue value :: rest := by
  induction value with
  | nil => exact ⟨[], rfl⟩
  | cons c cs ih =>
      obtain ⟨rest, hrest⟩ := ih
      rw [List.splitOn_cons_eq_if_modifyHead, hrest]
      by_cases hc : c = '='
      · exact ⟨cutValue cs :: rest, by simp [hc, cutValue]⟩
      · exact ⟨rest, by simp [hc, cutValue]⟩

theorem convertRdn_eq {type value : Str} (htype : '=' ∉ type) :
    convertRdn (type ++ '=' :: value) = .ok (converted (type, value)) := by
  obtain ⟨rest, hrest⟩ := splitOn_head value
  rw [convertRdn, List.splitOn_append_cons_self_of_not_mem htype, hrest, converted, List.headD_cons, List.tail_cons]
  cases rdnMap.lookup type with
  | none => rfl
  | some name => rfl

theorem mapM_convertRdn {parts : List Str} (h : ∀ element ∈ parts, '=' ∈ element) :
    parts.mapM convertRdn = .ok ((parts.filterMap (splitOnce '=')).map converted) := by
  induction parts with
  | nil => rfl
  | cons element parts ih =>
      obtain ⟨type, value, rfl, htype⟩ := List.eq_append_cons_of_mem (h element List.mem_cons_self)
      have hrest := ih fun e he => h e (List.mem_cons_of_mem _ he)
      rw [List.mapM_cons, convertRdn_eq htype, hrest, List.filterMap_cons, splitOnce_append htype]
      rfl

theorem convertDn_eq {dn : Str} (h : RfcStyle dn) : convertDn dn = .ok ((rdns dn).map converted) :=
  mapM_convertRdn h

/-! ## Comparison -/

def noItems : PyExc := typeError "'NoneType' object is not subscriptable"

theorem matchRdn_some (rdn : Str × Str) (attributes : List (Str × Str)) :
    matchRdn (some rdn) attributes = .ok (decide (rdn ∈ attributes)) := by
  induction attributes with
  | nil => rfl
  | cons y ys ih =>
      rw [matchRdn]
      by_cases hy : y = rdn
      · rw [if_pos ⟨congrArg Prod.fst hy, congrArg Prod.snd hy⟩, hy, decide_eq_true List.mem_cons_self]
      · have hboth : ¬ (y.1 = rdn.1 ∧ y.2 = rdn.2) := fun h => hy (Prod.ext h.1 h.2)
        rw [if_neg hboth, ih]
        simp [List.mem_cons, Ne.symm hy]

theorem matchRdn_none {attributes : List (Str × Str)} (h : attributes ≠ []) :
    matchRdn none attributes = .error noItems := by
  cases attributes with
  | nil => exact absurd rfl h
  | cons y ys => rfl

section Comparison

variable {subject : Subject}

theorem converted_none {rdn : Str × Str} (h : rdnMap.lookup rdn.1 = none) : converted rdn = none := by
  rw [converted, h]
  rfl

theorem converted_some {rdn : Str × Str} {name : Str} (h : rdnMap.lookup rdn.1 = some name) :
    converted rdn = some (name, cutValue rdn.2) := by
  rw [converted, h]
  rfl

theorem cutOccurs_iff {rdn : Str × Str} {name : Str} (h : rdnMap.lookup rdn.1 = some name) :
    CutOccurs subject rdn ↔ (name, cutValue rdn.2) ∈ subject.flatten := by
  constructor
  · rintro ⟨name', hname, hmem⟩
    rw [h] at hname
    rwa [Option.some.inj hname]
  · exact fun hmem => ⟨name, h, hmem⟩

theorem not_cutOccurs_none {rdn : Str × Str} (h : rdnMap.lookup rdn.1 = none) : ¬ CutOccurs subject rdn := by
  rintro ⟨name, hname, -⟩
  rw [h] at hname
  cases hname

/-- An RDN that does not occur ends the comparison, unless it is one to stumble over. -/
theorem stumblesOver_cons {rdn : Str × Str} {rdns : List (Str × Str)} :
    StumblesOver subject (rdn :: rdns) ↔
      (rdnMap.lookup rdn.1 = none ∧ subject.flatten ≠ []) ∨ (CutOccurs subject rdn ∧ StumblesOver subject rdns) := by
  constructor
  · rintro ⟨before, r, after, heq, hbefore, hunknown, hsubject⟩
    cases before with
    | nil =>
        obtain ⟨rfl, rfl⟩ := List.cons.inj heq
        exact Or.inl ⟨hunknown, hsubject⟩
    | cons b before =>
        obtain ⟨rfl, rfl⟩ := List.cons.inj heq
        rw [List.forall_mem_cons] at hbefore
        exact Or.inr ⟨hbefore.1, before, r, after, rfl, hbefore.2, hunknown, hsubject⟩
  · rintro (⟨hunknown, hsubject⟩ | ⟨hoccurs, before, r, after, rfl, hbefore, hunknown, hsubject⟩)
    · exact ⟨[], rdn, rdns, rfl, nofun, hunknown, hsubject⟩
    · exact ⟨rdn :: before, r, after, rfl, List.forall_mem_cons.mpr ⟨hoccurs, hbefore⟩, hunknown, hsubject⟩

theorem not_stumblesOver_nil : ¬ StumblesOver subject [] := by
  rintro ⟨before, rdn, after, heq, -⟩
  exact absurd heq.symm (by simp)

/-- How the comparison with a name comes out. -/
theorem matchDn_converted (subject : Subject) (rdns : List (Str × Str)) :
    (StumblesOver subject rdns ∧ matchDn subject (rdns.map converted) = .error noItems) ∨
      (¬ StumblesOver subject rdns ∧
        ∃ b, matchDn subject (rdns.map converted) = .ok b ∧ (b = true ↔ ∀ rdn ∈ rdns, CutOccurs subject rdn)) := by
  induction rdns with
  | nil => exact Or.inr ⟨not_stumblesOver_nil, true, rfl, by simp⟩
  | cons rdn rdns ih =>
      rw [stumblesOver_cons, List.map_cons, matchDn, List.forall_mem_cons]
      cases hname : rdnMap.lookup rdn.1 with
      | none =>
          rw [converted_none hname]
          by_cases hsubject : subject.flatten = []
          · rw [hsubject]
            refine Or.inr ⟨?_, false, rfl, ?_⟩
            · rintro (⟨-, hne⟩ | ⟨hoccurs, -⟩)
              · exact hne rfl
              · exact not_cutOccurs_none hname hoccurs
            · exact ⟨nofun, fun h => absurd h.1 (not_cutOccurs_none hname)⟩
          · rw [matchRdn_none hsubject]
            exact Or.inl ⟨Or.inl ⟨rfl, hsubject⟩, rfl⟩
      | some name =>
          rw [converted_some hname, matchRdn_some, cutOccurs_iff hname]
          by_cases hmem : (name, cutValue rdn.2) ∈ subject.flatten
          · rw [decide_eq_true hmem, ok_bind, if_pos rfl]
            rcases ih with ⟨hstumbles, herror⟩ | ⟨hstumbles, b, hok, hb⟩
            · exact Or.inl ⟨Or.inr ⟨hmem, hstumbles⟩, herror⟩
            · refine Or.inr ⟨?_, b, hok, ?_⟩
              · rintro (⟨hunknown, -⟩ | ⟨-, h⟩)
                · cases hunknown
                · exact hstumbles h
              · rw [hb]
                exact ⟨fun h => ⟨hmem, h⟩, And.right⟩
          · rw [decide_eq_false hmem, ok_bind, if_neg Bool.false_ne_true]
            refine Or.inr ⟨?_, false, rfl, nofun, fun h => absurd h.1 hmem⟩
            rintro (⟨hunknown, -⟩ | ⟨h, -⟩)
            · cases hunknown
            · exact hmem h

theorem Stumbles.not_taken {dn : Str} (h : Stumbles subject dn) : ¬ Taken subject dn := by
  obtain ⟨before, rdn, after, hdn, -, hunknown, -⟩ := h
  intro htaken
  have hmem : rdn ∈ rdns dn := by
    rw [hdn]
    simp
  exact not_cutOccurs_none hunknown (htaken rdn hmem)

theorem stumblesFirst_cons {dn : Str} {dns : List Str} :
    StumblesFirst subject (dn :: dns) ↔
      Stumbles subject dn ∨ (¬ Taken subject dn ∧ StumblesFirst subject dns) := by
  constructor
  · rintro ⟨before, d, after, heq, hbefore, hstumbles⟩
    cases before with
    | nil =>
        obtain ⟨rfl, rfl⟩ := List.cons.inj heq
        exact Or.inl hstumbles
    | cons b before =>
        obtain ⟨rfl, rfl⟩ := List.cons.inj heq
        rw [List.forall_mem_cons] at hbefore
        exact Or.inr ⟨hbefore.1, before, d, after, rfl, hbefore.2, hstumbles⟩
  · rintro (hstumbles | ⟨htaken, before, d, after, rfl, hbefore, hstumbles⟩)
    · exact ⟨[], dn, dns, rfl, nofun, hstumbles⟩
    · exact ⟨dn :: before, d, after, rfl, List.forall_mem_cons.mpr ⟨htaken, hbefore⟩, hstumbles⟩

theorem not_stumblesFirst_nil : ¬ StumblesFirst subject [] := by
  rintro ⟨before, dn, after, heq, -⟩
  exact absurd heq.symm (by simp)

/-- How the comparison with all names comes out. -/
theorem checkAccess_converted (subject : Subject) (dns : List Str) :
    (StumblesFirst subject dns ∧
        checkAccess subject (dns.map fun dn => (rdns dn).map converted) = .error noItems) ∨
      (¬ StumblesFirst subject dns ∧
        ∃ b, checkAccess subject (dns.map fun dn => (rdns dn).map converted) = .ok b ∧
          (b = true ↔ ∃ dn ∈ dns, Taken subject dn)) := by
  induction dns with
  | nil => exact Or.inr ⟨not_stumblesFirst_nil, false, rfl, by simp⟩
  | cons dn dns ih =>
      rw [stumblesFirst_cons, List.map_cons, checkAccess, List.exists_mem_cons_iff]
      rcases matchDn_converted subject (rdns dn) with ⟨hstumbles, herror⟩ | ⟨hstumbles, b, hok, hb⟩
      · rw [herror]
        exact Or.inl ⟨Or.inl hstumbles, rfl⟩
      · rw [hok, ok_bind]
        cases b with
        | true =>
            have htaken : Taken subject dn := hb.mp rfl
            refine Or.inr ⟨?_, true, rfl, fun _ => Or.inl htaken, fun _ => rfl⟩
            rintro (h | ⟨h, -⟩)
            · exact hstumbles h
            · exact h htaken
        | false =>
            have htaken : ¬ Taken subject dn := fun h => Bool.false_ne_true (hb.mpr h)
            rw [if_neg Bool.false_ne_true]
            rcases ih with ⟨hlater, herror⟩ | ⟨hlater, b', hok', hb'⟩
            · exact Or.inl ⟨Or.inr ⟨htaken, hlater⟩, herror⟩
            · refine Or.inr ⟨?_, b', hok', ?_⟩
              · rintro (h | ⟨-, h⟩)
                · exact hstumbles h
                · exact hlater h
              · rw [hb']
                exact ⟨Or.inr, fun h => h.resolve_left htaken⟩

/-- A plain name is taken exactly when it is meant to be. -/
theorem Plain.taken_iff {longName : Str → Str} (hnames : ∀ entry ∈ rdnMap, longName entry.1 = entry.2) {dn : Str}
    (hplain : Plain dn) : Taken subject dn ↔ Satisfied longName subject dn := by
  have hsame : ∀ rdn ∈ rdns dn, (CutOccurs subject rdn ↔ (longName rdn.1, rdn.2) ∈ subject.flatten) := by
    intro rdn hmem
    obtain ⟨hknown, hvalue⟩ := hplain.2 rdn hmem
    obtain ⟨name, hname⟩ := Option.isSome_iff_exists.mp hknown
    have hlong : longName rdn.1 = name := by
      obtain ⟨before, after, hmap, -⟩ := List.lookup_eq_some_iff.mp hname
      apply hnames (rdn.1, name)
      rw [hmap]
      simp
    have hcut : cutValue rdn.2 = rdn.2 := by
      apply List.takeWhile_eq_self_iff.mpr
      intro c hc
      exact decide_eq_true fun h => hvalue (h ▸ hc)
    rw [cutOccurs_iff hname, hlong, hcut]
  constructor
  · exact fun htaken => ⟨hplain.1, fun rdn hmem => (hsame rdn hmem).mp (htaken rdn hmem)⟩
  · exact fun hsatisfied rdn hmem => (hsame rdn hmem).mpr (hsatisfied.2 rdn hmem)

end Comparison

/-! ## The names in the configuration -/

/-- The values of the properties `tsi.allowed_dn.*`, in order. -/
def dnValues (properties : List (Str × Str)) : List Str :=
  (properties.filter fun p => "tsi.allowed_dn.".toList.isPrefixOf p.1).map Prod.snd

theorem allowedDns_set (config : Config) (dns : List (List Rdn)) :
    allowedDns (config.set "tsi.allowed_dns".toList (.dns dns)) = .ok dns := by
  rw [allowedDns, Config.get_set_self]

theorem allowedDns_set_ne (config : Config) {key : Str} (value : ConfigValue) (h : key ≠ "tsi.allowed_dns".toList) :
    allowedDns (config.set key value) = allowedDns config := by
  rw [allowedDns, Config.get_set_ne config value (Ne.symm h)]
  rfl

/-- Another property leaves the names alone. -/
theorem processConfigValue_other {key value : Str} {config config' : Config}
    (hkey : "tsi.allowed_dn.".toList.isPrefixOf key = false) (hdns : key ≠ "tsi.allowed_dns".toList)
    (h : processConfigValue key value config = .ok config') : allowedDns config' = allowedDns config := by
  unfold processConfigValue at h
  split at h
  · obtain rfl := Except.ok.inj h
    exact allowedDns_set_ne config _ hdns
  · split at h
    · split at h
      · obtain ⟨acl, -, hset⟩ := except_bind_eq_ok.mp h
        obtain rfl := Except.ok.inj hset
        exact allowedDns_set_ne config _ (by decide)
      · cases h
    · rw [hkey, if_neg Bool.false_ne_true] at h
      split at h
      · obtain rfl := Except.ok.inj h
        exact allowedDns_set_ne config _ (by decide)
      · split at h
        · obtain rfl := Except.ok.inj h
          exact allowedDns_set_ne config _ (by decide)
        · split at h
          · obtain rfl := Except.ok.inj h
            exact allowedDns_set_ne config _ (by decide)
          · obtain rfl := Except.ok.inj h
            exact allowedDns_set_ne config _ hdns

/-- A property `tsi.allowed_dn.*` adds a name. -/
theorem processConfigValue_dn {key value : Str} {config config' : Config} {dns : List (List Rdn)}
    (hkey : "tsi.allowed_dn.".toList.isPrefixOf key = true) (hdns : allowedDns config = .ok dns)
    (h : processConfigValue key value config = .ok config') :
    ∃ dn, convertDn value = .ok dn ∧ allowedDns config' = .ok (dns ++ [dn]) := by
  have hnotBoolean : key ∉ booleanKeys := by
    intro hmem
    have hnone : ∀ k ∈ booleanKeys, "tsi.allowed_dn.".toList.isPrefixOf k = false := by decide
    rw [hnone key hmem] at hkey
    cases hkey
  have hnotAcl : ¬ "tsi.acl".toList.isPrefixOf key = true := by
    intro hacl
    have hboth := List.prefix_or_prefix_of_prefix (List.isPrefixOf_iff_prefix.mp hacl)
      (List.isPrefixOf_iff_prefix.mp hkey)
    revert hboth
    decide
  rw [processConfigValue, if_neg hnotBoolean, if_neg hnotAcl, if_pos hkey, hdns, ok_bind] at h
  obtain ⟨dn, hdn, hset⟩ := except_bind_eq_ok.mp h
  obtain rfl := Except.ok.inj hset
  exact ⟨dn, hdn, allowedDns_set config _⟩

/-- The names a configuration file leaves in the dictionary. -/
theorem allowedDns_processed {properties : List (Str × Str)} {config config' : Config} {dns : List (List Rdn)}
    (hkeys : ∀ p ∈ properties, p.1 ≠ "tsi.allowed_dns".toList) (hdns : allowedDns config = .ok dns)
    (hvalues : ∀ dn ∈ dnValues properties, RfcStyle dn)
    (h : processConfigValues properties config = .ok config') :
    allowedDns config' = .ok (dns ++ (dnValues properties).map fun dn => (rdns dn).map converted) := by
  induction properties generalizing config dns with
  | nil =>
      obtain rfl := Except.ok.inj h
      rw [hdns]
      simp [dnValues]
  | cons p properties ih =>
      obtain ⟨next, hnext, hrest⟩ := except_bind_eq_ok.mp h
      rw [List.forall_mem_cons] at hkeys
      cases hkey : "tsi.allowed_dn.".toList.isPrefixOf p.1 with
      | true =>
          have hall : dnValues (p :: properties) = p.2 :: dnValues properties := by
            simp only [dnValues, List.filter_cons, hkey, if_true, List.map_cons]
          rw [hall, List.forall_mem_cons] at hvalues
          obtain ⟨dn, hdn, hadded⟩ := processConfigValue_dn hkey hdns hnext
          rw [convertDn_eq hvalues.1] at hdn
          obtain rfl := Except.ok.inj hdn
          rw [ih hkeys.2 hadded hvalues.2 hrest, hall, List.map_cons, List.append_assoc]
          rfl
      | false =>
          have hall : dnValues (p :: properties) = dnValues properties := by
            simp only [dnValues, List.filter_cons, hkey, if_neg Bool.false_ne_true]
          rw [hall] at hvalues ⊢
          rw [← processConfigValue_other hkey hkeys.1 hnext] at hdns
          exact ih hkeys.2 hdns hvalues hrest

/-! ## The decision -/

/-- A peer is accepted exactly when its subject satisfies a name, and refused with an `EnvironmentError`. -/
def DecidesRightly (longName : Str → Str) (dns : List Str) (subject : Subject) (result : Except PyExc Unit) :
    Prop :=
  (result = .ok () ↔ ∃ dn ∈ dns, Satisfied longName subject dn) ∧ ∀ e, result = .error e → e.isOSError = true

/-- The names that are not plain make no difference: none of them is come to with an unknown type, none is
taken for a name that the subject does not have, and none is missed. -/
structure OddNamesHarmless (longName : Str → Str) (dns : List Str) (subject : Subject) : Prop where
  known : ¬ StumblesFirst subject dns
  taken : ∀ dn ∈ dns, ¬ Plain dn → Taken subject dn → ∃ dn' ∈ dns, Satisfied longName subject dn'
  satisfied : ∀ dn ∈ dns, ¬ Plain dn → Satisfied longName subject dn → ∃ dn' ∈ dns, Taken subject dn'

theorem oddNamesHarmless_iff {longName : Str → Str} (hnames : ∀ entry ∈ rdnMap, longName entry.1 = entry.2)
    {dns : List Str} {subject : Subject} : OddNamesHarmless longName dns subject ↔
      ¬ StumblesFirst subject dns ∧
        ((∃ dn ∈ dns, Taken subject dn) ↔ ∃ dn ∈ dns, Satisfied longName subject dn) := by
  constructor
  · intro h
    refine ⟨h.known, ?_, ?_⟩
    · rintro ⟨dn, hdn, htaken⟩
      by_cases hplain : Plain dn
      · exact ⟨dn, hdn, (hplain.taken_iff hnames).mp htaken⟩
      · exact h.taken dn hdn hplain htaken
    · rintro ⟨dn, hdn, hsatisfied⟩
      by_cases hplain : Plain dn
      · exact ⟨dn, hdn, (hplain.taken_iff hnames).mpr hsatisfied⟩
      · exact h.satisfied dn hdn hplain hsatisfied
  · rintro ⟨hknown, hsame⟩
    exact ⟨hknown, fun dn hdn _ htaken => hsame.mp ⟨dn, hdn, htaken⟩,
      fun dn hdn _ hsatisfied => hsame.mpr ⟨dn, hdn, hsatisfied⟩⟩

/-- **Which certificates are let in.**  The configured names decide rightly about a subject exactly when the
names that are not plain make no difference. -/
theorem verify_peer_right_iff {longName : Str → Str} (hnames : ∀ entry ∈ rdnMap, longName entry.1 = entry.2)
    {properties : List (Str × Str)} {config : Config} (hkeys : ∀ p ∈ properties, p.1 ≠ "tsi.allowed_dns".toList)
    (hvalues : ∀ dn ∈ dnValues properties, RfcStyle dn)
    (hread : processConfigValues properties getDefaultConfig = .ok config) (subject : Subject) :
    ∃ acl, allowedDns config = .ok acl ∧
      (DecidesRightly longName (dnValues properties) subject (verifyPeer acl subject) ↔
        OddNamesHarmless longName (dnValues properties) subject) := by
  have hdefault : allowedDns getDefaultConfig = .ok [] := by decide +kernel
  refine ⟨_, allowedDns_processed hkeys hdefault hvalues hread, ?_⟩
  rw [oddNamesHarmless_iff hnames, List.nil_append, verifyPeer]
  generalize dnValues properties = dns
  rcases checkAccess_converted subject dns with ⟨hstumbles, herror⟩ | ⟨hstumbles, b, hok, hb⟩
  · rw [herror]
    constructor
    · exact fun h => absurd (h.2 _ rfl) (by decide)
    · exact fun h => absurd hstumbles h.1
  · rw [hok, ok_bind, ← hb]
    cases b with
    | true =>
        rw [if_pos rfl]
        constructor
        · exact fun h => ⟨hstumbles, fun _ => h.1.mp rfl, fun _ => rfl⟩
        · exact fun h => ⟨⟨fun _ => h.2.mp rfl, fun _ => rfl⟩, nofun⟩
    | false =>
        rw [if_neg Bool.false_ne_true]
        constructor
        · exact fun h => ⟨hstumbles, nofun, fun hs => nomatch h.1.mpr hs⟩
        · refine fun h => ⟨⟨nofun, fun hs => absurd (h.2.mpr hs) Bool.false_ne_true⟩, ?_⟩
          rintro e he
          obtain rfl := Except.error.inj he
          rfl

/-! ### A name with two RDNs, and a blank one -/

/-- The names of `rdnMap`; other types keep their own. -/
def knownName (type : Str) : Str := (rdnMap.lookup type).getD type

def unicorexName : List (Str × Str) := [("tsi.allowed_dn.1".toList, "CN=unicorex, O=site".toList)]

def unicorexSubject : Subject :=
  [[("organizationName".toList, "site".toList)], [("commonName".toList, "unicorex".toList)]]

theorem verify_peer_right_unicorex :
    ∃ config, processConfigValues unicorexName getDefaultConfig = .ok config ∧
      ∃ acl, allowedDns config = .ok acl ∧
        (DecidesRightly knownName (dnValues unicorexName) unicorexSubject (verifyPeer acl unicorexSubject) ↔
          OddNamesHarmless knownName (dnValues unicorexName) unicorexSubject) := by
  have hvalues : ∀ dn ∈ dnValues unicorexName, RfcStyle dn := by
    unfold RfcStyle
    decide +kernel
  exact ⟨_, rfl, verify_peer_right_iff (by decide) (by decide) hvalues rfl unicorexSubject⟩

/-- A property without a value lets everybody in. -/
theorem blank_name_accepts :
    ¬ ∀ (longName : Str → Str), (∀ entry ∈ rdnMap, longName entry.1 = entry.2) →
      ∀ (properties : List (Str × Str)) (config : Config),
        (∀ p ∈ properties, p.1 ≠ "tsi.allowed_dns".toList) → (∀ dn ∈ dnValues properties, RfcStyle dn) →
        processConfigValues properties getDefaultConfig = .ok config → ∀ subject : Subject,
          ∃ acl, allowedDns config = .ok acl ∧
            DecidesRightly longName (dnValues properties) subject (verifyPeer acl subject) := by
  intro h
  have hvalues : ∀ dn ∈ dnValues [("tsi.allowed_dn.1".toList, [])], RfcStyle dn := by
    unfold RfcStyle
    decide +kernel
  obtain ⟨acl, hacl, hright, -⟩ := h knownName (by decide) [("tsi.allowed_dn.1".toList, [])] _ (by decide) hvalues
    rfl [[("commonName".toList, "mallory".toList)]]
  obtain rfl : [[]] = acl := Except.ok.inj hacl
  obtain ⟨dn, hdn, hne, -⟩ := hright.mp rfl
  obtain rfl : dn = [] := by simpa [dnValues] using hdn
  exact hne (by decide)

end UnicoreTsi.Configuration
