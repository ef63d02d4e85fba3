/-
# UnicoreTsi.Requests — the array specification and the nodes filter of a message, in the script.

The array specification is documented as a list of task ids and ranges of ids, but it is read as a number: of
all lists only a single positive id is one, and nothing else gets into the script.  The filter for the nodes
of a message goes with the filter of the site, and in the Torque variant not without it.
-/
import UnicoreTsi.Numbers
import UnicoreTsi.ScriptOptions

set_option autoImplicit false

namespace UnicoreTsi.BssCommon

open UnicoreTsi.Text UnicoreTsi.Regex UnicoreTsi.Effects UnicoreTsi.Utils UnicoreTsi.BssScript

/-! ## Array specifications -/

def IsTaskId (s : Str) : Prop := s ≠ [] ∧ ∀ c ∈ s, c.isDigit = true

def IsTaskRange (s : Str) : Prop := ∃ first last, IsTaskId first ∧ IsTaskId last ∧ s = first ++ '-' :: last

/-- Ids and ranges of ids, with commas between them. -/
inductive IsArrayList : Str → Prop
  | entry {s : Str} (h : IsTaskId s ∨ IsTaskRange s) : IsArrayList s
  | cons {s rest : Str} (h : IsTaskId s ∨ IsTaskRange s) (hrest : IsArrayList rest) : IsArrayList (s ++ ',' :: rest)

/-- The directive for an array of jobs, with what follows the list. -/
def Variant.arrayDirective (v : Variant) (config : Settings) (message list limit : Str) : Str :=
  match v with
  | nobatch => []
  | slurm => BssSlurm.directive ("--array=".toList ++ (list ++ limit))
  | torque => BssTorque.directive ("-t ".toList ++ (list ++ limit))
  | lsf => BssLsf.directive ("-J \"".toList ++
      (fittingJobName (parameterOr message "JOBNAME".toList config.defaultJobName) ++
        ("[".toList ++ list ++ "]".toList ++ limit) ++ "\"".toList))

/-- What follows the list: the limit after a percent sign if the message has one, and nothing if it has none. -/
structure LimitText (message limit : Str) : Prop where
  given : ∀ l : ℤ, GivesInt message "ARRAY_LIMIT".toList l → 0 < l → limit = '%' :: natText l.toNat
  notGiven : (NotGiven message "ARRAY_LIMIT".toList ∨ ∃ l ≤ 0, GivesInt message "ARRAY_LIMIT".toList l) →
    limit = []
  percent : limit = [] ∨ ∃ rest, limit = '%' :: rest

/-- The list of the message and its limit are in the script. -/
def ArrayKept (v : Variant) (config : Settings) (message list : Str) (script : List Str) : Prop :=
  ∃ limit, LimitText message limit ∧ v.arrayDirective config message list limit ∈ script

/-- The list is one positive id in its shortest form, and it and the limit are numbers that a double can
hold. -/
def ArrayFits (message list : Str) : Prop :=
  (∃ n : ℕ, 0 < n ∧ list = natText n ∧ truncDouble n 1 = some n) ∧
    ∀ l : ℤ, GivesInt message "ARRAY_LIMIT".toList l → 0 < l → truncDouble l.toNat 1 = some l.toNat

/-- The limit as the generators write it. -/
def limitText (arrayLimit : ℤ) : Str := if 0 < arrayLimit then '%' :: intText arrayLimit else []

theorem limited_eq (spec : Str) (arrayLimit : ℤ) : limited spec arrayLimit = spec ++ limitText arrayLimit := by
  rw [limited, limitText]
  split
  · rw [List.append_assoc]
    rfl
  · rw [List.append_nil]

/-- A text up to the first percent sign. -/
theorem append_percent_inj {x y s t : Str} (hx : '%' ∉ x) (hy : '%' ∉ y)
    (hs : s = [] ∨ ∃ rest, s = '%' :: rest) (ht : t = [] ∨ ∃ rest, t = '%' :: rest) :
    x ++ s = y ++ t ↔ x = y ∧ s = t := by
  refine ⟨fun h => ?_, by rintro ⟨rfl, rfl⟩; rfl⟩
  rcases hs with rfl | ⟨s, rfl⟩
  · rcases ht with rfl | ⟨t, rfl⟩
    · rw [List.append_nil, List.append_nil] at h
      exact ⟨h, rfl⟩
    · rw [List.append_nil] at h
      exact absurd (h ▸ List.mem_append_right _ List.mem_cons_self) hx
  · rcases ht with rfl | ⟨t, rfl⟩
    · rw [List.append_nil] at h
      exact absurd (h ▸ List.mem_append_right _ List.mem_cons_self) hy
    · obtain ⟨rfl, rfl⟩ := append_cons_inj hx hy h
      exact ⟨rfl, rfl⟩

theorem limitText_percent (arrayLimit : ℤ) :
    limitText arrayLimit = [] ∨ ∃ rest, limitText arrayLimit = '%' :: rest := by
  rw [limitText]
  split
  · exact Or.inr ⟨_, rfl⟩
  · exact Or.inl rfl

theorem IsArrayList.no_percent {list : Str} (h : IsArrayList list) : '%' ∉ list := by
  have hid : ∀ {s : Str}, IsTaskId s → '%' ∉ s := fun hs hmem => absurd (hs.2 '%' hmem) (by decide)
  have hentry : ∀ {s : Str}, IsTaskId s ∨ IsTaskRange s → '%' ∉ s := by
    rintro s (hs | ⟨first, last, hfirst, hlast, rfl⟩) hmem
    · exact hid hs hmem
    · rcases List.mem_append.mp hmem with hmem | hmem
      · exact hid hfirst hmem
      · rcases List.mem_cons.mp hmem with hdash | hmem
        · exact absurd hdash (by decide)
        · exact hid hlast hmem
  induction h with
  | entry h => exact hentry h
  | cons h _ ih =>
      intro hmem
      rcases List.mem_append.mp hmem with hmem | hmem
      · exact hentry h hmem
      · rcases List.mem_cons.mp hmem with hcomma | hmem
        · exact absurd hcomma (by decide)
        · exact ih hmem

section Limit

variable {message : Str}

/-- The limit of the message is what is written, if a double can hold it. -/
theorem limitText_iff :
    LimitText message (limitText (extractNumber message "ARRAY_LIMIT".toList)) ↔
      ∀ l : ℤ, GivesInt message "ARRAY_LIMIT".toList l → 0 < l → truncDouble l.toNat 1 = some l.toNat := by
  constructor
  · intro h l hl hpos
    have htext := h.given l hl hpos
    rw [extractNumber_of_pos (by decide) hl hpos] at htext
    cases hdouble : truncDouble l.toNat 1 with
    | none =>
        rw [hdouble] at htext
        cases htext
    | some m =>
        rw [hdouble] at htext
        change limitText (m : ℤ) = _ at htext
        rw [limitText] at htext
        split at htext
        · rw [intText_natCast] at htext
          rw [natText_injective (List.cons.inj htext).2]
        · cases htext
  · intro hexact
    refine ⟨fun l hl hpos => ?_, fun hnot => ?_, limitText_percent _⟩
    · have hnumber : extractNumber message "ARRAY_LIMIT".toList = l.toNat := by
        rw [extractNumber_of_pos (by decide) hl hpos, hexact l hl hpos]
        rfl
      rw [hnumber, limitText, if_pos (by omega), intText_natCast]
    · have hnonpos : extractNumber message "ARRAY_LIMIT".toList ≤ 0 := by
        rcases hnot with hnot | ⟨l, hl, hgives⟩
        · rw [extractNumber_of_notGiven (by decide) hnot]
          decide
        · exact extractNumber_of_nonpos (by decide) hgives hl
      rw [limitText, if_neg (Int.not_lt.mpr hnonpos)]

/-- The number that is read from a list is the list, if it is one positive id. -/
theorem list_eq_number_iff {list : Str} (hlist : givenValue message "ARRAY".toList = some list) :
    (0 < extractNumber message "ARRAY".toList ∧ list = intText (extractNumber message "ARRAY".toList)) ↔
      ∃ n : ℕ, 0 < n ∧ list = natText n ∧ truncDouble n 1 = some n := by
  constructor
  · rintro ⟨hpos, htext⟩
    obtain ⟨n, hn⟩ : ∃ n : ℕ, extractNumber message "ARRAY".toList = n := Int.eq_ofNat_of_zero_le hpos.le
    rw [hn, intText_natCast] at htext
    have hgives : GivesInt message "ARRAY".toList n := ⟨list, hlist, by rw [htext, pyInt_natText]⟩
    rw [hn] at hpos
    rw [extractNumber_of_pos (by decide) hgives hpos] at hn
    refine ⟨n, by omega, htext, ?_⟩
    rw [Int.toNat_natCast] at hn
    cases hdouble : truncDouble n 1 with
    | none =>
        rw [hdouble] at hn
        change (-1 : ℤ) = n at hn
        omega
    | some m =>
        rw [hdouble] at hn
        change (m : ℤ) = n at hn
        rw [Int.ofNat_inj.mp hn]
  · rintro ⟨n, hpos, rfl, hdouble⟩
    have hgives : GivesInt message "ARRAY".toList n := ⟨_, hlist, pyInt_natText n⟩
    have hnumber : extractNumber message "ARRAY".toList = n := by
      rw [extractNumber_of_pos (by decide) hgives (by omega), Int.toNat_natCast, hdouble]
      rfl
    rw [hnumber, intText_natCast]
    exact ⟨by omega, rfl⟩

end Limit

/-! ### The variants -/

section Scripts

variable {config : Settings} {message list : Str} {lines : List Str}

/-- The list with its limit is what the generators write, between the same brackets. -/
theorem written_iff {front back : Str} (hback : '%' ∉ front ++ back) (hlist : IsArrayList list)
    (hgiven : givenValue message "ARRAY".toList = some list) :
    (∃ limit, LimitText message limit ∧ 0 < extractNumber message "ARRAY".toList ∧
      front ++ list ++ back ++ limit = front ++ intText (extractNumber message "ARRAY".toList) ++ back ++
        limitText (extractNumber message "ARRAY_LIMIT".toList)) ↔ ArrayFits message list := by
  rw [ArrayFits, ← list_eq_number_iff hgiven, ← limitText_iff]
  have hfront : '%' ∉ front := fun hmem => hback (List.mem_append_left _ hmem)
  have hback : '%' ∉ back := fun hmem => hback (List.mem_append_right _ hmem)
  have hno : ∀ {x : Str}, '%' ∉ x → '%' ∉ front ++ x ++ back := by
    intro x hx
    simp only [List.mem_append, not_or]
    exact ⟨⟨hfront, hx⟩, hback⟩
  have hnumber : 0 < extractNumber message "ARRAY".toList →
      '%' ∉ intText (extractNumber message "ARRAY".toList) := by
    intro hpos
    obtain ⟨n, hn⟩ := Int.eq_ofNat_of_zero_le hpos.le
    rw [hn]
    exact not_mem_natText (by decide) n
  constructor
  · rintro ⟨limit, hlimit, hpos, heq⟩
    obtain ⟨htext, rfl⟩ := (append_percent_inj (hno hlist.no_percent) (hno (hnumber hpos)) hlimit.percent
      (limitText_percent _)).mp heq
    exact ⟨⟨hpos, List.append_cancel_left (List.append_cancel_right htext)⟩, hlimit⟩
  · rintro ⟨⟨hpos, htext⟩, hlimit⟩
    refine ⟨_, hlimit, hpos, ?_⟩
    rw [← htext]

theorem slurm_arrayValues (h : BssSlurm.createSubmitScript config message = .ok lines) :
    optionValues (Variant.slurm.directive "--array=".toList) lines =
      if 0 < extractNumber message "ARRAY".toList then
        [intText (extractNumber message "ARRAY".toList) ++
          limitText (extractNumber message "ARRAY_LIMIT".toList)]
      else [] := by
  have hdistinct : Distinct "--array=".toList slurmNames := by decide
  obtain ⟨wallTime, htime, hvalues⟩ := slurm_values hdistinct h
  have hnone : optionValues "--array=".toList wallTime = [] := by
    have happart : Apart "--array=".toList "--time=".toList := by decide
    rw [BssSlurm.timeOption] at htime
    split at htime
    · obtain ⟨minutes, -, hminutes⟩ := except_map_eq_ok.mp htime
      rw [← hminutes]
      exact ((happart.append _).lacks_cons lacks_nil).optionValues_eq
    · rw [← Except.ok.inj htime]
      exact lacks_nil.optionValues_eq
  rw [hvalues, hnone, List.nil_append, BssSlurm.arrayLines]
  split
  · rw [← limited_eq]
    exact optionValues_array (v := .slurm) (by decide) _ _
  · rfl

theorem torque_arrayValues (h : BssTorque.createSubmitScript config message = .ok lines) :
    optionValues (Variant.torque.directive "-t ".toList) lines =
      if 0 < extractNumber message "ARRAY".toList then
        [intText (extractNumber message "ARRAY".toList) ++
          limitText (extractNumber message "ARRAY_LIMIT".toList)]
      else [] := by
  have hdistinct : Distinct "-t ".toList torqueNames := by decide
  have hnodes : Apart "-t ".toList "-l ".toList := by decide
  have htime : Apart "-t ".toList "-l walltime=".toList := by decide
  have hnodesLack : Lacks "-t ".toList (torqueNodes message config) :=
    lacks_ite (((hnodes.append _).append _).lacks_cons lacks_nil) lacks_nil
  have htimeLack : Lacks "-t ".toList
      (ifPositive (extractNumber message "TIME".toList) ("-l walltime=".toList ++ ·)) :=
    lacks_ifPositive htime.append
  rw [torque_values hdistinct h, hnodesLack.optionValues_eq, htimeLack.optionValues_eq, List.nil_append,
    List.nil_append, BssTorque.arrayLines]
  split
  · rw [← limited_eq]
    exact optionValues_array (v := .torque) (by decide) _ _
  · rfl

/-- A job name starts with a letter. -/
theorem fittingJobName_head (jobName : Str) : Apart "\"".toList (fittingJobName jobName) := by
  unfold fittingJobName
  split
  · rename_i first rest hsearch
    obtain ⟨_, ⟨_, _, hfit⟩, -⟩ := search_eq_some hsearch
    obtain ⟨⟨hletters, hlength, -⟩, -⟩ := hfit
    cases first with
    | nil => exact absurd hlength (by decide)
    | cons c cs =>
        have hc : '"' ≠ c := by
          rintro rfl
          exact absurd (hletters '"' List.mem_cons_self) (by decide)
        exact apart_of_head hc [] (cs ++ rest)
  · decide

theorem lsf_arrayValues (h : BssLsf.createSubmitScript config message = .ok lines) :
    optionValues (Variant.lsf.directive "-J \"".toList) lines =
      if 0 < extractNumber message "ARRAY".toList then
        [fittingJobName (parameterOr message "JOBNAME".toList config.defaultJobName) ++
          ("[".toList ++ intText (extractNumber message "ARRAY".toList) ++ "]".toList ++
            limitText (extractNumber message "ARRAY_LIMIT".toList)) ++ "\"".toList]
      else [] := by
  have hdistinct : Distinct "-J \"".toList lsfNames := by decide
  obtain ⟨minutes, -, hvalues⟩ := lsf_values hdistinct h
  have htime : Apart "-J \"".toList "-W ".toList := by decide
  have htimeLack : Lacks "-J \"".toList ["-W ".toList ++ intText minutes] :=
    (htime.append _).lacks_cons lacks_nil
  rw [hvalues, htimeLack.optionValues_eq, List.nil_append, lsfNameLines, BssLsf.nameLines]
  split
  · rw [← limited_eq, List.append_assoc "-J \"".toList, List.append_assoc "-J \"".toList]
    exact optionValues_array (v := .lsf) (by decide) _ _
  · have hname := (fittingJobName_head (parameterOr message "JOBNAME".toList config.defaultJobName)).append_left
      "-J ".toList
    exact ((hname.directive .lsf).lacks_cons lacks_nil).optionValues_eq

theorem mem_ite_singleton {p : Prop} [Decidable p] {x y : Str} : (x ∈ if p then [y] else []) ↔ p ∧ x = y := by
  split
  · rename_i hp
    rw [List.mem_singleton, and_iff_right hp]
  · rename_i hp
    exact iff_of_false List.not_mem_nil (fun h => hp h.1)

/-- Which lists of task ids a variant keeps. -/
theorem arrayKept_iff {v : Variant} (hv : v ≠ .nobatch) (h : v.hooks.createSubmitScript config message = .ok lines)
    (hgiven : givenValue message "ARRAY".toList = some list) (hlist : IsArrayList list) :
    ArrayKept v config message list lines ↔ ArrayFits message list := by
  have hplain : '%' ∉ ([] : Str) ++ [] := nofun
  have hbrackets : '%' ∉ "[".toList ++ "]".toList := by decide
  cases v with
  | nobatch => exact absurd rfl hv
  | slurm =>
      rw [← written_iff hplain hlist hgiven, ArrayKept]
      refine exists_congr fun limit => and_congr_right fun _ => ?_
      change Variant.slurm.directive (_ ++ _) ∈ lines ↔ _
      rw [directive_append, ← mem_optionValues, slurm_arrayValues h, mem_ite_singleton]
      simp only [List.nil_append, List.append_nil]
  | torque =>
      rw [← written_iff hplain hlist hgiven, ArrayKept]
      refine exists_congr fun limit => and_congr_right fun _ => ?_
      change Variant.torque.directive (_ ++ _) ∈ lines ↔ _
      rw [directive_append, ← mem_optionValues, torque_arrayValues h, mem_ite_singleton]
      simp only [List.nil_append, List.append_nil]
  | lsf =>
      rw [← written_iff hbrackets hlist hgiven, ArrayKept]
      refine exists_congr fun limit => and_congr_right fun _ => ?_
      change Variant.lsf.directive (_ ++ _) ∈ lines ↔ _
      rw [directive_append, ← mem_optionValues, lsf_arrayValues h, mem_ite_singleton,
        List.append_cancel_right_eq, List.append_cancel_left_eq]

end Scripts

/-! ## Filters for the nodes -/

/-- The part of a node selection before the filters. -/
def Variant.selectionTag (v : Variant) (message : Str) : Str :=
  match v with
  | slurm => "--constraint=".toList
  | torque => "-l ".toList ++ BssTorque.nodesSpec (extractNumber message "NODES".toList)
      (extractNumber message "PROCESSORS_PER_NODE".toList)
  | nobatch | lsf => []

/-- A filter as a part of a node selection. -/
def Variant.filterText (v : Variant) (nodesFilter : Str) : Str :=
  match v with
  | torque => ":".toList ++ nodesFilter
  | nobatch | slurm | lsf => nodesFilter

/-- The node selection of the script has the filter of the user and that of the site. -/
def FilterKept (v : Variant) (config : Settings) (message user : Str) (script : List Str) : Prop :=
  ∃ selection ∈ optionValues (v.directive (v.selectionTag message)) script,
    v.filterText user <:+: selection ∧
      (config.nodesFilter ≠ [] → v.filterText config.nodesFilter <:+: selection)

section Filters

variable {config : Settings} {message user : Str} {lines : List Str}

theorem parameterOrNone_of_given {parameter v : Str} (hparameter : '\n' ∉ parameter)
    (h : givenValue message parameter = some v) (hv : v ≠ []) : parameterOrNone message parameter = v := by
  rw [parameterOrNone, parameterOr, extractParameter_of_given hparameter h hv]
  rfl

theorem slurm_constraint_mem (hfilter : BssSlurm.joinedFilter config.nodesFilter
      (parameterOrNone message "BSS_NODES_FILTER".toList) ≠ []) :
    "--constraint=".toList ++ BssSlurm.joinedFilter config.nodesFilter
      (parameterOrNone message "BSS_NODES_FILTER".toList) ∈ BssSlurm.resourceOptions message config := by
  unfold BssSlurm.resourceOptions
  refine List.mem_append_left _ (List.mem_append_left _ (List.mem_append_right _ ?_))
  rw [if_pos hfilter]
  exact List.mem_singleton_self _

/-- The options of a Slurm script are in it as directives. -/
theorem slurm_option_mem (h : BssSlurm.createSubmitScript config message = .ok lines) {option : Str}
    (hoption : option ∈ BssSlurm.resourceOptions message config) : Variant.slurm.directive option ∈ lines := by
  obtain ⟨options, hoptions, hlines⟩ := except_bind_eq_ok.mp h
  obtain ⟨wallTime, -, hoptions⟩ := except_bind_eq_ok.mp hoptions
  obtain rfl := Except.ok.inj hlines
  obtain rfl := Except.ok.inj hoptions
  refine List.mem_append_left _ (List.mem_append_left _ (List.mem_append_left _ (List.mem_append_right _ ?_)))
  exact List.mem_map_of_mem (List.mem_append_left _ (List.mem_append_left _ hoption))

theorem slurm_filterKept (h : BssSlurm.createSubmitScript config message = .ok lines)
    (hgiven : givenValue message "BSS_NODES_FILTER".toList = some user) (hne : user ≠ [])
    (hnone : user ≠ noneText) : FilterKept .slurm config message user lines := by
  have huser : parameterOrNone message "BSS_NODES_FILTER".toList = user :=
    parameterOrNone_of_given (by decide) hgiven hne
  have hmem : BssSlurm.joinedFilter config.nodesFilter user ≠ [] →
      BssSlurm.joinedFilter config.nodesFilter user ∈
        optionValues (Variant.slurm.directive "--constraint=".toList) lines := by
    intro hfilter
    rw [← huser] at hfilter ⊢
    rw [mem_optionValues, ← directive_append]
    exact slurm_option_mem h (slurm_constraint_mem hfilter)
  rw [BssSlurm.joinedFilter, if_pos hnone] at hmem
  by_cases hsite : config.nodesFilter = []
  · rw [if_neg (not_not.mpr hsite)] at hmem
    exact ⟨user, hmem hne, List.infix_refl user, fun h => absurd hsite h⟩
  · rw [if_pos hsite] at hmem
    refine ⟨_, hmem (by simp), (List.suffix_append _ _).isInfix, fun _ => ?_⟩
    exact ((List.prefix_append _ _).trans (List.prefix_append _ _)).isInfix

theorem selectionTag_torque (message : Str) :
    ∃ rest, Variant.torque.selectionTag message = "-l nodes=".toList ++ rest := by
  have hword : "-l nodes=".toList = "-l ".toList ++ "nodes=".toList := by decide
  have hregroup : ∀ word name count processors : Str,
      word ++ (name ++ count ++ processors) = word ++ name ++ (count ++ processors) := by
    intro word name count processors
    simp only [List.append_assoc]
  rw [hword]
  exact ⟨_, hregroup _ _ _ _⟩

theorem torque_selections (h : BssTorque.createSubmitScript config message = .ok lines) :
    optionValues (Variant.torque.directive (Variant.torque.selectionTag message)) lines =
      if 0 < extractNumber message "NODES".toList then
        [BssTorque.joinedFilter config.nodesFilter (parameterOrNone message "BSS_NODES_FILTER".toList)]
      else [] := by
  have hapart : ∀ {name : Str}, Apart "-l nodes=".toList name → Apart (Variant.torque.selectionTag message) name := by
    intro name hname
    obtain ⟨rest, hrest⟩ := selectionTag_torque message
    rw [hrest]
    exact (hname.symm.append rest).symm
  have hdistinct : Distinct (Variant.torque.selectionTag message) torqueNames := by
    have hnames : Distinct "-l nodes=".toList torqueNames := by decide
    exact fun name hname => hapart (hnames name hname)
  have htime : Apart "-l nodes=".toList "-l walltime=".toList := by decide
  have harray : Apart "-l nodes=".toList "-t ".toList := by decide
  have htimeLack : Lacks (Variant.torque.selectionTag message)
      (ifPositive (extractNumber message "TIME".toList) ("-l walltime=".toList ++ ·)) :=
    lacks_ifPositive (hapart htime).append
  have harrayLack : ∀ arraySpec arrayLimit, Lacks (Variant.torque.directive (Variant.torque.selectionTag message))
      (BssTorque.arrayLines arraySpec arrayLimit) := fun arraySpec arrayLimit =>
    lacks_ite ((((hapart harray).append _).directive .torque).lacks_cons
      ((apart_taskId (v := .torque) (by decide) _).lacks_cons lacks_nil)) lacks_nil
  rw [torque_values hdistinct h, htimeLack.optionValues_eq, (harrayLack _ _).optionValues_eq, List.append_nil,
    List.append_nil, torqueNodes]
  split
  · exact optionValues_tagged _
  · rfl

theorem torque_filterKept_iff (h : BssTorque.createSubmitScript config message = .ok lines)
    (hgiven : givenValue message "BSS_NODES_FILTER".toList = some user) (hne : user ≠ [])
    (hnone : user ≠ noneText) :
    FilterKept .torque config message user lines ↔
      config.nodesFilter ≠ [] ∧ 0 < extractNumber message "NODES".toList := by
  have huser : parameterOrNone message "BSS_NODES_FILTER".toList = user :=
    parameterOrNone_of_given (by decide) hgiven hne
  rw [FilterKept, torque_selections h, huser]
  constructor
  · rintro ⟨selection, hselection, hkept, -⟩
    obtain ⟨hnodes, rfl⟩ := mem_ite_singleton.mp hselection
    refine ⟨fun hsite => ?_, hnodes⟩
    -- without a filter of the site nothing is emitted
    rw [BssTorque.joinedFilter, if_neg (not_not.mpr hsite), hsite] at hkept
    exact absurd (List.infix_nil.mp hkept) (List.cons_ne_nil _ _)
  · rintro ⟨hsite, hnodes⟩
    refine ⟨_, mem_ite_singleton.mpr ⟨hnodes, rfl⟩, ?_, fun _ => ?_⟩
    · rw [BssTorque.joinedFilter, if_pos hsite, if_pos hnone]
      exact (List.suffix_append _ _).isInfix
    · rw [BssTorque.joinedFilter, if_pos hsite, if_pos hnone]
      exact (List.prefix_append _ _).isInfix

end Filters

/-! ## What is kept of the requests -/

/-- Which array specifications and which filters for the nodes get into a script. -/
theorem requests_kept_iff (config : Settings) (message : Str) :
    (∀ (v : Variant) (lines : List Str) (list : Str), v ≠ .nobatch →
      v.hooks.createSubmitScript config message = .ok lines → givenValue message "ARRAY".toList = some list →
      IsArrayList list → (ArrayKept v config message list lines ↔ ArrayFits message list)) ∧
    (∀ (v : Variant) (lines : List Str) (n : ℤ) (user : Str), v = .slurm ∨ v = .torque →
      v.hooks.createSubmitScript config message = .ok lines → GivesInt message "NODES".toList n → 0 < n →
      givenValue message "BSS_NODES_FILTER".toList = some user → user ≠ [] → user ≠ noneText →
      (FilterKept v config message user lines ↔
        v = .slurm ∨ (config.nodesFilter ≠ [] ∧ 0 < extractNumber message "NODES".toList))) := by
  refine ⟨fun v lines list hv h hgiven hlist => arrayKept_iff hv h hgiven hlist, ?_⟩
  rintro v lines n user (rfl | rfl) h - - hgiven hne hnone
  · exact iff_of_true (slurm_filterKept h hgiven hne hnone) (Or.inl rfl)
  · rw [torque_filterKept_iff h hgiven hne hnone]
    simp

/-- A job with the one task 10, on two nodes with a filter. -/
def oneTask : Str := "#TSI_ARRAY 10\n#TSI_NODES 2\n#TSI_BSS_NODES_FILTER gpu\n".toList

theorem requests_kept_one_task :
    ∃ lines, Variant.torque.hooks.createSubmitScript {} oneTask = .ok lines ∧
      (ArrayKept .torque {} oneTask "10".toList lines ↔ ArrayFits oneTask "10".toList) ∧
      (FilterKept .torque {} oneTask "gpu".toList lines ↔
        Variant.torque = .slurm ∨ (([] : Str) ≠ [] ∧ 0 < extractNumber oneTask "NODES".toList)) := by
  have hlist : IsArrayList "10".toList := .entry (Or.inl ⟨by decide, by decide⟩)
  have harray : givenValue oneTask "ARRAY".toList = some "10".toList := by decide +kernel
  have hfilter : givenValue oneTask "BSS_NODES_FILTER".toList = some "gpu".toList := by decide +kernel
  have hnodes : GivesInt oneTask "NODES".toList 2 := ⟨"2".toList, by decide +kernel, by decide +kernel⟩
  exact ⟨_, rfl, (requests_kept_iff {} oneTask).1 .torque _ _ (by decide) rfl harray hlist,
    (requests_kept_iff {} oneTask).2 .torque _ 2 _ (Or.inr rfl) rfl hnodes (by decide) hfilter (by decide)
      (by decide)⟩

/-- A range of tasks is not submitted as an array. -/
theorem array_range_dropped :
    ¬ ∀ (v : Variant) (config : Settings) (message : Str) (lines : List Str) (list : Str), v ≠ .nobatch →
      v.hooks.createSubmitScript config message = .ok lines → givenValue message "ARRAY".toList = some list →
      IsArrayList list → ArrayKept v config message list lines := by
  intro h
  have hlist : IsArrayList "1-100".toList :=
    .entry (Or.inr ⟨"1".toList, "100".toList, ⟨by decide, by decide⟩, ⟨by decide, by decide⟩, by decide⟩)
  have hgiven : givenValue "#TSI_ARRAY 1-100\n".toList "ARRAY".toList = some "1-100".toList := by decide +kernel
  obtain ⟨lines, hok, hvalues⟩ : ∃ lines,
      Variant.slurm.hooks.createSubmitScript {} "#TSI_ARRAY 1-100\n".toList = .ok lines ∧
        optionValues (Variant.slurm.directive "--array=".toList) lines = [] := ⟨_, rfl, by decide +kernel⟩
  obtain ⟨limit, -, hmem⟩ := h .slurm {} _ lines _ (by decide) hok hgiven hlist
  change Variant.slurm.directive (_ ++ _) ∈ lines at hmem
  rw [directive_append, ← mem_optionValues, hvalues] at hmem
  cases hmem

end UnicoreTsi.BssCommon
