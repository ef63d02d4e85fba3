/-
# UnicoreTsi.Partitions — the totals of the partition command.

`parse_partitions` adds the nodes of a line to what it has for the partition so far, but what it has is the
dictionary it made of the first line.  `partition_totals_iff`: it returns the sum over the lines of each partition
if and only if no partition has more than one line.
-/
import UnicoreTsi.BssSlurm
import UnicoreTsi.Numbers
import UnicoreTsi.StatusListing
import UnicoreTsi.Lib.Words

set_option autoImplicit false

namespace UnicoreTsi.BssSlurm

open UnicoreTsi.Text UnicoreTsi.Effects UnicoreTsi.Utils UnicoreTsi.BssCommon UnicoreTsi.Words UnicoreTsi.KeyedMax

/-! ## Lines -/

/-- What the name of the default partition carries. -/
def star (isDefault : Bool) : Str := if isDefault then ['*'] else []

/-- A line of the partition command: a partition with its number of nodes, or one without exactly two fields. -/
inductive SinfoLine where
  | partition (text name count : Str) (isDefault : Bool) (nodes : ℕ) (oneLine : '\n' ∉ text)
      (fields : words isSpace text = [name ++ star isDefault, count]) (number : pyInt 10 count = .ok nodes)
      (plain : isDefault = false → name.getLast? ≠ some '*')
  | other (text : Str) (oneLine : '\n' ∉ text) (fields : (words isSpace text).length ≠ 2)

/-- A partition, its number of nodes, and whether it is the default. -/
abbrev PartitionEntry := Str × ℕ × Bool

namespace SinfoLine

def text : SinfoLine → Str
  | partition text _ _ _ _ _ _ _ _ => text
  | other text _ _ => text

def entry : SinfoLine → Option PartitionEntry
  | partition _ name _ isDefault nodes _ _ _ _ => some (name, nodes, isDefault)
  | other _ _ _ => none

theorem text_oneLine (l : SinfoLine) : '\n' ∉ l.text := by
  cases l with
  | partition _ _ _ _ _ honeLine => exact honeLine
  | other _ honeLine => exact honeLine

end SinfoLine

/-- The output with these lines. -/
def sinfoText (lines : List SinfoLine) : Str := ['\n'].intercalate (lines.map SinfoLine.text)

/-- The partitions of the lines that have one. -/
def entries (lines : List SinfoLine) : List PartitionEntry := lines.filterMap SinfoLine.entry

/-- The entries of a partition. -/
def entriesOf (name : Str) (es : List PartitionEntry) : List PartitionEntry := es.filter fun e => e.1 = name

/-- What is reported for a partition: the sum over its lines, and whether one of them has the star. -/
def total (es : List PartitionEntry) : Json :=
  partition ((es.map fun e => e.2.1).sum : ℕ) (es.any fun e => e.2.2)

/-- The map has the total of every partition under its name, and nothing else. -/
structure Totals (lines : List SinfoLine) (fields : List (Str × Json)) : Prop where
  once : (fields.map Prod.fst).Nodup
  names : ∀ name, name ∈ fields.map Prod.fst ↔ name ∈ (entries lines).map Prod.fst
  values : ∀ name value, fields.lookup name = some value → value = total (entriesOf name (entries lines))

/-! ## The loop -/

/-- `line.split()` -/
theorem filter_splitSpaces (s : Str) : (splitSpaces s).filter (· ≠ []) = words isSpace s := by
  have hrun : ∀ s, (splitSpacesFrom [] true s).filter (· ≠ []) = words isSpace s ∧
      ∀ current, (∀ c ∈ current, isSpace c = false) →
        (splitSpacesFrom current false s).filter (· ≠ []) = words isSpace (current ++ s) := by
    intro s
    induction s with
    | nil =>
        refine ⟨rfl, fun current hcurrent => ?_⟩
        rw [List.append_nil, splitSpacesFrom]
        by_cases hne : current = []
        · rw [hne]
          rfl
        · rw [words_of_run hne hcurrent]
          simp [hne]
    | cons c s ih =>
        obtain ⟨hspaces, hword⟩ := ih
        rw [splitSpacesFrom]
        by_cases hc : isSpace c = true
        · -- white space ends the word before it
          have hpad : words isSpace (c :: s) = words isSpace s := words_pad (a := [c]) (by simpa using hc) s
          refine ⟨by rw [if_pos hc, if_pos rfl, hspaces, hpad], fun current hcurrent => ?_⟩
          rw [splitSpacesFrom, if_pos hc, if_neg (by simp), words_append_sep hc]
          by_cases hne : current = []
          · rw [hne, words_nil, List.nil_append, ← hspaces]
            rfl
          · rw [words_of_run hne hcurrent, List.filter_cons_of_pos (by simpa using hne), hspaces, List.singleton_append]
        · have hc' : isSpace c = false := (Bool.not_eq_true _).mp hc
          refine ⟨by rw [if_neg hc, List.nil_append, hword [c] (by simpa using hc'), List.singleton_append],
            fun current hcurrent => ?_⟩
          have hlonger : ∀ d ∈ current ++ [c], isSpace d = false := by
            intro d hd
            rcases List.mem_append.mp hd with hd | hd
            · exact hcurrent d hd
            · rw [List.mem_singleton.mp hd]
              exact hc'
          rw [splitSpacesFrom, if_neg hc, hword _ hlonger, List.append_assoc, List.singleton_append]
  exact (hrun s).2 [] nofun

theorem getLast?_star (name : Str) : (name ++ star true).getLast? = some '*' := by simp [star]

theorem dropLast_star (name : Str) : (name ++ star true).dropLast = name := by simp [star]

def typeMismatch : PyExc := typeError "unsupported operand type(s) for +=: 'dict' and 'int'"

/-- One line: a partition is entered once, and cannot be added to. -/
theorem addPartitions_cons (l : SinfoLine) (rest : List Str) (result : List (Str × Json)) :
    addPartitions (l.text :: rest) result =
      match l.entry with
      | none => addPartitions rest result
      | some (name, nodes, isDefault) =>
          if name ∈ result.map Prod.fst then .error typeMismatch
          else addPartitions rest (put name (partition nodes isDefault) result) := by
  cases l with
  | other text _ hfields =>
      show addPartitions (text :: rest) result = addPartitions rest result
      rw [addPartitions, filter_splitSpaces]
      split
      · rename_i name nodes hwords
        rw [hwords] at hfields
        exact absurd rfl hfields
      · rfl
  | partition text name count isDefault nodes _ hfields hnumber hplain =>
      show addPartitions (text :: rest) result =
        if name ∈ result.map Prod.fst then .error typeMismatch
        else addPartitions rest (put name (partition nodes isDefault) result)
      have hdefault : decide ((name ++ star isDefault).getLast? = some '*') = isDefault := by
        cases isDefault with
        | true => rw [getLast?_star, decide_eq_true rfl]
        | false =>
            have hnone : name ++ star false = name := List.append_nil name
            rw [hnone, decide_eq_false (hplain rfl)]
      have hname : (if (name ++ star isDefault).getLast? = some '*' then (name ++ star isDefault).dropLast
          else name ++ star isDefault) = name := by
        cases isDefault with
        | true => rw [if_pos (getLast?_star name), dropLast_star]
        | false =>
            have hnone : name ++ star false = name := List.append_nil name
            rw [hnone, if_neg (hplain rfl)]
      rw [addPartitions, filter_splitSpaces, hfields]
      simp only [hdefault, hname, hnumber, ok_bind, putField_eq_put]
      cases hlookup : result.lookup name with
      | none =>
          have hnew : name ∉ result.map Prod.fst := by rw [mem_keys_iff_lookup, hlookup]; simp
          rw [if_neg hnew]
      | some value =>
          have hold : name ∈ result.map Prod.fst := by rw [mem_keys_iff_lookup, hlookup]; rfl
          rw [if_pos hold]
          rfl

/-- The entry of a partition with a single line. -/
def reported (e : PartitionEntry) : Str × Json := (e.1, partition e.2.1 e.2.2)

theorem reported_keys (es : List PartitionEntry) : (es.map reported).map Prod.fst = es.map Prod.fst := by
  rw [List.map_map]
  rfl

/-- The loop enters the partitions in order, and stops at the first one it has already. -/
theorem addPartitions_eq (lines : List SinfoLine) {result : List (Str × Json)} (h : (result.map Prod.fst).Nodup) :
    addPartitions (lines.map SinfoLine.text) result =
      if (result.map Prod.fst ++ (entries lines).map Prod.fst).Nodup then
        .ok (result ++ (entries lines).map reported)
      else .error typeMismatch := by
  induction lines generalizing result with
  | nil =>
      rw [if_pos (by simpa [entries] using h)]
      simp [entries, addPartitions]
  | cons l lines ih =>
      rw [List.map_cons, addPartitions_cons]
      cases hentry : l.entry with
      | none =>
          have hsame : entries (l :: lines) = entries lines := List.filterMap_cons_none hentry
          rw [hsame]
          exact ih h
      | some e =>
          obtain ⟨name, nodes, isDefault⟩ := e
          have hcons : entries (l :: lines) = (name, nodes, isDefault) :: entries lines :=
            List.filterMap_cons_some hentry
          rw [hcons]
          show (if name ∈ result.map Prod.fst then _ else _) = _
          by_cases hold : name ∈ result.map Prod.fst
          · rw [if_pos hold, if_neg]
            intro hnodup
            exact (List.nodup_append.mp hnodup).2.2 name hold name List.mem_cons_self rfl
          · rw [if_neg hold, ih (put_nodup h name _), put_of_not_mem hold, List.map_append, List.append_assoc,
              List.append_assoc]
            rfl

/-! ## Totals -/

/-- A partition with one line has that line's entry only. -/
theorem entriesOf_eq {es : List PartitionEntry} (h : (es.map Prod.fst).Nodup) {e : PartitionEntry} (he : e ∈ es) :
    entriesOf e.1 es = [e] := by
  induction es with
  | nil => cases he
  | cons e' es ih =>
      rw [List.map_cons, List.nodup_cons] at h
      rcases List.mem_cons.mp he with rfl | he
      · rw [entriesOf, List.filter_cons_of_pos (by simp), List.filter_eq_nil_iff.mpr]
        intro e' he' heq
        exact h.1 (List.mem_map.mpr ⟨e', he', of_decide_eq_true heq⟩)
      · have hne : e'.1 ≠ e.1 := fun heq => h.1 (heq ▸ List.mem_map.mpr ⟨e, he, rfl⟩)
        rw [entriesOf, List.filter_cons_of_neg (by simpa using hne)]
        exact ih h.2 he

theorem total_singleton (e : PartitionEntry) : total [e] = partition e.2.1 e.2.2 := by simp [total]

theorem totals_reported {lines : List SinfoLine} (h : ((entries lines).map Prod.fst).Nodup) :
    Totals lines ((entries lines).map reported) where
  once := by rwa [reported_keys]
  names name := by rw [reported_keys]
  values name value hvalue := by
    obtain ⟨e, he, heq⟩ := List.mem_map.mp (mem_of_lookup hvalue)
    cases heq
    rw [entriesOf_eq h he, total_singleton]

/-- **Totals of the partitions.**  The lines are read, and every partition is reported with its total, if and only
if no partition has two lines. -/
theorem partition_totals_iff (lines : List SinfoLine) :
    (∃ fields, parsePartitions (sinfoText lines) = .ok (.obj fields) ∧ Totals lines fields) ↔
      ((entries lines).map Prod.fst).Nodup := by
  have hsplit : addPartitions (splitAll '\n' (sinfoText lines)) [] = addPartitions (lines.map SinfoLine.text) [] := by
    cases lines with
    | nil => rfl
    | cons l lines =>
        rw [splitAll, sinfoText, List.splitOn_intercalate _ _ (by simp)]
        intro text htext
        obtain ⟨line, -, rfl⟩ := List.mem_map.mp htext
        exact line.text_oneLine
  have hempty : (([] : List (Str × Json)).map Prod.fst).Nodup := List.nodup_nil
  have hrun := addPartitions_eq lines hempty
  rw [List.map_nil, List.nil_append, List.nil_append] at hrun
  rw [parsePartitions, hsplit, hrun]
  constructor
  · rintro ⟨fields, hparse, -⟩
    by_contra hdouble
    rw [if_neg hdouble] at hparse
    cases hparse
  · intro hnodup
    rw [if_pos hnodup]
    exact ⟨_, rfl, totals_reported hnodup⟩

/-- A partition with two kinds of nodes has two lines. -/
theorem repeated_partition_raises :
    ¬∀ lines : List SinfoLine, ∃ fields, parsePartitions (sinfoText lines) = .ok (.obj fields) ∧ Totals lines fields := by
  intro h
  obtain ⟨fields, hparse, -⟩ := h
    [.partition "batch* 3".toList "batch".toList (natText 3) true 3 (by decide) (by decide +kernel) (pyInt_natText 3) nofun,
      .partition "batch* 2".toList "batch".toList (natText 2) true 2 (by decide) (by decide +kernel) (pyInt_natText 2) nofun]
  have herror : parsePartitions "batch* 3\nbatch* 2".toList = .error typeMismatch := by rfl
  cases herror.symm.trans hparse

end UnicoreTsi.BssSlurm
