/-
# UnicoreTsi.Parameters — which line of a message passes a parameter.

`extractParameter` searches the whole message with a pattern that is anchored at the start of a line.  What
it finds is the rest of the first complete line that starts with the parameter's tag
(`extractParameter_eq`), and a line with nothing after the tag counts as if the parameter were not given.
-/
import UnicoreTsi.Utils

set_option autoImplicit false

namespace UnicoreTsi.Utils

open UnicoreTsi.Text UnicoreTsi.Regex

/-- What stands on a line before the value of the parameter. -/
def parameterTag (parameter : Str) : Str := "#TSI_".toList ++ parameter ++ " ".toList

/-- What a line passes as the value of the parameter. -/
def lineValue (parameter l : Str) : Option Str :=
  if (parameterTag parameter).isPrefixOf l then some (l.drop (parameterTag parameter).length) else none

/-- What the first line that has the parameter's tag passes. -/
def givenValue (message parameter : Str) : Option Str :=
  (completeLines message).findSome? (lineValue parameter)

theorem lineValue_eq_some {parameter l v : Str} :
    lineValue parameter l = some v ↔ l = parameterTag parameter ++ v := by
  unfold lineValue
  constructor
  · intro h
    split at h
    · rename_i hprefix
      obtain ⟨w, rfl⟩ := List.isPrefixOf_iff_prefix.mp hprefix
      rw [List.drop_left, Option.some.injEq] at h
      rw [h]
    · cases h
  · rintro rfl
    rw [if_pos (List.isPrefixOf_iff_prefix.mpr (List.prefix_append _ _)), List.drop_left]

/-- A line passes a value for one parameter only. -/
theorem lineValue_other {parameter other : Str} (hparameter : ' ' ∉ parameter) (hother : ' ' ∉ other)
    (h : other ≠ parameter) (value : Str) : lineValue other (parameterTag parameter ++ value) = none := by
  cases hvalue : lineValue other (parameterTag parameter ++ value) with
  | none => rfl
  | some v =>
      have hline := lineValue_eq_some.mp hvalue
      rw [parameterTag, parameterTag] at hline
      simp only [List.append_assoc] at hline
      have hnames := append_cons_inj hparameter hother (List.append_cancel_left hline)
      exact absurd hnames.1.symm h

/-- The lines of parameters with their values. -/
def parameterLines (ps : List (Str × Str)) : List Str := ps.map fun p => parameterTag p.1 ++ p.2

theorem findSome?_parameterLines {ps : List (Str × Str)} (hnames : ∀ p ∈ ps, ' ' ∉ p.1) {parameter : Str}
    (hparameter : ' ' ∉ parameter) : (parameterLines ps).findSome? (lineValue parameter) = ps.lookup parameter := by
  induction ps with
  | nil => rfl
  | cons p ps ih =>
      have hrest := ih fun q hq => hnames q (List.mem_cons_of_mem p hq)
      rw [parameterLines, List.map_cons, List.findSome?_cons, List.lookup_cons]
      by_cases h : parameter = p.1
      · rw [h, lineValue_eq_some.mpr rfl, beq_self_eq_true]
      · rw [lineValue_other (hnames p List.mem_cons_self) hparameter h, beq_eq_false_iff_ne.mpr h]
        exact hrest

/-- The symbol before a position at which a line starts. -/
def AtLineStart (prev : Option Char) : Prop := prev = none ∨ prev = some '\n'

section Search

variable {parameter : Str}

/-- Where the pattern matches at the start of a line, its fourth piece is what the line passes. -/
theorem lineValue_of_match {prev : Option Char} {l rest : Str} {ps : List Str} (hl : '\n' ∉ l)
    (hparameter : '\n' ∉ parameter)
    (h : matchItems (parameterItems parameter) prev (l ++ '\n' :: rest) = some ps) :
    ∃ before start tag value newline after, ps = [before, start, tag, value, newline, after] ∧
      lineValue parameter l = some value := by
  obtain ⟨hfit, hflat⟩ := matchItems_sound h
  match ps, hfit, hflat with
  | [before, start, tag, value, newline, after],
    ⟨⟨hbefore, _, _⟩, ⟨hstart, hlook⟩, htag, ⟨hvalue, _, _⟩, hnewline, _, _⟩, hflat =>
    obtain rfl : start = [] := hstart
    obtain rfl : tag = parameterTag parameter := htag
    obtain rfl : newline = "\n".toList := hnewline
    refine ⟨before, [], parameterTag parameter, value, "\n".toList, after, rfl, ?_⟩
    -- what is before the anchor ends with a newline or is empty, and it has no newline in it
    have hempty : before = [] := by
      rcases List.eq_nil_or_concat before with hnil | ⟨front, c, rfl⟩
      · exact hnil
      · have hc : c ≠ '\n' := by
          have hmem := hbefore c (by simp)
          simpa using hmem
        have hlast : lastOr prev (front ++ [c]) = some c := by simp [lastOr]
        rw [List.concat_eq_append, hlast] at hlook
        simp [hc] at hlook
    subst hempty
    have hvalue' : '\n' ∉ value := fun hmem => absurd (hvalue '\n' hmem) (by decide)
    have hline : '\n' ∉ parameterTag parameter ++ value := by
      simp [parameterTag, hparameter, hvalue']
    have hprefix : (parameterTag parameter ++ value) ++ '\n' :: after <+: l ++ '\n' :: rest := by
      simpa using hflat
    exact lineValue_eq_some.mpr (eq_of_prefix_line hline hl hprefix).symm

/-- Where a line passes a value, the pattern matches at its start. -/
theorem match_of_lineValue {prev : Option Char} {l value : Str} (rest : Str) (hprev : AtLineStart prev)
    (hl : '\n' ∉ l) (h : lineValue parameter l = some value) :
    (matchItems (parameterItems parameter) prev (l ++ '\n' :: rest)).isSome := by
  obtain rfl := lineValue_eq_some.mp h
  have hvalue : ∀ c ∈ value, decide (c ≠ '\n') = true := by
    intro c hc
    simp only [decide_eq_true_eq]
    rintro rfl
    exact hl (List.mem_append_right _ hc)
  have hstart : decide (prev = none ∨ prev = some '\n') = true := decide_eq_true hprev
  have hfit : Fits (parameterItems parameter) prev
      [[], [], parameterTag parameter, value, "\n".toList, []] :=
    ⟨⟨by simp, by simp, by simp⟩, ⟨rfl, hstart⟩, rfl, ⟨hvalue, by simp, by simp⟩, rfl,
      ⟨by simp, by simp, by simp⟩, rfl⟩
  apply matchItems_complete hfit
  simp

/-- The search finds the first line that passes a value. -/
theorem search_parameter (hparameter : '\n' ∉ parameter) {prev : Option Char} (hprev : AtLineStart prev)
    (m : Str) :
    (∀ ps, search (parameterItems parameter) prev m = some ps →
      ∃ before start tag value newline after, ps = [before, start, tag, value, newline, after] ∧
        givenValue m parameter = some value) ∧
    (search (parameterItems parameter) prev m = none → givenValue m parameter = none) := by
  unfold givenValue
  induction m using lineInduction generalizing prev with
  | tail t ht =>
      have hsearch : search (parameterItems parameter) prev t =
          matchItems (parameterItems parameter) prev t := search_tail _ '\n' prev ht
      rw [completeLines_of_not_mem ht, hsearch]
      constructor
      · -- the pattern needs a newline, and there is none
        intro ps h
        obtain ⟨hfit, hflat⟩ := matchItems_sound h
        match ps, hfit, hflat with
        | [before, start, tag, value, newline, after], ⟨_, _, _, _, hnewline, _⟩, hflat =>
          obtain rfl : newline = "\n".toList := hnewline
          exact absurd (hflat.subset (by simp : '\n' ∈ _)) ht
      · exact fun _ => rfl
  | line l rest hl ih =>
      have hsearch : search (parameterItems parameter) prev (l ++ '\n' :: rest) =
          (matchItems (parameterItems parameter) prev (l ++ '\n' :: rest)).or
            (search (parameterItems parameter) (some '\n') rest) := search_line _ '\n' prev hl rest
      rw [completeLines_line hl, hsearch, List.findSome?_cons]
      cases hm : matchItems (parameterItems parameter) prev (l ++ '\n' :: rest) with
      | some qs =>
          refine ⟨?_, by simp⟩
          rintro ps h
          obtain rfl : qs = ps := by simpa using h
          obtain ⟨before, start, tag, value, newline, after, hqs, hline⟩ :=
            lineValue_of_match hl hparameter hm
          exact ⟨before, start, tag, value, newline, after, hqs, by rw [hline]⟩
      | none =>
          have hline : lineValue parameter l = none := by
            cases hvalue : lineValue parameter l with
            | none => rfl
            | some value =>
                have hsome := match_of_lineValue rest hprev hl hvalue
                rw [hm] at hsome
                cases hsome
          rw [Option.none_or, hline]
          exact ih (Or.inr rfl)

end Search

/-- A parameter is what the first line with its tag passes, unless that is nothing. -/
theorem extractParameter_eq {parameter : Str} (hparameter : '\n' ∉ parameter) (m : Str)
    (defaultValue : Option Str) :
    extractParameter m parameter defaultValue =
      match givenValue m parameter with
      | some v => if v = [] then defaultValue else some v
      | none => defaultValue := by
  obtain ⟨hfound, hmissing⟩ := search_parameter hparameter (Or.inl rfl) m
  unfold extractParameter
  cases hsearch : search (parameterItems parameter) none m with
  | none => rw [hmissing hsearch]
  | some ps =>
      obtain ⟨before, start, tag, value, newline, after, rfl, hvalue⟩ := hfound ps hsearch
      rw [hvalue]

theorem extractParameter_of_given {m parameter v : Str} {d : Option Str}
    (hparameter : '\n' ∉ parameter) (h : givenValue m parameter = some v) (hv : v ≠ []) :
    extractParameter m parameter d = some v := by
  rw [extractParameter_eq hparameter, h]
  exact if_neg hv

/-! ## Reading back -/

/-- The characters of the name of a parameter: capital letters, digits and the underscore. -/
def isNameChar (c : Char) : Bool := c.isUpper || c.isDigit || c = '_'

/-- A line as UNICORE/X writes it: a parameter with its value, or any other line. -/
inductive MessageLine where
  | parameter (name value : Str) (name_chars : ∀ c ∈ name, isNameChar c = true) (value_oneLine : '\n' ∉ value)
  | other (text : Str) (text_oneLine : '\n' ∉ text) (untagged : ¬"#TSI_".toList <+: text)

namespace MessageLine

def text : MessageLine → Str
  | parameter name value _ _ => parameterTag name ++ value
  | other text _ _ => text

/-- The value, on a line for the parameter of this name. -/
def valueFor (name : Str) : MessageLine → Option Str
  | parameter name' value _ _ => if name' = name then some value else none
  | other _ _ _ => none

end MessageLine

section ReadingBack

variable {name : Str}

theorem not_mem_name {c : Char} (hc : isNameChar c = false) (hname : ∀ c ∈ name, isNameChar c = true) : c ∉ name := by
  intro hmem
  rw [hname c hmem] at hc
  cases hc

theorem MessageLine.text_oneLine (l : MessageLine) : '\n' ∉ l.text := by
  cases l with
  | parameter name value hname hvalue =>
      have hnewline : '\n' ∉ name := not_mem_name (by decide) hname
      simp [text, parameterTag, hnewline, hvalue]
  | other text htext _ => exact htext

theorem MessageLine.lineValue_text (hname : ∀ c ∈ name, isNameChar c = true) (l : MessageLine) :
    lineValue name l.text = l.valueFor name := by
  cases l with
  | parameter name' value hname' _ =>
      show lineValue name (parameterTag name' ++ value) = if name' = name then some value else none
      by_cases h : name' = name
      · rw [if_pos h, h]
        exact lineValue_eq_some.mpr rfl
      · rw [if_neg h]
        -- a blank ends each of the two names, so neither tag can go on where the other stops
        exact lineValue_other (not_mem_name (by decide) hname') (not_mem_name (by decide) hname) (Ne.symm h) value
  | other text _ huntagged =>
      show lineValue name text = none
      rw [lineValue, if_neg]
      intro hprefix
      apply huntagged
      have htag : "#TSI_".toList <+: parameterTag name := by
        rw [parameterTag, List.append_assoc]
        exact List.prefix_append _ _
      exact htag.trans (List.isPrefixOf_iff_prefix.mp hprefix)

theorem givenValue_message (hname : ∀ c ∈ name, isNameChar c = true) (lines : List MessageLine) :
    givenValue (unlines (lines.map MessageLine.text)) name = lines.findSome? (·.valueFor name) := by
  have honeLine : ∀ l ∈ lines.map MessageLine.text, '\n' ∉ l := by
    intro l hl
    obtain ⟨line, -, rfl⟩ := List.mem_map.mp hl
    exact line.text_oneLine
  rw [givenValue, completeLines_unlines honeLine, List.findSome?_map]
  congr 1
  funext line
  exact line.lineValue_text hname

/-- **Parameters read back.**  A parameter is the value on the first line for its name, and the default if there
is no such line or nothing on it. -/
theorem parameters_read_back (hname : ∀ c ∈ name, isNameChar c = true) (lines : List MessageLine)
    (defaultValue : Option Str) :
    extractParameter (unlines (lines.map MessageLine.text)) name defaultValue =
      match lines.findSome? (·.valueFor name) with
      | some value => if value = [] then defaultValue else some value
      | none => defaultValue := by
  rw [extractParameter_eq (not_mem_name (by decide) hname), givenValue_message hname]

end ReadingBack

/-- A name that is a prefix of another, a value that looks like a parameter, and a second line for a name. -/
theorem parameters_read_back_file :
    extractParameter (unlines ([.other "#!/bin/sh".toList (by decide) (by decide),
        .parameter "FILESACTION".toList "#TSI_FILE x".toList (by decide) (by decide),
        .parameter "FILE".toList "/tmp/a b".toList (by decide) (by decide),
        .parameter "FILE".toList [] (by decide) (by decide)].map MessageLine.text)) "FILE".toList none =
      some "/tmp/a b".toList :=
  parameters_read_back (by decide) _ none

end UnicoreTsi.Utils
