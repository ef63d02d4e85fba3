/-
# UnicoreTsi.JobDetails — the attributes in the output of `qstat -f`.

`qstat -f` prints an attribute on a line of its own and breaks a long value into further lines that start
with a tab.  `parse_job_details` first puts the broken lines together again and then reads `key = value` from
every line it has got.  It remembers the line a continuation belongs to only if the attribute before it was
not broken itself (`foldl_lines`), so of two broken attributes in a row the second is cut at its first break
(`parse_job_details_iff`).
-/
import UnicoreTsi.BssTorque
import UnicoreTsi.StatusListing

set_option autoImplicit false

namespace UnicoreTsi.BssTorque

open UnicoreTsi.Text UnicoreTsi.Utils UnicoreTsi.BssCommon UnicoreTsi.KeyedMax

/-! ## Lines -/

/-- A text that `splitlines` leaves in one piece. -/
def OneLine (s : Str) : Prop := ∀ c ∈ s, isLineBoundary c = false

instance (s : Str) : Decidable (OneLine s) := inferInstanceAs (Decidable (∀ c ∈ s, isLineBoundary c = false))

theorem splitlinesFrom_cons (current : Str) {c : Char} (hc : c ≠ '\r') (cs : Str) :
    splitlinesFrom current (c :: cs) =
      if isLineBoundary c then current :: splitlinesFrom [] cs else splitlinesFrom (current ++ [c]) cs :=
  splitlinesFrom.eq_3 current c cs fun _ hreturn _ => hc hreturn

theorem splitlinesFrom_line {l : Str} (hl : OneLine l) (current rest : Str) :
    splitlinesFrom current (l ++ '\n' :: rest) = (current ++ l) :: splitlinesFrom [] rest := by
  induction l generalizing current with
  | nil =>
      rw [List.nil_append, List.append_nil, splitlinesFrom_cons current (by decide), if_pos (by decide)]
  | cons c l ih =>
      obtain ⟨hc, hl⟩ := List.forall_mem_cons.mp hl
      have hreturn : c ≠ '\r' := by
        rintro rfl
        exact absurd hc (by decide)
      rw [List.cons_append, splitlinesFrom_cons current hreturn, hc, if_neg Bool.false_ne_true, ih hl,
        List.append_assoc, List.singleton_append]

theorem splitlines_unlines {ls : List Str} (h : ∀ l ∈ ls, OneLine l) : splitlines (unlines ls) = ls := by
  induction ls with
  | nil => rfl
  | cons l ls ih =>
      obtain ⟨hl, hls⟩ := List.forall_mem_cons.mp h
      have hrest := ih hls
      rw [splitlines] at hrest ⊢
      rw [unlines_cons, splitlinesFrom_line hl, hrest, List.nil_append]

theorem splitlinesFrom_oneLine (current s : Str) (hcurrent : OneLine current) :
    ∀ l ∈ splitlinesFrom current s, OneLine l := by
  fun_induction splitlinesFrom current s with
  | case1 => simp
  | case2 current hne =>
      intro l hl
      rw [List.mem_singleton.mp hl]
      exact hcurrent
  | case3 current cs ih => exact List.forall_mem_cons.mpr ⟨hcurrent, ih (by simp [OneLine])⟩
  | case4 current c cs hreturn hboundary ih => exact List.forall_mem_cons.mpr ⟨hcurrent, ih (by simp [OneLine])⟩
  | case5 current c cs hreturn hboundary ih =>
      apply ih
      intro d hd
      rcases List.mem_append.mp hd with hd | hd
      · exact hcurrent d hd
      · rw [List.mem_singleton.mp hd]
        exact (Bool.not_eq_true _).mp hboundary

theorem splitlines_oneLine (s : Str) : ∀ l ∈ splitlines s, OneLine l :=
  splitlinesFrom_oneLine [] s (by simp [OneLine])

/-! ## Attributes -/

/-- Neither end of a line break in a value is white space. -/
def CleanBreak (p q : Str) : Prop := (∀ c ∈ p.getLast?, isSpace c = false) ∧ ∀ c ∈ q.head?, isSpace c = false

/-- An attribute as `qstat -f` prints it: a value that is not empty is broken into pieces. -/
structure Attribute where
  key : Str
  pieces : List Str
  key_newline : '\n' ∉ key
  key_equals : '=' ∉ key
  key_stripped : strip key = key
  pieces_ne : ∀ p ∈ pieces, p ≠ []
  pieces_newline : ∀ p ∈ pieces, '\n' ∉ p
  breaks : pieces.IsChain CleanBreak

namespace Attribute

def value (a : Attribute) : Str := a.pieces.flatten

/-- What stands on the line of the key. -/
def start (a : Attribute) : Str := a.pieces.headD []

/-- What stands on the lines after it. -/
def rest (a : Attribute) : List Str := a.pieces.tail

theorem start_append_rest (a : Attribute) : a.start ++ a.rest.flatten = a.value := by
  rw [start, rest, value]
  cases a.pieces <;> rfl

/-- The value takes more than one line. -/
def Broken (a : Attribute) : Prop := a.rest ≠ []

instance (a : Attribute) : Decidable a.Broken := inferInstanceAs (Decidable (a.rest ≠ []))

def first (a : Attribute) : Str := "    ".toList ++ a.key ++ " = ".toList ++ a.start

def lines (a : Attribute) : List Str := a.first :: a.rest.map ('\t' :: ·)

/-- A value and a key that come back as they are: no white space around the value, and no line boundary other
than the newline in either. -/
def Plain (a : Attribute) : Prop := strip a.value = a.value ∧ OneLine a.key ∧ OneLine a.value

end Attribute

/-- The output of `qstat -f`. -/
def printed (attributes : List Attribute) : Str := unlines (attributes.flatMap Attribute.lines)

/-- The map from each key to its value. -/
def expected (attributes : List Attribute) : List (Str × Json) :=
  attributes.map fun a => (a.key, Json.str a.value)

/-! ## The merging loop -/

/-- The merged lines once the line that is being continued has been added. -/
def flushed (state : Merging) : List Str :=
  if state.multi then state.merged ++ [state.last] else state.merged

theorem mergeLine_tab (state : Merging) (p : Str) :
    mergeLine state ('\t' :: p) = { state with multi := true, last := state.last ++ strip p } := by
  have htab : strip ('\t' :: p) = strip p := strip_blank_append (b := ['\t']) (by decide) p
  rw [mergeLine, if_pos (by simp [List.isPrefixOf]), htab]

theorem mergeLine_first (state : Merging) {line : Str} (hline : line.head? ≠ some '\t') :
    mergeLine state line =
      { multi := false, last := (if state.multi then [] else line), merged := flushed state ++ [line] } := by
  have htab : "\t".toList.isPrefixOf line = false := by
    cases line with
    | nil => rfl
    | cons c cs =>
        have hc : '\t' ≠ c := fun h => hline (by rw [← h]; rfl)
        simp [List.isPrefixOf, hc]
  rw [mergeLine, htab, if_neg Bool.false_ne_true, flushed]
  cases hmulti : state.multi <;> simp

theorem foldl_mergeLine_tabs (pieces : List Str) (state : Merging) (hpieces : pieces ≠ []) :
    (pieces.map ('\t' :: ·)).foldl mergeLine state =
      { state with multi := true, last := state.last ++ (pieces.map strip).flatten } := by
  induction pieces generalizing state with
  | nil => exact absurd rfl hpieces
  | cons p pieces ih =>
      rw [List.map_cons, List.foldl_cons, mergeLine_tab]
      cases pieces with
      | nil => simp
      | cons q pieces =>
          rw [ih _ (List.cons_ne_nil q pieces)]
          simp [List.append_assoc]

/-- The lines an attribute is merged to.  After a broken attribute the line of the key has been forgotten when
the value is continued. -/
def Attribute.merged (afterBroken : Bool) (a : Attribute) : List Str :=
  if a.Broken then [a.first, (if afterBroken then [] else a.first) ++ (a.rest.map strip).flatten] else [a.first]

theorem Attribute.first_head (a : Attribute) : a.first.head? ≠ some '\t' := by
  show some ' ' ≠ some '\t'
  decide

/-- One attribute. -/
theorem foldl_lines (a : Attribute) (state : Merging) :
    (a.lines.foldl mergeLine state).multi = decide a.Broken ∧
      flushed (a.lines.foldl mergeLine state) = flushed state ++ a.merged state.multi := by
  rw [Attribute.lines, List.foldl_cons, mergeLine_first state a.first_head, Attribute.merged]
  by_cases hbroken : a.Broken
  · rw [foldl_mergeLine_tabs a.rest _ hbroken, if_pos hbroken]
    refine ⟨(decide_eq_true hbroken).symm, ?_⟩
    rw [flushed]
    simp
  · have hrest : a.rest = [] := not_not.mp hbroken
    rw [hrest, if_neg hbroken]
    refine ⟨(decide_eq_false hbroken).symm, ?_⟩
    rw [flushed]
    simp

/-- The lines all attributes are merged to. -/
def mergedFrom : Bool → List Attribute → List Str
  | _, [] => []
  | afterBroken, a :: attributes => a.merged afterBroken ++ mergedFrom (decide a.Broken) attributes

theorem foldl_flatMap_lines (attributes : List Attribute) (state : Merging) :
    flushed ((attributes.flatMap Attribute.lines).foldl mergeLine state) =
      flushed state ++ mergedFrom state.multi attributes := by
  induction attributes generalizing state with
  | nil => simp [mergedFrom]
  | cons a attributes ih =>
      obtain ⟨hmulti, hflushed⟩ := foldl_lines a state
      rw [List.flatMap_cons, List.foldl_append, ih, hmulti, hflushed, mergedFrom, List.append_assoc]

theorem Attribute.lines_oneLine {a : Attribute} (h : a.Plain) : ∀ l ∈ a.lines, OneLine l := by
  obtain ⟨-, hkey, hvalue⟩ := h
  rw [← a.start_append_rest] at hvalue
  have hstart : OneLine a.start := fun c hc => hvalue c (List.mem_append_left _ hc)
  have hrest : ∀ p ∈ a.rest, OneLine p := fun p hp c hc =>
    hvalue c (List.mem_append_right _ (List.mem_flatten_of_mem hp hc))
  have hindent : OneLine "    ".toList := by decide
  have hequals : OneLine " = ".toList := by decide
  rw [Attribute.lines, List.forall_mem_cons]
  constructor
  · intro c hc
    simp only [Attribute.first, List.mem_append] at hc
    rcases hc with ((hc | hc) | hc) | hc
    · exact hindent c hc
    · exact hkey c hc
    · exact hequals c hc
    · exact hstart c hc
  · intro l hl
    obtain ⟨p, hp, rfl⟩ := List.mem_map.mp hl
    exact List.forall_mem_cons.mpr ⟨by decide, hrest p hp⟩

theorem mergedLines_printed {attributes : List Attribute} (h : ∀ a ∈ attributes, a.Plain) :
    mergedLines (printed attributes) = mergedFrom false attributes ++ ["_end_\n".toList] := by
  have hlines : ∀ l ∈ attributes.flatMap Attribute.lines, OneLine l := by
    intro l hl
    obtain ⟨a, ha, hl⟩ := List.mem_flatMap.mp hl
    exact Attribute.lines_oneLine (h a ha) l hl
  have hflushed := foldl_flatMap_lines attributes { multi := false, last := [], merged := [] }
  rw [mergedLines, printed, splitlines_unlines hlines, List.foldl_append, List.foldl_cons, List.foldl_nil,
    mergeLine_first _ (by decide)]
  exact congrArg (· ++ ["_end_\n".toList]) hflushed

/-! ## Reading the merged lines -/

/-- One merged line: the text before the first `=` is the key, and a line without one is ignored. -/
def storeLine (fields : List (Str × Json)) (line : Str) : List (Str × Json) :=
  match splitOnce '=' line with
  | some (k, v) => put (strip k) (.str (strip v)) fields
  | none => fields

theorem parseJobDetails_eq (rawInfo : Str) :
    parseJobDetails rawInfo = .obj ((mergedLines rawInfo).foldl storeLine []) := by
  have hstore : (fun (fields : List (Str × Json)) line => match splitOnce '=' line with
      | some (k, v) => putField (strip k) (.str (strip v)) fields
      | none => fields) = storeLine := by
    funext fields line
    rw [storeLine]
    cases splitOnce '=' line with
    | none => rfl
    | some p => exact putField_eq_put _ _ _
  exact congrArg (fun store => Json.obj ((mergedLines rawInfo).foldl store [])) hstore

theorem storeLine_end (fields : List (Str × Json)) : storeLine fields "_end_\n".toList = fields := by
  rw [storeLine, splitOnce_eq_none.mpr (by decide)]

theorem storeLine_attribute (a : Attribute) (text : Str) (fields : List (Str × Json)) :
    storeLine fields ("    ".toList ++ a.key ++ " = ".toList ++ text) =
      put a.key (.str (strip text)) fields := by
  have hline : "    ".toList ++ a.key ++ " = ".toList ++ text =
      ("    ".toList ++ a.key ++ " ".toList) ++ '=' :: (" ".toList ++ text) := by simp
  have hequals : '=' ∉ "    ".toList ++ a.key ++ " ".toList := by
    simp only [List.mem_append, not_or]
    exact ⟨⟨by decide, a.key_equals⟩, by decide⟩
  have hkey : strip ("    ".toList ++ a.key ++ " ".toList) = a.key := by
    rw [strip_append_blank _ (by decide), strip_blank_append (by decide), a.key_stripped]
  have htext : strip (" ".toList ++ text) = strip text := strip_blank_append (by decide) text
  rw [storeLine, hline, splitOnce_append hequals]
  dsimp only
  rw [hkey, htext]

/-- The pieces on lines of their own come back as they are. -/
theorem strip_pieces {p : Str} {pieces : List Str} (hne : ∀ q ∈ pieces, q ≠ [])
    (hbreaks : (p :: pieces).IsChain CleanBreak)
    (hlast : ∀ c ∈ (p :: pieces).flatten.getLast?, isSpace c = false) : ∀ q ∈ pieces, strip q = q := by
  induction pieces generalizing p with
  | nil => simp
  | cons q pieces ih =>
      obtain ⟨hq, hne⟩ := List.forall_mem_cons.mp hne
      obtain ⟨⟨-, hhead⟩, hrest⟩ := List.isChain_cons_cons.mp hbreaks
      have hflat : (q :: pieces).flatten ≠ [] := by
        rw [List.flatten_cons]
        exact List.append_ne_nil_of_left_ne_nil hq _
      have hlast' : ∀ c ∈ (q :: pieces).flatten.getLast?, isSpace c = false := by
        rw [List.flatten_cons, List.getLast?_append_of_ne_nil _ hflat] at hlast
        exact hlast
      refine List.forall_mem_cons.mpr ⟨strip_eq_self.mpr ⟨hhead, ?_⟩, ih hne hrest hlast'⟩
      cases pieces with
      | nil => simpa using hlast'
      | cons q' pieces => exact (List.isChain_cons_cons.mp hrest).1.1

theorem Attribute.strip_rest {a : Attribute} (h : strip a.value = a.value) : a.rest.map strip = a.rest := by
  have hstripped : ∀ q ∈ a.rest, strip q = q := by
    obtain ⟨-, hlast⟩ := strip_eq_self.mp h
    have hne := a.pieces_ne
    have hbreaks := a.breaks
    rw [Attribute.value] at hlast
    rw [Attribute.rest]
    revert hne hbreaks hlast
    cases a.pieces with
    | nil => simp
    | cons p pieces => exact fun hlast hne hbreaks => strip_pieces (List.forall_mem_cons.mp hne).2 hbreaks hlast
  calc a.rest.map strip = a.rest.map id := List.map_congr_left hstripped
    _ = a.rest := List.map_id _

/-- An attribute that is not cut is stored with its whole value. -/
theorem foldl_merged {a : Attribute} {afterBroken : Bool} (h : strip a.value = a.value)
    (hapart : ¬(afterBroken = true ∧ a.Broken)) (fields : List (Str × Json)) :
    (a.merged afterBroken).foldl storeLine fields = put a.key (.str a.value) fields := by
  rw [Attribute.merged]
  by_cases hbroken : a.Broken
  · have hafter : ¬afterBroken = true := fun h => hapart ⟨h, hbroken⟩
    rw [if_pos hbroken, if_neg hafter, List.foldl_cons, List.foldl_cons, List.foldl_nil, a.strip_rest h,
      Attribute.first, storeLine_attribute, List.append_assoc _ a.start, a.start_append_rest,
      storeLine_attribute, put_put, h]
  · have hvalue : a.start = a.value := by
      rw [← a.start_append_rest, not_not.mp hbroken, List.flatten_nil, List.append_nil]
    rw [if_neg hbroken, List.foldl_cons, List.foldl_nil, Attribute.first, storeLine_attribute, hvalue, h]

theorem length_flatten_strip_le (pieces : List Str) :
    (pieces.map strip).flatten.length ≤ pieces.flatten.length := by
  induction pieces with
  | nil => exact Nat.le_refl 0
  | cons p pieces ih =>
      have hp := (strip_sublist p).length_le
      rw [List.map_cons, List.flatten_cons, List.flatten_cons, List.length_append, List.length_append]
      omega

/-- One that is cut is stored with a shorter one. -/
theorem foldl_merged_cut {a : Attribute} (hbroken : a.Broken) (fields : List (Str × Json)) :
    ∃ text, ((a.merged true).foldl storeLine fields).lookup a.key = some (.str text) ∧
      text.length < a.value.length := by
  have hlength : a.value.length = a.start.length + a.rest.flatten.length := by
    rw [← a.start_append_rest, List.length_append]
  have hrest : 0 < a.rest.flatten.length := by
    obtain ⟨p, hp⟩ := List.exists_mem_of_ne_nil a.rest hbroken
    have hne : p ≠ [] := a.pieces_ne p (List.mem_of_mem_tail hp)
    exact (List.length_pos_iff.mpr hne).trans_le (List.sublist_flatten_of_mem hp).length_le
  have hstart := (strip_sublist a.start).length_le
  have hfirst : (storeLine fields a.first).lookup a.key = some (.str (strip a.start)) := by
    rw [Attribute.first, storeLine_attribute, lookup_put, if_pos rfl]
  rw [Attribute.merged, if_pos hbroken, if_pos rfl, List.nil_append, List.foldl_cons, List.foldl_cons,
    List.foldl_nil]
  generalize storeLine fields a.first = fields₁ at hfirst ⊢
  cases hsplit : splitOnce '=' (a.rest.map strip).flatten with
  | none =>
      refine ⟨strip a.start, ?_, by omega⟩
      rw [storeLine, hsplit]
      exact hfirst
  | some p =>
      obtain ⟨k, v⟩ := p
      have hv : v.length < (a.rest.map strip).flatten.length := by
        rw [← append_of_splitOnce hsplit, List.length_append, List.length_cons]
        omega
      have hpieces := length_flatten_strip_le a.rest
      have hstrip := (strip_sublist v).length_le
      rw [storeLine, hsplit]
      dsimp only
      rw [lookup_put]
      by_cases hkey : a.key = strip k
      · rw [if_pos hkey]
        exact ⟨strip v, rfl, by omega⟩
      · rw [if_neg hkey]
        exact ⟨strip a.start, hfirst, by omega⟩

/-! ## All attributes -/

/-- No attribute is cut: none is broken that comes after a broken one. -/
def Apart : Bool → List Attribute → Prop
  | _, [] => True
  | afterBroken, a :: attributes =>
      ¬(afterBroken = true ∧ a.Broken) ∧ Apart (decide a.Broken) attributes

theorem apart_cons_iff (a : Attribute) (attributes : List Attribute) :
    Apart (decide a.Broken) attributes ↔ (a :: attributes).IsChain fun a b => ¬(a.Broken ∧ b.Broken) := by
  induction attributes generalizing a with
  | nil => exact iff_of_true trivial (by simp)
  | cons b attributes ih => rw [Apart, List.isChain_cons_cons, ih b, decide_eq_true_eq]

theorem apart_iff_isChain (attributes : List Attribute) :
    Apart false attributes ↔ attributes.IsChain fun a b => ¬(a.Broken ∧ b.Broken) := by
  cases attributes with
  | nil => exact iff_of_true trivial (by simp)
  | cons a attributes =>
      rw [Apart, apart_cons_iff]
      simp

theorem foldl_mergedFrom {attributes : List Attribute} (h : ∀ a ∈ attributes, strip a.value = a.value)
    {afterBroken : Bool} (hapart : Apart afterBroken attributes) (fields : List (Str × Json)) :
    (mergedFrom afterBroken attributes).foldl storeLine fields =
      (expected attributes).foldl (fun fields e => put e.1 e.2 fields) fields := by
  induction attributes generalizing afterBroken fields with
  | nil => rfl
  | cons a attributes ih =>
      obtain ⟨ha, h⟩ := List.forall_mem_cons.mp h
      rw [mergedFrom, List.foldl_append, foldl_merged ha hapart.1, ih h hapart.2]
      rfl

theorem expected_keys (attributes : List Attribute) :
    (expected attributes).map Prod.fst = attributes.map Attribute.key := by
  rw [expected, List.map_map]
  rfl

/-- A cut attribute has a value of the wrong length in the end. -/
theorem foldl_mergedFrom_cut {attributes : List Attribute} (h : ∀ a ∈ attributes, strip a.value = a.value)
    (hkeys : (attributes.map Attribute.key).Nodup) {afterBroken : Bool} (hcut : ¬Apart afterBroken attributes)
    (fields : List (Str × Json)) :
    ∃ a ∈ attributes, ((mergedFrom afterBroken attributes).foldl storeLine fields).lookup a.key ≠
      some (.str a.value) := by
  induction attributes generalizing afterBroken fields with
  | nil => exact absurd trivial hcut
  | cons a attributes ih =>
      obtain ⟨ha, h⟩ := List.forall_mem_cons.mp h
      rw [List.map_cons, List.nodup_cons] at hkeys
      rw [mergedFrom, List.foldl_append]
      by_cases hrest : Apart (decide a.Broken) attributes
      · -- this is the last one that is cut
        have hlast : afterBroken = true ∧ a.Broken := by
          by_contra hnot
          exact hcut ⟨hnot, hrest⟩
        obtain ⟨hafter, hbroken⟩ := hlast
        obtain ⟨text, hlookup, hshort⟩ := foldl_merged_cut hbroken fields
        refine ⟨a, List.mem_cons_self, ?_⟩
        rw [foldl_mergedFrom h hrest, lookup_foldl_put, hafter, hlookup]
        · intro heq
          cases heq
          omega
        · rw [expected_keys]
          exact hkeys.1
      · obtain ⟨b, hb, hne⟩ := ih h hkeys.2 hrest ((a.merged afterBroken).foldl storeLine fields)
        exact ⟨b, List.mem_cons_of_mem a hb, hne⟩

/-! ## What can be reported at all -/

/-- A text that a line of the output can be merged to: it has no line boundary, or it is the mark after the last
line. -/
def Mergeable (line : Str) : Prop := OneLine line ∨ line = "_end_\n".toList

theorem oneLine_strip {s : Str} (h : OneLine s) : OneLine (strip s) :=
  fun c hc => h c ((strip_sublist s).subset hc)

theorem mergeLine_oneLine {state : Merging} {line : Str} (hline : OneLine line)
    (h : OneLine state.last ∧ ∀ l ∈ state.merged, OneLine l) :
    OneLine (mergeLine state line).last ∧ ∀ l ∈ (mergeLine state line).merged, OneLine l := by
  obtain ⟨hlast, hmerged⟩ := h
  have hadded : ∀ l ∈ state.merged ++ [line], OneLine l := by
    intro l hl
    rcases List.mem_append.mp hl with hl | hl
    · exact hmerged l hl
    · rw [List.mem_singleton.mp hl]
      exact hline
  rw [mergeLine]
  split
  · refine ⟨fun c hc => ?_, hmerged⟩
    exact (List.mem_append.mp hc).elim (hlast c) (oneLine_strip hline c)
  · split
    · refine ⟨fun c hc => (List.not_mem_nil hc).elim, fun l hl => ?_⟩
      simp only [List.mem_append, List.mem_cons, List.not_mem_nil, or_false] at hl
      rcases hl with hl | rfl | rfl
      · exact hmerged l hl
      · exact hlast
      · exact hline
    · exact ⟨hline, hadded⟩

theorem mergedLines_mergeable (rawInfo : Str) : ∀ l ∈ mergedLines rawInfo, Mergeable l := by
  have hfold : ∀ (lines : List Str) (state : Merging), (∀ l ∈ lines, OneLine l) →
      (OneLine state.last ∧ ∀ l ∈ state.merged, OneLine l) →
      OneLine (lines.foldl mergeLine state).last ∧ ∀ l ∈ (lines.foldl mergeLine state).merged, OneLine l := by
    intro lines
    induction lines with
    | nil => exact fun _ _ h => h
    | cons line lines ih =>
        intro state hlines h
        obtain ⟨hline, hlines⟩ := List.forall_mem_cons.mp hlines
        exact ih _ hlines (mergeLine_oneLine hline h)
  have hstart : OneLine ([] : Str) ∧ ∀ l ∈ ([] : List Str), OneLine l := ⟨nofun, nofun⟩
  obtain ⟨hlast, hmerged⟩ := hfold (splitlines rawInfo) { multi := false, last := [], merged := [] }
    (splitlines_oneLine rawInfo) hstart
  intro l hl
  rw [mergedLines, List.foldl_append, List.foldl_cons, List.foldl_nil, mergeLine_first _ (by decide)] at hl
  rcases List.mem_append.mp hl with hl | hl
  · left
    unfold flushed at hl
    split at hl
    · rcases List.mem_append.mp hl with hl | hl
      · exact hmerged l hl
      · rw [List.mem_singleton.mp hl]
        exact hlast
    · exact hmerged l hl
  · exact Or.inr (List.mem_singleton.mp hl)

/-- A field as `storeLine` makes it. -/
def Tidy (e : Str × Json) : Prop := OneLine e.1 ∧ ∃ v, e.2 = .str v ∧ strip v = v ∧ OneLine v

theorem storeLine_tidy {fields : List (Str × Json)} (h : ∀ e ∈ fields, Tidy e) {line : Str}
    (hline : Mergeable line) : ∀ e ∈ storeLine fields line, Tidy e := by
  rcases hline with hline | rfl
  · rw [storeLine]
    cases hsplit : splitOnce '=' line with
    | none => exact h
    | some p =>
        obtain ⟨k, v⟩ := p
        rw [← append_of_splitOnce hsplit] at hline
        have hk : OneLine k := fun c hc => hline c (List.mem_append_left _ hc)
        have hv : OneLine v := fun c hc => hline c (List.mem_append_right _ (List.mem_cons_of_mem _ hc))
        intro e he
        rcases mem_of_mem_put he with rfl | he
        · exact ⟨oneLine_strip hk, strip v, rfl, strip_strip v, oneLine_strip hv⟩
        · exact h e he
  · rw [storeLine_end]
    exact h

theorem parseJobDetails_tidy (rawInfo : Str) :
    ∃ fields, parseJobDetails rawInfo = .obj fields ∧ ∀ e ∈ fields, Tidy e := by
  refine ⟨_, parseJobDetails_eq rawInfo, ?_⟩
  have hfold : ∀ (lines : List Str) (fields : List (Str × Json)), (∀ l ∈ lines, Mergeable l) →
      (∀ e ∈ fields, Tidy e) → ∀ e ∈ lines.foldl storeLine fields, Tidy e := by
    intro lines
    induction lines with
    | nil => exact fun _ _ h => h
    | cons line lines ih =>
        intro fields hlines h
        obtain ⟨hline, hlines⟩ := List.forall_mem_cons.mp hlines
        exact ih _ hlines (storeLine_tidy h hline)
  exact hfold _ [] (mergedLines_mergeable rawInfo) nofun

/-! ## The whole output -/

/-- The result is a map with the given entries. -/
def Reports (result : Json) (entries : List (Str × Json)) : Prop :=
  ∃ fields, result = .obj fields ∧ ∀ k, fields.lookup k = entries.lookup k

/-- The attributes in their order, when nothing stands in the way. -/
theorem parseJobDetails_printed {attributes : List Attribute} (hkeys : (attributes.map Attribute.key).Nodup)
    (hplain : ∀ a ∈ attributes, a.Plain) (hapart : Apart false attributes) :
    parseJobDetails (printed attributes) = .obj (expected attributes) := by
  have hdistinct : (([] ++ expected attributes).map Prod.fst).Nodup := by
    rw [List.nil_append, expected_keys]
    exact hkeys
  rw [parseJobDetails_eq, mergedLines_printed hplain, List.foldl_append, List.foldl_cons, List.foldl_nil,
    storeLine_end, foldl_mergedFrom (fun a ha => (hplain a ha).1) hapart, foldl_put _ _ hdistinct,
    List.nil_append]

/-- **Job details.**  The result maps exactly the keys of the attributes to their whole values if and only if
keys and values are plain and no broken value comes directly after a broken one. -/
theorem parse_job_details_iff (attributes : List Attribute) (hkeys : (attributes.map Attribute.key).Nodup) :
    Reports (parseJobDetails (printed attributes)) (expected attributes) ↔
      (∀ a ∈ attributes, a.Plain) ∧ attributes.IsChain fun a b => ¬(a.Broken ∧ b.Broken) := by
  rw [← apart_iff_isChain]
  constructor
  · rintro ⟨fields, hresult, hlookup⟩
    have hwhole : ∀ a ∈ attributes, fields.lookup a.key = some (.str a.value) := by
      intro a ha
      rw [hlookup]
      apply lookup_of_mem
      · rw [expected_keys]
        exact hkeys
      · exact List.mem_map_of_mem ha
    have hplain : ∀ a ∈ attributes, a.Plain := by
      intro a ha
      obtain ⟨fields', hresult', htidy⟩ := parseJobDetails_tidy (printed attributes)
      cases hresult.symm.trans hresult'
      obtain ⟨hkey, v, hv, hstrip, hvalue⟩ := htidy _ (mem_of_lookup (hwhole a ha))
      cases hv
      exact ⟨hstrip, hkey, hvalue⟩
    refine ⟨hplain, ?_⟩
    by_contra hcut
    obtain ⟨a, ha, hne⟩ := foldl_mergedFrom_cut (fun a ha => (hplain a ha).1) hkeys hcut []
    apply hne
    rw [parseJobDetails_eq, mergedLines_printed hplain, List.foldl_append, List.foldl_cons, List.foldl_nil,
      storeLine_end] at hresult
    cases hresult
    exact hwhole a ha
  · rintro ⟨hplain, hapart⟩
    exact ⟨_, parseJobDetails_printed hkeys hplain hapart, fun _ => rfl⟩

/-! ## Two broken attributes in a row -/

/-- `Variable_List` broken once, as in a listing of OpenPBS. -/
def variableList : Attribute where
  key := "Variable_List".toList
  pieces := ["A=1,".toList, "B=2".toList]
  key_newline := by decide
  key_equals := by decide
  key_stripped := by decide
  pieces_ne := by decide
  pieces_newline := by decide
  breaks := by simp [CleanBreak]; decide

/-- A comment broken in the middle of a word. -/
def comment : Attribute where
  key := "comment".toList
  pieces := ["Job fini".toList, "shed".toList]
  key_newline := by decide
  key_equals := by decide
  key_stripped := by decide
  pieces_ne := by decide
  pieces_newline := by decide
  breaks := by simp [CleanBreak]; decide

theorem parse_job_details_iff_comment :
    Reports (parseJobDetails (printed [variableList, comment])) (expected [variableList, comment]) ↔
      (∀ a ∈ [variableList, comment], a.Plain) ∧
        [variableList, comment].IsChain fun a b => ¬(a.Broken ∧ b.Broken) :=
  parse_job_details_iff [variableList, comment] (by decide)

/-- The comment is cut where it is broken, although nothing is wrong with it. -/
theorem parse_job_details_cuts :
    ¬∀ attributes : List Attribute, (attributes.map Attribute.key).Nodup → (∀ a ∈ attributes, a.Plain) →
      Reports (parseJobDetails (printed attributes)) (expected attributes) := by
  intro h
  have hplain : ∀ a ∈ [variableList, comment], a.Plain := by
    intro a ha
    simp only [List.mem_cons, List.not_mem_nil, or_false] at ha
    rcases ha with rfl | rfl
    · exact ⟨by decide, by decide, by decide⟩
    · exact ⟨by decide, by decide, by decide⟩
  obtain ⟨fields, hresult, hlookup⟩ := h [variableList, comment] (by decide) hplain
  have hparsed : parseJobDetails (printed [variableList, comment]) =
      .obj [("Variable_List".toList, .str "A=1,B=2".toList), ("comment".toList, .str "Job fini".toList)] := rfl
  cases hparsed.symm.trans hresult
  have hcomment : some (Json.str "Job fini".toList) = some (.str "Job finished".toList) :=
    hlookup "comment".toList
  exact absurd (Json.str.inj (Option.some.inj hcomment)) (by decide)

end UnicoreTsi.BssTorque
