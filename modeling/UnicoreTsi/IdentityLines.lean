/-
# UnicoreTsi.IdentityLines — which line of a message the identity is taken from.

The search for the identity is not anchored: any line with a *clause*, the text `#TSI_IDENTITY <user>
<groups>` at its end, can supply it, and the first such line does (`identityInfo_eq_some`).  So two
messages with the same identity lines can select different users, exactly when a line that is no identity
line gets in first (`requestedIdentity_eq_iff`).
-/
import UnicoreTsi.Tsi

set_option autoImplicit false

namespace UnicoreTsi.Tsi

open UnicoreTsi.Text UnicoreTsi.Regex UnicoreTsi.Utils

/-! ## Clauses -/

/-- What `\S+` matches. -/
def NonBlank (s : Str) : Prop := s ≠ [] ∧ ∀ c ∈ s, isSpace c = false

/-- The line ends with the text that passes an identity. -/
def Clause (l user groups : Str) : Prop :=
  ∃ p, l = p ++ "#TSI_IDENTITY ".toList ++ user ++ ' ' :: groups ∧ NonBlank user ∧ NonBlank groups

theorem NonBlank.blank_not_mem {s : Str} (h : NonBlank s) : ' ' ∉ s :=
  fun hmem => absurd (h.2 ' ' hmem) (by decide)

theorem NonBlank.newline_not_mem {s : Str} (h : NonBlank s) : '\n' ∉ s :=
  fun hmem => absurd (h.2 '\n' hmem) (by decide)

/-- A line passes at most one identity. -/
theorem Clause.unique {l user groups user' groups' : Str} (h : Clause l user groups)
    (h' : Clause l user' groups') : user = user' ∧ groups = groups' := by
  obtain ⟨p, hl, huser, hgroups⟩ := h
  obtain ⟨p', hl', huser', hgroups'⟩ := h'
  rw [hl] at hl'
  obtain ⟨hhead, rfl⟩ := append_cons_inj_last hgroups.blank_not_mem hgroups'.blank_not_mem hl'
  have hsplit : (p ++ "#TSI_IDENTITY".toList) ++ ' ' :: user =
      (p' ++ "#TSI_IDENTITY".toList) ++ ' ' :: user' := by
    simpa using hhead
  exact ⟨(append_cons_inj_last huser.blank_not_mem huser'.blank_not_mem hsplit).2, rfl⟩

/-! ## One line -/

/-- A match at the start of a line is a clause of that line. -/
theorem clause_of_match {prev : Option Char} {l rest : Str} {ps : List Str} (hl : '\n' ∉ l)
    (h : matchItems identityItems prev (l ++ '\n' :: rest) = some ps) :
    ∃ p user groups tail,
      ps = [p, "#TSI_IDENTITY ".toList, user, " ".toList, groups, "\n".toList, tail] ∧
      Clause l user groups := by
  obtain ⟨hfit, hflat⟩ := matchItems_sound h
  match ps, hfit, hflat with
  | [p, tag, user, blank, groups, nl, tail],
      ⟨⟨hp, _, _⟩, htag, ⟨huser, hulen, _⟩, hblank, ⟨hgroups, hglen, _⟩, hnl, _, _⟩, hflat =>
    obtain rfl : tag = "#TSI_IDENTITY ".toList := htag
    obtain rfl : blank = " ".toList := hblank
    obtain rfl : nl = "\n".toList := hnl
    have hu : NonBlank user := ⟨by rintro rfl; simp at hulen, by simpa using huser⟩
    have hg : NonBlank groups := ⟨by rintro rfl; simp at hglen, by simpa using hgroups⟩
    refine ⟨p, user, groups, tail, rfl, p, ?_, hu, hg⟩
    have hp' : '\n' ∉ p := fun hmem => absurd (hp '\n' hmem) (by decide)
    have hbody : '\n' ∉ p ++ "#TSI_IDENTITY ".toList ++ user ++ ' ' :: groups := by
      simp [hp', hu.newline_not_mem, hg.newline_not_mem]
    have hprefix : (p ++ "#TSI_IDENTITY ".toList ++ user ++ ' ' :: groups) ++ '\n' :: tail <+:
        l ++ '\n' :: rest := by
      simpa using hflat
    exact (eq_of_prefix_line hbody hl hprefix).symm

/-- Where a line has a clause, the pattern matches. -/
theorem match_of_clause {l user groups : Str} (prev : Option Char) (rest : Str) (hl : '\n' ∉ l)
    (h : Clause l user groups) : (matchItems identityItems prev (l ++ '\n' :: rest)).isSome := by
  obtain ⟨p, rfl, huser, hgroups⟩ := h
  have hp : ∀ c ∈ p, decide (c ≠ '\n') = true := by
    intro c hc
    simp only [decide_eq_true_eq]
    rintro rfl
    exact hl (by simp [hc])
  have hfit : Fits identityItems prev
      [p, "#TSI_IDENTITY ".toList, user, " ".toList, groups, "\n".toList, []] := by
    have hulen : 1 ≤ user.length := List.length_pos_iff.mpr huser.1
    have hglen : 1 ≤ groups.length := List.length_pos_iff.mpr hgroups.1
    refine ⟨⟨hp, by simp, by simp⟩, rfl, ⟨by simpa using huser.2, hulen, by simp⟩, rfl,
      ⟨by simpa using hgroups.2, hglen, by simp⟩, rfl, ⟨by simp, by simp, by simp⟩, rfl⟩
  apply matchItems_complete hfit
  simp

/-! ## The whole message -/

/-- `user` and `groups` are passed by the first of the lines that has a clause. -/
inductive FirstClause : List Str → Str → Str → Prop where
  | here {l user groups : Str} {ls : List Str} (h : Clause l user groups) :
      FirstClause (l :: ls) user groups
  | there {l user groups : Str} {ls : List Str} (h : ∀ u g, ¬Clause l u g)
      (hrest : FirstClause ls user groups) : FirstClause (l :: ls) user groups

theorem FirstClause.unique {ls : List Str} {user groups user' groups' : Str}
    (h : FirstClause ls user groups) (h' : FirstClause ls user' groups') :
    user = user' ∧ groups = groups' := by
  induction h with
  | here hc =>
      cases h' with
      | here hc' => exact hc.unique hc'
      | there hno _ => exact absurd hc (hno _ _)
  | there hno _ ih =>
      cases h' with
      | here hc' => exact absurd hc' (hno _ _)
      | there _ hrest' => exact ih hrest'

theorem search_identity (prev : Option Char) (m : Str) :
    (∀ ps, search identityItems prev m = some ps →
      ∃ p user groups tail,
        ps = [p, "#TSI_IDENTITY ".toList, user, " ".toList, groups, "\n".toList, tail] ∧
        FirstClause (completeLines m) user groups) ∧
    (search identityItems prev m = none → ∀ user groups, ¬FirstClause (completeLines m) user groups) := by
  induction m using lineInduction generalizing prev with
  | tail t ht =>
      have hsearch : search identityItems prev t = matchItems identityItems prev t :=
        search_tail _ '\n' prev ht
      rw [completeLines_of_not_mem ht, hsearch]
      constructor
      · -- the pattern ends with a newline, and there is none
        intro ps h
        obtain ⟨hfit, hflat⟩ := matchItems_sound h
        match ps, hfit, hflat with
        | [p, tag, user, blank, groups, nl, tail], ⟨_, _, _, _, _, hnl, _, _⟩, hflat =>
          obtain rfl : nl = "\n".toList := hnl
          exact absurd (hflat.subset (by simp : '\n' ∈ _)) ht
      · intro _ user groups h
        cases h
  | line l rest hl ih =>
      have hsearch : search identityItems prev (l ++ '\n' :: rest) =
          (matchItems identityItems prev (l ++ '\n' :: rest)).or
            (search identityItems (some '\n') rest) := search_line _ '\n' prev hl rest
      rw [completeLines_line hl, hsearch]
      cases hm : matchItems identityItems prev (l ++ '\n' :: rest) with
      | some qs =>
          refine ⟨?_, by simp⟩
          rintro ps h
          obtain rfl : qs = ps := by simpa using h
          obtain ⟨p, user, groups, tail, rfl, hclause⟩ := clause_of_match hl hm
          exact ⟨p, user, groups, tail, rfl, .here hclause⟩
      | none =>
          have hno : ∀ u g, ¬Clause l u g := by
            intro u g hclause
            have hsome := match_of_clause prev rest hl hclause
            rw [hm] at hsome
            cases hsome
          rw [Option.none_or]
          constructor
          · intro ps h
            obtain ⟨p, user, groups, tail, hps, hfirst⟩ := (ih (some '\n')).1 ps h
            exact ⟨p, user, groups, tail, hps, .there hno hfirst⟩
          · intro h user groups hfirst
            cases hfirst with
            | here hclause => exact hno _ _ hclause
            | there _ hrest => exact (ih (some '\n')).2 h _ _ hrest

/-- The identity of a message is that of its first line with a clause. -/
theorem identityInfo_eq_some {m user groups : Str} :
    identityInfo m = some (user, groups) ↔ FirstClause (completeLines m) user groups := by
  obtain ⟨hfound, hmissing⟩ := search_identity none m
  unfold identityInfo
  cases hsearch : search identityItems none m with
  | none =>
      constructor
      · intro h
        cases h
      · exact fun h => absurd h (hmissing hsearch _ _)
  | some ps =>
      obtain ⟨p, user', groups', tail, rfl, hfirst⟩ := hfound ps hsearch
      constructor
      · intro h
        obtain ⟨rfl, rfl⟩ : user' = user ∧ groups' = groups := by simpa using h
        exact hfirst
      · intro h
        obtain ⟨rfl, rfl⟩ := hfirst.unique h
        rfl

/-! ## Spoofed messages -/

/-- The line starts, after optional whitespace, with `#TSI_IDENTITY `. -/
def IsIdentityLine (l : Str) : Prop := "#TSI_IDENTITY ".toList <+: lstrip l

instance (l : Str) : Decidable (IsIdentityLine l) := by
  unfold IsIdentityLine
  infer_instance

/-- The identity lines of a message, in order. -/
def identityLines (m : Str) : List Str := (completeLines m).filter fun l => decide (IsIdentityLine l)

/-- A line that is no identity line is the first with a clause, and its clause is not the one the identity
lines pass. -/
def SpoofedBy (m user groups : Str) : Prop :=
  (∃ pre l post, completeLines m = pre ++ l :: post ∧ (∀ k ∈ pre, ∀ u g, ¬Clause k u g) ∧
    Clause l user groups ∧ ¬IsIdentityLine l) ∧
  ¬FirstClause (identityLines m) user groups

theorem firstClause_iff_split {ls : List Str} {user groups : Str} :
    FirstClause ls user groups ↔
      ∃ pre l post, ls = pre ++ l :: post ∧ (∀ k ∈ pre, ∀ u g, ¬Clause k u g) ∧
        Clause l user groups := by
  constructor
  · intro h
    induction h with
    | @here l user groups ls hc => exact ⟨[], l, ls, rfl, by simp, hc⟩
    | @there k user groups ls hno _ ih =>
        obtain ⟨pre, l, post, rfl, hpre, hc⟩ := ih
        refine ⟨k :: pre, l, post, rfl, ?_, hc⟩
        intro k' hk'
        rcases List.mem_cons.mp hk' with rfl | hk'
        · exact hno
        · exact hpre k' hk'
  · rintro ⟨pre, l, post, rfl, hpre, hc⟩
    induction pre with
    | nil => exact .here hc
    | cons k pre ih =>
        exact .there (hpre k List.mem_cons_self) (ih fun k' hk' => hpre k' (List.mem_cons_of_mem k hk'))

/-- Dropping lines keeps the first clause if its own line is kept. -/
theorem FirstClause.filter {p : Str → Bool} {pre post : List Str} {l user groups : Str}
    (hpre : ∀ k ∈ pre, ∀ u g, ¬Clause k u g) (hc : Clause l user groups) (hl : p l = true) :
    FirstClause ((pre ++ l :: post).filter p) user groups := by
  rw [List.filter_append, List.filter_cons_of_pos hl]
  refine firstClause_iff_split.mpr ⟨pre.filter p, l, post.filter p, rfl, ?_, hc⟩
  exact fun k hk => hpre k (List.mem_of_mem_filter hk)

/-- Spoofed means: the selected clause is not the one the identity lines pass. -/
theorem spoofedBy_iff {m user groups : Str} :
    SpoofedBy m user groups ↔
      FirstClause (completeLines m) user groups ∧ ¬FirstClause (identityLines m) user groups := by
  constructor
  · rintro ⟨⟨pre, l, post, hsplit, hpre, hc, -⟩, hnot⟩
    exact ⟨firstClause_iff_split.mpr ⟨pre, l, post, hsplit, hpre, hc⟩, hnot⟩
  · rintro ⟨hfirst, hnot⟩
    obtain ⟨pre, l, post, hsplit, hpre, hc⟩ := firstClause_iff_split.mp hfirst
    refine ⟨⟨pre, l, post, hsplit, hpre, hc, ?_⟩, hnot⟩
    intro hl
    apply hnot
    rw [identityLines, hsplit]
    exact FirstClause.filter hpre hc (by simpa using hl)

/-- If some line has a clause, some line is the first. -/
theorem exists_firstClause {ls : List Str} {l user groups : Str} (hl : l ∈ ls)
    (hc : Clause l user groups) : ∃ u g, FirstClause ls u g := by
  induction ls with
  | nil => cases hl
  | cons k ls ih =>
      by_cases hk : ∃ u g, Clause k u g
      · obtain ⟨u, g, hk⟩ := hk
        exact ⟨u, g, .here hk⟩
      · push Not at hk
        rcases List.mem_cons.mp hl with rfl | hl
        · exact absurd hc (hk _ _)
        · obtain ⟨u, g, h⟩ := ih hl
          exact ⟨u, g, .there hk h⟩

theorem exists_firstClause_of_identityLines {m user groups : Str}
    (h : FirstClause (identityLines m) user groups) : ∃ u g, FirstClause (completeLines m) u g := by
  obtain ⟨pre, l, post, hsplit, -, hc⟩ := firstClause_iff_split.mp h
  have hl : l ∈ identityLines m := by
    rw [hsplit]
    simp
  exact exists_firstClause (List.mem_of_mem_filter hl) hc

/-! ## Identity comes from identity lines -/

theorem requestedIdentity_eq_iff_firstClause {m₁ m₂ : Str} :
    requestedIdentity m₁ = requestedIdentity m₂ ↔
      ∀ u g, FirstClause (completeLines m₁) u g ↔ FirstClause (completeLines m₂) u g := by
  have hinj : Function.Injective fun info : Str × Str => (info.1, info.2.splitOn ':') := by
    rintro ⟨u, g⟩ ⟨u', g'⟩ h
    obtain ⟨rfl, hg⟩ : u = u' ∧ g.splitOn ':' = g'.splitOn ':' := by simpa using h
    have hjoin := congrArg (List.intercalate [':']) hg
    rw [List.intercalate_splitOn, List.intercalate_splitOn] at hjoin
    rw [hjoin]
  unfold requestedIdentity
  rw [(Option.map_injective hinj).eq_iff]
  constructor
  · intro h u g
    rw [← identityInfo_eq_some, ← identityInfo_eq_some, h]
  · intro h
    apply Option.ext
    rintro ⟨u, g⟩
    rw [identityInfo_eq_some, identityInfo_eq_some]
    exact h u g

/-- Two messages with the same identity lines select the same user and groups, or both none, exactly when
the same clauses of other lines spoof them, if any. -/
theorem requestedIdentity_eq_iff {m₁ m₂ : Str} (hlines : identityLines m₁ = identityLines m₂) :
    requestedIdentity m₁ = requestedIdentity m₂ ↔ ∀ u g, SpoofedBy m₁ u g ↔ SpoofedBy m₂ u g := by
  rw [requestedIdentity_eq_iff_firstClause]
  constructor
  · intro h u g
    rw [spoofedBy_iff, spoofedBy_iff, h u g, hlines]
  · intro h
    -- by symmetry it is enough to carry a clause over from one message to the other
    have carry : ∀ m m' : Str, identityLines m = identityLines m' →
        (∀ u g, SpoofedBy m u g ↔ SpoofedBy m' u g) → ∀ u g, FirstClause (completeLines m) u g →
        FirstClause (completeLines m') u g := by
      intro m m' hlines hspoof u g hfirst
      by_cases hid : FirstClause (identityLines m) u g
      · rw [hlines] at hid
        obtain ⟨u', g', hfirst'⟩ := exists_firstClause_of_identityLines hid
        by_cases hid' : FirstClause (identityLines m') u' g'
        · obtain ⟨rfl, rfl⟩ := hid.unique hid'
          exact hfirst'
        · have hspoofed := (hspoof u' g').mpr (spoofedBy_iff.mpr ⟨hfirst', hid'⟩)
          obtain ⟨rfl, rfl⟩ := hfirst.unique (spoofedBy_iff.mp hspoofed).1
          exact hfirst'
      · have hspoofed := (hspoof u g).mp (spoofedBy_iff.mpr ⟨hfirst, hid⟩)
        exact (spoofedBy_iff.mp hspoofed).1
    exact fun u g => ⟨carry m₁ m₂ hlines h u g, carry m₂ m₁ hlines.symm (fun u g => (h u g).symm) u g⟩

/-- A request whose file name ends in a clause. -/
def spoofedRequest : Str :=
  ("#TSI_LS\n#TSI_FILE /tmp/#TSI_IDENTITY bob users\n" ++ "#TSI_IDENTITY alice NONE\n").toList

def plainRequest : Str := "#TSI_LS\n#TSI_FILE /tmp/x\n#TSI_IDENTITY alice NONE\n".toList

theorem requestedIdentity_eq_iff_plainRequest :
    requestedIdentity spoofedRequest = requestedIdentity plainRequest ↔
      ∀ u g, SpoofedBy spoofedRequest u g ↔ SpoofedBy plainRequest u g :=
  requestedIdentity_eq_iff (by decide)

/-- The file name decides who the request runs as. -/
theorem spoofedRequest_selects_other :
    identityLines spoofedRequest = identityLines plainRequest ∧
      requestedIdentity spoofedRequest ≠ requestedIdentity plainRequest := by
  decide

end UnicoreTsi.Tsi
