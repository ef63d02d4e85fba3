/-
# UnicoreTsi.StatusListing — what the status listing of several lines per job says.

An array job has a line for each of its tasks.  `mergeStates` keeps one entry for each job id, and replaces it
only by one whose UNICORE state comes later in `ustates`; it is the fold of `KeyedMax` over the entries of the
lines (`mergeStates_eq`), so the listing is a summary of these entries whatever their order.
-/
import UnicoreTsi.Lib.KeyedMax
import UnicoreTsi.Variants

set_option autoImplicit false

namespace UnicoreTsi.BssCommon

open UnicoreTsi.Text UnicoreTsi.Effects UnicoreTsi.Utils UnicoreTsi.KeyedMax

/-! ## The loop is a fold -/

/-- The place of an entry's UNICORE state. -/
def stateRank (entry : StatusEntry) : ℕ := ustates.idxOf entry.1

/-- What a line of the listing says about a job. -/
def Variant.lineEntry (v : Variant) (host : Host) (line : Str) : Option (Str × StatusEntry) :=
  (v.info host line).map fun (bssid, state, queueName) => (bssid, v.ustate state, queueName, state)

theorem putField_eq_put {α : Type} (k : Str) (x : α) (l : List (Str × α)) : putField k x l = put k x l := by
  induction l with
  | nil => rfl
  | cons e l ih =>
      obtain ⟨k', x'⟩ := e
      rw [putField, put, ih]

theorem stateIndex_of_mem {ustate : Str} (h : ustate ∈ ustates) :
    stateIndex ustate = .ok (ustates.idxOf ustate) := if_pos h

/-- Every entry has one of the states of UNICORE. -/
def KnownStates (states : List (Str × StatusEntry)) : Prop := ∀ e ∈ states, e.2.1 ∈ ustates

theorem KnownStates.keep {states : List (Str × StatusEntry)} (h : KnownStates states) {e : Str × StatusEntry}
    (he : e.2.1 ∈ ustates) : KnownStates (keep stateRank states e) := by
  have hput : KnownStates (put e.1 e.2 states) := by
    intro e' he'
    rcases mem_of_mem_put he' with rfl | hmem
    · exact he
    · exact h e' hmem
  unfold KeyedMax.keep
  split
  · exact hput
  · split
    · exact hput
    · exact h

/-- The loop never raises, and folds the entries of the lines. -/
theorem mergeStates_eq (v : Variant) (host : Host) (lines : List Str) {states : List (Str × StatusEntry)}
    (h : KnownStates states) :
    mergeStates v.hooks host lines states =
      .ok ((lines.filterMap (v.lineEntry host)).foldl (keep stateRank) states) := by
  induction lines generalizing states with
  | nil => rfl
  | cons line lines ih =>
      rw [mergeStates, v.extractInfo_eq]
      cases hinfo : v.info host line with
      | none =>
          have hentry : v.lineEntry host line = none := by rw [Variant.lineEntry, hinfo]; rfl
          rw [List.filterMap_cons_none hentry]
          exact ih h
      | some entry =>
          obtain ⟨bssid, state, queueName⟩ := entry
          have hentry : v.lineEntry host line = some (bssid, v.ustate state, queueName, state) := by
            rw [Variant.lineEntry, hinfo]; rfl
          have hknown : v.ustate state ∈ ustates := v.ustate_mem state
          have hnext := h.keep (e := (bssid, v.ustate state, queueName, state)) hknown
          rw [List.filterMap_cons_some hentry, List.foldl_cons, ← ih hnext]
          cases hlookup : states.lookup bssid with
          | none =>
              rw [keep_of_lookup_none hlookup, ← putField_eq_put]
              simp only [ok_bind, v.convertStatus_eq, hlookup]
          | some old =>
              obtain ⟨haveState, oldQueue, oldState⟩ := old
              have hold : haveState ∈ ustates := h (bssid, haveState, oldQueue, oldState) (mem_of_lookup hlookup)
              rw [keep_of_lookup_some hlookup, ← putField_eq_put]
              have hrank : ∀ x y : StatusEntry, (stateRank x > stateRank y) = (ustates.idxOf x.1 > ustates.idxOf y.1) :=
                fun _ _ => rfl
              simp only [ok_bind, v.convertStatus_eq, hlookup, stateIndex_of_mem hknown, stateIndex_of_mem hold, hrank]
              by_cases hgt : ustates.idxOf (v.ustate state) > ustates.idxOf haveState
              · simp only [if_pos hgt]
              · simp only [if_neg hgt]

/-! ## The listing of a text -/

/-- A line names a job: its id, the state of the batch system and the queue. -/
def Variant.Names (v : Variant) (host : Host) (line bssid state queueName : Str) : Prop :=
  v.hooks.extractInfo host line = .ok (some (bssid, state, queueName))

/-- What the status listing of a text is to say. -/
structure Merges (v : Variant) (host : Host) (text : Str) (states : List (Str × StatusEntry)) : Prop where
  once : (states.map Prod.fst).Nodup
  ids : ∀ bssid, bssid ∈ states.map Prod.fst ↔
    ∃ line ∈ splitlines text, ∃ state queueName, v.Names host line bssid state queueName
  /-- Queue and original state are those of one line, which has the state reported. -/
  line : ∀ bssid ustate queueName state, (bssid, ustate, queueName, state) ∈ states →
    ∃ line ∈ splitlines text, v.Names host line bssid state queueName ∧
      v.hooks.convertStatus state = .ok ustate
  /-- No line of the job has a state that comes later. -/
  highest : ∀ bssid ustate queueName state, (bssid, ustate, queueName, state) ∈ states →
    ∀ line ∈ splitlines text, ∀ state' queueName' ustate', v.Names host line bssid state' queueName' →
      v.hooks.convertStatus state' = .ok ustate' → ustates.idxOf ustate' ≤ ustates.idxOf ustate
  /-- A job is completed only if all its lines are. -/
  completed : ∀ bssid queueName state, (bssid, "COMPLETED".toList, queueName, state) ∈ states →
    ∀ line ∈ splitlines text, ∀ state' queueName', v.Names host line bssid state' queueName' →
      v.hooks.convertStatus state' = .ok "COMPLETED".toList

section Listing

variable {v : Variant} {host : Host}

theorem mem_entries {lines : List Str} {bssid ustate queueName state : Str} :
    (bssid, ustate, queueName, state) ∈ lines.filterMap (v.lineEntry host) ↔
      ∃ line ∈ lines, v.Names host line bssid state queueName ∧ v.hooks.convertStatus state = .ok ustate := by
  simp only [List.mem_filterMap, Variant.Names, v.extractInfo_eq, v.convertStatus_eq, Except.ok.injEq]
  constructor
  · rintro ⟨line, hline, hentry⟩
    obtain ⟨⟨bssid', state', queueName'⟩, hinfo, heq⟩ := Option.map_eq_some_iff.mp hentry
    obtain ⟨rfl, rfl, rfl, rfl⟩ : bssid' = bssid ∧ v.ustate state' = ustate ∧ queueName' = queueName ∧
        state' = state := by simpa using heq
    exact ⟨line, hline, hinfo, rfl⟩
  · rintro ⟨line, hline, hinfo, rfl⟩
    exact ⟨line, hline, by rw [Variant.lineEntry, hinfo]; rfl⟩

/-- A summary of the entries of the lines is what the listing is to say. -/
theorem Merges.of_summary {text : Str} {states : List (Str × StatusEntry)}
    (h : Summary stateRank ((splitlines text).filterMap (v.lineEntry host)) states) :
    Merges v host text states := by
  have hhighest : ∀ bssid ustate queueName state, (bssid, ustate, queueName, state) ∈ states →
      ∀ line ∈ splitlines text, ∀ state' queueName' ustate', v.Names host line bssid state' queueName' →
        v.hooks.convertStatus state' = .ok ustate' → ustates.idxOf ustate' ≤ ustates.idxOf ustate := by
    intro bssid ustate queueName state hmem line hline state' queueName' ustate' hnames hustate
    exact h.top _ hmem (bssid, ustate', queueName', state') (mem_entries.mpr ⟨line, hline, hnames, hustate⟩) rfl
  refine ⟨h.nodup, ?_, ?_, hhighest, ?_⟩
  · intro bssid
    constructor
    · intro hkey
      obtain ⟨⟨_, ustate, queueName, state⟩, hmem, rfl⟩ := List.mem_map.mp hkey
      obtain ⟨line, hline, hnames, -⟩ := mem_entries.mp (h.sub _ hmem)
      exact ⟨line, hline, state, queueName, hnames⟩
    · rintro ⟨line, hline, state, queueName, hnames⟩
      exact h.covers (bssid, v.ustate state, queueName, state)
        (mem_entries.mpr ⟨line, hline, hnames, v.convertStatus_eq state⟩)
  · exact fun bssid ustate queueName state hmem => mem_entries.mp (h.sub _ hmem)
  · intro bssid queueName state hmem line hline state' queueName' hnames
    have hle := hhighest _ _ _ _ hmem line hline state' queueName' _ hnames (v.convertStatus_eq state')
    have hfirst : ∀ ustate ∈ ustates, ustates.idxOf ustate ≤ ustates.idxOf "COMPLETED".toList →
        ustate = "COMPLETED".toList := by decide
    rw [v.convertStatus_eq, hfirst _ (v.ustate_mem state') hle]

/-- Values of the same rank under a key have the same UNICORE state. -/
theorem ustate_eq_of_rank_eq {states states' : List (Str × StatusEntry)} (h : KnownStates states)
    {bssid : Str}
    (hrank : (states.lookup bssid).map stateRank = (states'.lookup bssid).map stateRank) :
    (states.lookup bssid).map (·.1) = (states'.lookup bssid).map (·.1) := by
  cases hx : states.lookup bssid with
  | none =>
      rw [hx] at hrank
      cases hy : states'.lookup bssid with
      | none => rfl
      | some y => rw [hy] at hrank; cases hrank
  | some x =>
      rw [hx] at hrank
      cases hy : states'.lookup bssid with
      | none => rw [hy] at hrank; cases hrank
      | some y =>
          rw [hy] at hrank
          have hidx : ustates.idxOf x.1 = ustates.idxOf y.1 := Option.some.inj hrank
          have hxmem : x.1 ∈ ustates := h (bssid, x) (mem_of_lookup hx)
          exact congrArg some ((List.idxOf_inj hxmem).mp hidx)

end Listing

/-- The entries of lines have known states. -/
theorem knownStates_of_sub {v : Variant} {host : Host} {lines : List Str} {states : List (Str × StatusEntry)}
    (h : ∀ e ∈ states, e ∈ lines.filterMap (v.lineEntry host)) : KnownStates states := by
  rintro ⟨bssid, ustate, queueName, state⟩ hmem
  obtain ⟨line, -, -, hustate⟩ := mem_entries.mp (h _ hmem)
  rw [v.convertStatus_eq] at hustate
  rw [← Except.ok.inj hustate]
  exact v.ustate_mem state

/-- Every variant reports each job of the status command's output once, in the latest of the states its lines
have, and in whatever order the lines come. -/
theorem status_listing (v : Variant) (host : Host) (text : Str) :
    ∃ states, mergeStates v.hooks host (splitlines text) [] = .ok states ∧
      parseStatusListing v.hooks host text = .ok ("QSTAT\n".toList ++ states.flatMap statusLine) ∧
      Merges v host text states ∧
      ∀ text', (splitlines text').Perm (splitlines text) →
        ∃ states', mergeStates v.hooks host (splitlines text') [] = .ok states' ∧
          ∀ bssid, (states'.lookup bssid).map (·.1) = (states.lookup bssid).map (·.1) := by
  have hempty : KnownStates [] := nofun
  have hsummary : ∀ lines : List Str, Summary stateRank (lines.filterMap (v.lineEntry host))
      ((lines.filterMap (v.lineEntry host)).foldl (keep stateRank) []) := fun lines => summary_foldl _
  have hmerge := mergeStates_eq v host (splitlines text) hempty
  refine ⟨_, hmerge, ?_, Merges.of_summary (hsummary _), ?_⟩
  · rw [parseStatusListing, hmerge]
    rfl
  · intro text' hperm
    refine ⟨_, mergeStates_eq v host (splitlines text') hempty, fun bssid => ?_⟩
    have hsame := (hsummary (splitlines text')).of_perm (hperm.filterMap (v.lineEntry host))
    refine ustate_eq_of_rank_eq (knownStates_of_sub (hsummary _).sub) ?_
    exact hsame.rank_eq (hsummary _) bssid

end UnicoreTsi.BssCommon
