/-
# UnicoreTsi.Lib.KeyedMax — one entry of highest rank for each key.

`keep` folds a stream of key-value pairs into an association list that holds one value for each key, replacing
a value only by one of higher rank.  `Summary` says what the list is for: every key seen once, with a value
seen under it that no other value seen under it exceeds.  A summary does not depend on the order in which the
pairs were seen, except for which value of several of the highest rank it holds (`Summary.rank_eq`).  `scan` is the case of a
single key: it ends with the same value in every order just when no other value reaches the highest rank.
-/
import Mathlib.Data.List.Basic
import Mathlib.Data.List.Nodup

set_option autoImplicit false

namespace UnicoreTsi.KeyedMax

/-! ## The value of the highest rank -/

section Scan

variable {ι ν : Type} {rank : ι → ℕ} {value : ι → ν}

/-- Go through a list, keeping the value of the first entry of the highest rank so far. -/
def scan (rank : ι → ℕ) (value : ι → ν) : List ι → ℕ → ν → ν
  | [], _, best => best
  | a :: rest, size, best =>
      if rank a > size then scan rank value rest (rank a) (value a) else scan rank value rest size best

/-- What a scan ends with: what it has kept before, or the value of an entry of highest rank. -/
theorem scan_spec (rank : ι → ℕ) (value : ι → ν) (l : List ι) (size : ℕ) (best : ν) :
    (∀ a ∈ l, rank a ≤ size) ∧ scan rank value l size best = best ∨
      ∃ a ∈ l, size < rank a ∧ (∀ b ∈ l, rank b ≤ rank a) ∧ scan rank value l size best = value a := by
  induction l generalizing size best with
  | nil => exact Or.inl ⟨nofun, rfl⟩
  | cons a rest ih =>
      unfold scan
      split
      · rename_i hgt
        rcases ih (rank a) (value a) with ⟨hrest, hscan⟩ | ⟨b, hb, hlt, hrest, hscan⟩
        · exact Or.inr ⟨a, List.mem_cons_self, hgt, List.forall_mem_cons.mpr ⟨Nat.le_refl _, hrest⟩, hscan⟩
        · exact Or.inr ⟨b, List.mem_cons_of_mem _ hb, Nat.lt_trans hgt hlt,
            List.forall_mem_cons.mpr ⟨Nat.le_of_lt hlt, hrest⟩, hscan⟩
      · rename_i hle
        rcases ih size best with ⟨hrest, hscan⟩ | ⟨b, hb, hlt, hrest, hscan⟩
        · exact Or.inl ⟨List.forall_mem_cons.mpr ⟨Nat.not_lt.mp hle, hrest⟩, hscan⟩
        · refine Or.inr ⟨b, List.mem_cons_of_mem _ hb, hlt, List.forall_mem_cons.mpr ⟨?_, hrest⟩, hscan⟩
          omega

/-- In every order a scan ends with `v`: every entry with another value is outranked by one with this value, and there
is one, unless `v` is what the scan starts with. -/
theorem scan_perm_iff [DecidableEq ι] (rank : ι → ℕ) (value : ι → ν) (l : List ι) (start v : ν) :
    (∀ l' : List ι, l'.Perm l → scan rank value l' 0 start = v) ↔
      (∀ a ∈ l, 0 < rank a → value a ≠ v → ∃ b ∈ l, value b = v ∧ rank a < rank b) ∧
        (v = start ∨ ∃ a ∈ l, value a = v ∧ 0 < rank a) := by
  constructor
  · intro h
    constructor
    · intro a ha hpos hne
      -- the order in which `a` comes first
      have hperm := List.perm_cons_erase ha
      have hscan := h _ hperm.symm
      rw [scan, if_pos hpos] at hscan
      rcases scan_spec rank value (l.erase a) (rank a) (value a) with
        ⟨-, hkept⟩ | ⟨b, hb, hlt, -, hvalue⟩
      · exact absurd (hkept.symm.trans hscan) hne
      · exact ⟨b, List.mem_of_mem_erase hb, hvalue.symm.trans hscan, hlt⟩
    · have hscan := h l (List.Perm.refl l)
      rcases scan_spec rank value l 0 start with ⟨-, hkept⟩ | ⟨a, ha, hpos, -, hvalue⟩
      · exact Or.inl (hscan.symm.trans hkept)
      · exact Or.inr ⟨a, ha, hvalue.symm.trans hscan, hpos⟩
  · -- an entry of highest rank has the value, or it would be outranked
    rintro ⟨houtranked, hfound⟩ l' hperm
    rcases scan_spec rank value l' 0 start with ⟨hnone, hkept⟩ | ⟨a, ha, hpos, htop, hvalue⟩
    · rcases hfound with rfl | ⟨a, ha, -, hpos⟩
      · exact hkept
      · exact absurd (hnone a (hperm.mem_iff.mpr ha)) (Nat.not_le.mpr hpos)
    · rw [hvalue]
      by_contra hne
      obtain ⟨b, hb, -, hlt⟩ := houtranked a (hperm.mem_iff.mp ha) hpos hne
      exact absurd (htop b (hperm.mem_iff.mpr hb)) (Nat.not_le.mpr hlt)

end Scan

variable {κ ν : Type}

/-! ## What is to be kept -/

section Summaries

variable (rank : ν → ℕ)

/-- `entries` holds, for every key of `seen`, one of the values of highest rank seen under it. -/
structure Summary (seen entries : List (κ × ν)) : Prop where
  nodup : (entries.map Prod.fst).Nodup
  sub : ∀ e ∈ entries, e ∈ seen
  top : ∀ e ∈ entries, ∀ e' ∈ seen, e'.1 = e.1 → rank e'.2 ≤ rank e.2
  covers : ∀ e ∈ seen, e.1 ∈ entries.map Prod.fst

variable {rank} {seen entries : List (κ × ν)}

theorem summary_nil : Summary rank ([] : List (κ × ν)) [] :=
  ⟨List.nodup_nil, nofun, nofun, nofun⟩

/-- The order in which the pairs were seen does not matter. -/
theorem Summary.of_perm {seen' : List (κ × ν)} (h : Summary rank seen entries) (hperm : seen.Perm seen') :
    Summary rank seen' entries where
  nodup := h.nodup
  sub := fun e he => hperm.subset (h.sub e he)
  top := fun e he e' he' => h.top e he e' (hperm.symm.subset he')
  covers := fun e he => h.covers e (hperm.symm.subset he)

end Summaries

theorem mem_keys {l : List (κ × ν)} {k : κ} {v : ν} (h : (k, v) ∈ l) : k ∈ l.map Prod.fst :=
  List.mem_map_of_mem h

section Lookup

variable [BEq κ] [LawfulBEq κ]

theorem mem_of_lookup {l : List (κ × ν)} {k : κ} {v : ν} (h : l.lookup k = some v) : (k, v) ∈ l := by
  obtain ⟨before, after, rfl, -⟩ := List.lookup_eq_some_iff.mp h
  simp

theorem lookup_of_mem {l : List (κ × ν)} (h : (l.map Prod.fst).Nodup) {k : κ} {v : ν} (hmem : (k, v) ∈ l) :
    l.lookup k = some v := by
  induction l with
  | nil => cases hmem
  | cons e l ih =>
      obtain ⟨hnew, hrest⟩ := List.nodup_cons.mp h
      rcases List.mem_cons.mp hmem with rfl | hmem
      · exact List.lookup_cons_self
      · have hne : k ≠ e.1 := fun heq => hnew (heq ▸ mem_keys hmem)
        rw [List.lookup_cons, beq_false_of_ne hne]
        exact ih hrest hmem

theorem mem_keys_iff_lookup {l : List (κ × ν)} {k : κ} : k ∈ l.map Prod.fst ↔ (l.lookup k).isSome := by
  rw [List.lookup_isSome_iff]
  simp only [List.mem_map, beq_iff_eq]
  constructor
  · rintro ⟨e, he, rfl⟩
    exact ⟨e, he, rfl⟩
  · rintro ⟨e, he, hk⟩
    exact ⟨e, he, hk.symm⟩

variable {rank : ν → ℕ} {seen entries : List (κ × ν)}

/-- Two summaries of one stream give a key values of the same rank. -/
theorem Summary.rank_eq {entries' : List (κ × ν)} (h : Summary rank seen entries)
    (h' : Summary rank seen entries') (k : κ) :
    (entries.lookup k).map rank = (entries'.lookup k).map rank := by
  have hkeys : ∀ {l l' : List (κ × ν)}, Summary rank seen l → Summary rank seen l' →
      l.lookup k = none → l'.lookup k = none := by
    intro l l' hl hl' hnone
    cases hsome : l'.lookup k with
    | none => rfl
    | some v =>
        have hmem := mem_keys_iff_lookup.mp (hl.covers _ (hl'.sub _ (mem_of_lookup hsome)))
        rw [hnone] at hmem
        cases hmem
  cases hv : entries.lookup k with
  | none => rw [hkeys h h' hv]
  | some v =>
      cases hw : entries'.lookup k with
      | none => rw [hkeys h' h hw] at hv; cases hv
      | some w =>
          have hle := h.top _ (mem_of_lookup hv) _ (h'.sub _ (mem_of_lookup hw)) rfl
          have hge := h'.top _ (mem_of_lookup hw) _ (h.sub _ (mem_of_lookup hv)) rfl
          exact congrArg some (Nat.le_antisymm hge hle)

end Lookup

variable [DecidableEq κ]

/-! ## Association lists without repeated keys -/

/-- Set the value of a key: a key that is present keeps its place. -/
def put (k : κ) (v : ν) : List (κ × ν) → List (κ × ν)
  | [] => [(k, v)]
  | (k', v') :: rest => if k' = k then (k, v) :: rest else (k', v') :: put k v rest

theorem put_keys (k : κ) (v : ν) (l : List (κ × ν)) :
    (put k v l).map Prod.fst = if k ∈ l.map Prod.fst then l.map Prod.fst else l.map Prod.fst ++ [k] := by
  induction l with
  | nil => rfl
  | cons e l ih =>
      obtain ⟨k', v'⟩ := e
      by_cases hk : k' = k
      · simp [put, hk]
      · have hk' : k ≠ k' := Ne.symm hk
        simp only [put, if_neg hk, List.map_cons, ih, List.mem_cons, hk', false_or]
        split <;> rfl

theorem lookup_cons_eq [BEq κ] [LawfulBEq κ] (k k' : κ) (v : ν) (l : List (κ × ν)) :
    ((k, v) :: l).lookup k' = if k' = k then some v else l.lookup k' := by
  rw [List.lookup_cons]
  by_cases h : k' = k
  · rw [if_pos h, beq_iff_eq.mpr h]
  · rw [if_neg h, beq_false_of_ne h]

theorem lookup_put [BEq κ] [LawfulBEq κ] (k : κ) (v : ν) (l : List (κ × ν)) (k' : κ) :
    (put k v l).lookup k' = if k' = k then some v else l.lookup k' := by
  induction l with
  | nil => exact lookup_cons_eq k k' v []
  | cons e l ih =>
      obtain ⟨k₁, v₁⟩ := e
      rw [put]
      by_cases hkey : k₁ = k
      · rw [if_pos hkey, lookup_cons_eq, lookup_cons_eq, hkey]
        split <;> rfl
      · rw [if_neg hkey, lookup_cons_eq, lookup_cons_eq, ih]
        by_cases hk : k' = k
        · rw [if_pos hk, if_pos hk, hk, if_neg (Ne.symm hkey)]
        · rw [if_neg hk, if_neg hk]

theorem put_of_not_mem {k : κ} {l : List (κ × ν)} (h : k ∉ l.map Prod.fst) (v : ν) :
    put k v l = l ++ [(k, v)] := by
  induction l with
  | nil => rfl
  | cons e l ih =>
      obtain ⟨k', v'⟩ := e
      rw [List.map_cons, List.mem_cons, not_or] at h
      rw [put, if_neg (Ne.symm h.1), ih h.2, List.cons_append]

/-- Of two values for one key the second stays. -/
theorem put_put (k : κ) (v v' : ν) (l : List (κ × ν)) : put k v' (put k v l) = put k v' l := by
  induction l with
  | nil => simp [put]
  | cons e l ih =>
      obtain ⟨k₁, v₁⟩ := e
      by_cases hk : k₁ = k
      · simp [put, hk]
      · simp only [put, if_neg hk, ih]

theorem lookup_foldl_put [BEq κ] [LawfulBEq κ] (es l : List (κ × ν)) {k : κ} (h : k ∉ es.map Prod.fst) :
    (es.foldl (fun l e => put e.1 e.2 l) l).lookup k = l.lookup k := by
  induction es generalizing l with
  | nil => rfl
  | cons e es ih =>
      rw [List.map_cons, List.mem_cons, not_or] at h
      rw [List.foldl_cons, ih _ h.2, lookup_put, if_neg h.1]

/-- Entries with keys of their own are added in order. -/
theorem foldl_put (es l : List (κ × ν)) (h : ((l ++ es).map Prod.fst).Nodup) :
    es.foldl (fun l e => put e.1 e.2 l) l = l ++ es := by
  induction es generalizing l with
  | nil => exact (List.append_nil l).symm
  | cons e es ih =>
      have hnew : e.1 ∉ l.map Prod.fst := by
        rw [List.map_append, List.nodup_append] at h
        exact fun hmem => h.2.2 e.1 hmem e.1 (by simp) rfl
      rw [List.foldl_cons, put_of_not_mem hnew, ih _ (by simpa using h), List.append_assoc,
        List.singleton_append]

theorem put_nodup {l : List (κ × ν)} (h : (l.map Prod.fst).Nodup) (k : κ) (v : ν) :
    ((put k v l).map Prod.fst).Nodup := by
  rw [put_keys]
  split
  · exact h
  · rename_i hk
    exact List.nodup_append.mpr ⟨h, List.nodup_singleton k, by
      rintro a ha b hb rfl
      rw [List.mem_singleton] at hb
      exact hk (hb ▸ ha)⟩

theorem mem_of_mem_put {k : κ} {v : ν} {l : List (κ × ν)} {e : κ × ν} (h : e ∈ put k v l) :
    e = (k, v) ∨ e ∈ l := by
  induction l with
  | nil => exact Or.inl (List.mem_singleton.mp h)
  | cons e' l ih =>
      obtain ⟨k', v'⟩ := e'
      rw [put] at h
      split at h
      · exact (List.mem_cons.mp h).imp id (List.mem_cons_of_mem _)
      · rcases List.mem_cons.mp h with rfl | h
        · exact Or.inr (List.mem_cons_self ..)
        · exact (ih h).imp id (List.mem_cons_of_mem _)

theorem mem_put {l : List (κ × ν)} (h : (l.map Prod.fst).Nodup) (k : κ) (v : ν) (e : κ × ν) :
    e ∈ put k v l ↔ e = (k, v) ∨ e ∈ l ∧ e.1 ≠ k := by
  induction l with
  | nil => simp [put]
  | cons e' l ih =>
      obtain ⟨k', v'⟩ := e'
      obtain ⟨hnew, hrest⟩ := List.nodup_cons.mp h
      by_cases hk : k' = k
      · subst hk
        have hother : ∀ e ∈ l, e.1 ≠ k' := by
          rintro ⟨_, w⟩ he rfl
          exact hnew (mem_keys he)
        simp only [put, if_true, List.mem_cons]
        constructor
        · rintro (rfl | he)
          · exact Or.inl rfl
          · exact Or.inr ⟨Or.inr he, hother e he⟩
        · rintro (rfl | ⟨rfl | he, hne⟩)
          · exact Or.inl rfl
          · exact absurd rfl hne
          · exact Or.inr he
      · simp only [put, if_neg hk, List.mem_cons, ih hrest]
        constructor
        · rintro (rfl | rfl | ⟨he, hne⟩)
          · exact Or.inr ⟨Or.inl rfl, hk⟩
          · exact Or.inl rfl
          · exact Or.inr ⟨Or.inr he, hne⟩
        · rintro (rfl | ⟨rfl | he, hne⟩)
          · exact Or.inr (Or.inl rfl)
          · exact Or.inl rfl
          · exact Or.inr (Or.inr ⟨he, hne⟩)

variable {rank : ν → ℕ} {seen entries : List (κ × ν)}

/-- Putting a pair that no other pair of its key exceeds. -/
theorem Summary.put (h : Summary rank seen entries) (e : κ × ν)
    (htop : ∀ e' ∈ seen, e'.1 = e.1 → rank e'.2 ≤ rank e.2) :
    Summary rank (seen ++ [e]) (put e.1 e.2 entries) where
  nodup := put_nodup h.nodup e.1 e.2
  sub := by
    intro e' he'
    rcases (mem_put h.nodup _ _ _).mp he' with rfl | ⟨he', -⟩
    · exact List.mem_append_right _ (List.mem_singleton_self e)
    · exact List.mem_append_left _ (h.sub e' he')
  top := by
    intro e' he' e'' he'' hkey
    rcases List.mem_append.mp he'' with hseen | hnew
    · rcases (mem_put h.nodup _ _ _).mp he' with rfl | ⟨he', -⟩
      · exact htop e'' hseen hkey
      · exact h.top e' he' e'' hseen hkey
    · obtain rfl := List.mem_singleton.mp hnew
      rcases (mem_put h.nodup _ _ _).mp he' with rfl | ⟨-, hne⟩
      · exact Nat.le_refl _
      · exact absurd hkey.symm hne
  covers := by
    intro e' he'
    rw [put_keys]
    rcases List.mem_append.mp he' with hseen | hnew
    · have hmem := h.covers e' hseen
      split
      · exact hmem
      · exact List.mem_append_left _ hmem
    · obtain rfl := List.mem_singleton.mp hnew
      split
      · assumption
      · exact List.mem_append_right _ (List.mem_singleton_self _)

/-! ## Keeping the highest -/

variable [BEq κ]

variable (rank) in
/-- One more pair: a key that is present gets the new value only if that has the higher rank. -/
def keep (entries : List (κ × ν)) (e : κ × ν) : List (κ × ν) :=
  match entries.lookup e.1 with
  | none => put e.1 e.2 entries
  | some old => if rank e.2 > rank old then put e.1 e.2 entries else entries

theorem keep_of_lookup_none {k : κ} (h : entries.lookup k = none) (v : ν) :
    keep rank entries (k, v) = put k v entries := by
  simp only [keep, h]

theorem keep_of_lookup_some {k : κ} {old : ν} (h : entries.lookup k = some old) (v : ν) :
    keep rank entries (k, v) = if rank v > rank old then put k v entries else entries := by
  simp only [keep, h]

variable [LawfulBEq κ]

theorem Summary.keep (h : Summary rank seen entries) (e : κ × ν) :
    Summary rank (seen ++ [e]) (keep rank entries e) := by
  unfold KeyedMax.keep
  cases hlookup : entries.lookup e.1 with
  | none =>
      -- nothing has been seen under this key
      refine h.put e fun e' he' hkey => ?_
      have hmem := mem_keys_iff_lookup.mp (h.covers e' he')
      rw [hkey, hlookup] at hmem
      cases hmem
  | some old =>
      have hold : (e.1, old) ∈ entries := mem_of_lookup hlookup
      show Summary rank (seen ++ [e]) (if rank e.2 > rank old then KeyedMax.put e.1 e.2 entries else entries)
      split
      · rename_i hgt
        refine h.put e fun e' he' hkey => ?_
        have hle : rank e'.2 ≤ rank old := h.top (e.1, old) hold e' he' hkey
        omega
      · rename_i hle
        refine ⟨h.nodup, fun e' he' => List.mem_append_left _ (h.sub e' he'), ?_, ?_⟩
        · intro e' he' e'' he'' hkey
          rcases List.mem_append.mp he'' with hseen | hnew
          · exact h.top e' he' e'' hseen hkey
          · obtain rfl := List.mem_singleton.mp hnew
            have hlookup' := lookup_of_mem h.nodup he'
            rw [← hkey, hlookup, Option.some.injEq] at hlookup'
            rw [← hlookup']
            omega
        · intro e' he'
          rcases List.mem_append.mp he' with hseen | hnew
          · exact h.covers e' hseen
          · obtain rfl := List.mem_singleton.mp hnew
            exact mem_keys hold

/-- Folding a whole stream. -/
theorem Summary.foldl (h : Summary rank seen entries) (es : List (κ × ν)) :
    Summary rank (seen ++ es) (es.foldl (KeyedMax.keep rank) entries) := by
  induction es generalizing seen entries with
  | nil => simpa using h
  | cons e es ih =>
      have hnext := ih (h.keep e)
      rwa [List.append_assoc, List.singleton_append] at hnext

theorem summary_foldl (es : List (κ × ν)) : Summary rank es (es.foldl (KeyedMax.keep rank) []) :=
  summary_nil.foldl es

end UnicoreTsi.KeyedMax
