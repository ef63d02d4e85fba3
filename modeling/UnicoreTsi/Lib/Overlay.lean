/-
# UnicoreTsi.Lib.Overlay — a buffer whose front is overwritten again and again.

A stream arrives in pieces, and every piece is written over the front of one buffer.  What the buffer holds
at a place in the end is the element that the last piece long enough to reach that place put there, and its
old element if no piece was (`getElem?_overlays`).  So the buffer starts like the stream exactly if
every place is `Intact`.
-/
import Mathlib.Algebra.GroupWithZero.Nat
import Mathlib.Data.List.SplitLengths

set_option autoImplicit false

namespace UnicoreTsi.Overlay

variable {α : Type}

/-- The buffer after `data` has been written over its front. -/
def overlay (buf data : List α) : List α := data ++ buf.drop data.length

theorem length_overlay {buf data : List α} (h : data.length ≤ buf.length) :
    (overlay buf data).length = buf.length := by
  rw [overlay, List.length_append, List.length_drop]
  omega

theorem getElem?_overlay (buf data : List α) (j : Nat) :
    (overlay buf data)[j]? = if j < data.length then data[j]? else buf[j]? := by
  rw [overlay, List.getElem?_append, List.getElem?_drop]
  split
  · rfl
  · have hplace : data.length + (j - data.length) = j := by omega
    rw [hplace]

/-- The buffer after a stream has been written over its front in pieces of the given sizes. -/
def overlays (buf : List α) (sizes : List Nat) (stream : List α) : List α :=
  (sizes.splitLengths stream).foldl overlay buf

@[simp] theorem overlays_nil (buf stream : List α) : overlays buf [] stream = buf := rfl

theorem overlays_cons (buf : List α) (n : Nat) (sizes : List Nat) (stream : List α) :
    overlays buf (n :: sizes) stream = overlays (overlay buf (stream.take n)) sizes (stream.drop n) := by
  rw [overlays, List.splitLengths_cons, List.foldl_cons, overlays]

/-- The last piece to reach place `j` of the buffer starts at place `k` of the stream. -/
def LastReach (sizes : List Nat) (j k : Nat) : Prop :=
  ∃ before n after, sizes = before ++ n :: after ∧ before.sum = k ∧ j < n ∧ ∀ m ∈ after, m ≤ j

theorem LastReach.cons {sizes : List Nat} {j k : Nat} (n : Nat) (h : LastReach sizes j k) :
    LastReach (n :: sizes) j (n + k) := by
  obtain ⟨before, m, after, rfl, rfl, hreach, hafter⟩ := h
  exact ⟨n :: before, m, after, rfl, List.sum_cons, hreach, hafter⟩

/-- What the buffer holds in the end. -/
theorem getElem?_overlays (sizes : List Nat) (buf stream : List α) (h : sizes.sum ≤ stream.length)
    (j : Nat) :
    (∃ k, LastReach sizes j k ∧ (overlays buf sizes stream)[j]? = stream[k + j]?) ∨
      (∀ n ∈ sizes, n ≤ j) ∧ (overlays buf sizes stream)[j]? = buf[j]? := by
  induction sizes generalizing buf stream with
  | nil => exact Or.inr ⟨by simp, rfl⟩
  | cons n sizes ih =>
      rw [List.sum_cons] at h
      have hrest : sizes.sum ≤ (stream.drop n).length := by
        rw [List.length_drop]
        omega
      have hpiece : (stream.take n).length = n := by
        rw [List.length_take]
        omega
      rw [overlays_cons]
      rcases ih (overlay buf (stream.take n)) (stream.drop n) hrest with ⟨k, hlast, hget⟩ | ⟨hnone, hget⟩
      · refine Or.inl ⟨n + k, hlast.cons n, ?_⟩
        rw [hget, List.getElem?_drop, Nat.add_assoc]
      · rw [getElem?_overlay, hpiece] at hget
        by_cases hreach : j < n
        · -- only this piece is long enough
          rw [if_pos hreach, List.getElem?_take_of_lt hreach] at hget
          refine Or.inl ⟨0, ⟨[], n, sizes, rfl, rfl, hreach, hnone⟩, ?_⟩
          rw [hget, Nat.zero_add]
        · rw [if_neg hreach] at hget
          refine Or.inr ⟨?_, hget⟩
          rw [List.forall_mem_cons]
          exact ⟨by omega, hnone⟩

theorem LastReach.not_unreached {sizes : List Nat} {j k : Nat} (h : LastReach sizes j k) :
    ¬ ∀ n ∈ sizes, n ≤ j := by
  obtain ⟨before, n, after, rfl, -, hreach, -⟩ := h
  intro hnone
  have hle := hnone n (by simp)
  omega

/-- Which piece is the last to reach a place is determined by the sizes. -/
theorem LastReach.unique {sizes : List Nat} {j k k' : Nat} (h : LastReach sizes j k)
    (h' : LastReach sizes j k') : k = k' := by
  induction sizes generalizing k k' with
  | nil =>
      obtain ⟨before, n, after, heq, -⟩ := h
      simp at heq
  | cons m sizes ih =>
      obtain ⟨before, n, after, heq, rfl, hreach, hafter⟩ := h
      obtain ⟨before', n', after', heq', rfl, hreach', hafter'⟩ := h'
      rcases before with _ | ⟨b, before⟩ <;> rcases before' with _ | ⟨b', before'⟩ <;>
        simp only [List.nil_append, List.cons_append, List.cons.injEq] at heq heq'
      · rfl
      · exact absurd (hafter n' (by rw [← heq.2, heq'.2]; simp)) (by omega)
      · exact absurd (hafter' n (by rw [← heq'.2, heq.2]; simp)) (by omega)
      · have hsame := ih ⟨before, n, after, heq.2, rfl, hreach, hafter⟩
          ⟨before', n', after', heq'.2, rfl, hreach', hafter'⟩
        rw [List.sum_cons, List.sum_cons, hsame, ← heq.1, ← heq'.1]

/-- Place `j` of the buffer ends up with the element the stream has there. -/
def Intact (buf : List α) (sizes : List Nat) (stream : List α) (j : Nat) : Prop :=
  (∃ k, LastReach sizes j k ∧ stream[k + j]? = stream[j]?) ∨
    (∀ n ∈ sizes, n ≤ j) ∧ buf[j]? = stream[j]?

theorem intact_iff {sizes : List Nat} {buf stream : List α} (h : sizes.sum ≤ stream.length) (j : Nat) :
    Intact buf sizes stream j ↔ (overlays buf sizes stream)[j]? = stream[j]? := by
  rcases getElem?_overlays sizes buf stream h j with ⟨k, hlast, hget⟩ | ⟨hnone, hget⟩
  · rw [hget]
    constructor
    · rintro (⟨k', hlast', heq⟩ | ⟨hnone, -⟩)
      · rw [hlast.unique hlast', heq]
      · exact absurd hnone hlast.not_unreached
    · exact fun heq => Or.inl ⟨k, hlast, heq⟩
  · rw [hget]
    constructor
    · rintro (⟨k, hlast, -⟩ | ⟨-, heq⟩)
      · exact absurd hnone hlast.not_unreached
      · exact heq
    · exact fun heq => Or.inr ⟨hnone, heq⟩

/-- The buffer starts like the stream exactly if every place is intact. -/
theorem take_overlays_iff {sizes : List Nat} {buf stream : List α} (h : sizes.sum ≤ stream.length)
    (n : Nat) :
    (overlays buf sizes stream).take n = stream.take n ↔ ∀ j < n, Intact buf sizes stream j := by
  constructor
  · intro heq j hj
    rw [intact_iff h]
    have hget := congrArg (·[j]?) heq
    simpa only [List.getElem?_take_of_lt hj] using hget
  · intro hall
    apply List.ext_getElem?
    intro j
    by_cases hj : j < n
    · rw [List.getElem?_take_of_lt hj, List.getElem?_take_of_lt hj]
      exact (intact_iff h j).mp (hall j hj)
    · rw [List.getElem?_take_eq_none (by omega), List.getElem?_take_eq_none (by omega)]

/-- The buffer keeps its length when no piece is longer than it. -/
theorem length_overlays {sizes : List Nat} {buf : List α} (stream : List α)
    (h : ∀ n ∈ sizes, n ≤ buf.length) : (overlays buf sizes stream).length = buf.length := by
  induction sizes generalizing buf stream with
  | nil => rfl
  | cons n sizes ih =>
      rw [List.forall_mem_cons] at h
      have hpiece : (overlay buf (stream.take n)).length = buf.length := by
        apply length_overlay
        rw [List.length_take]
        omega
      rw [overlays_cons, ih (stream.drop n) (by rw [hpiece]; exact h.2), hpiece]

end UnicoreTsi.Overlay
