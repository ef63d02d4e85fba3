/-
# UnicoreTsi.Lib.Framing — sequences delimited by an end mark.

`stream mark fs` sends the sequences `fs` one after the other, each followed by the mark; `frames mark xs`
is what a reader makes of `xs` that takes every mark as the end of a frame.  Nothing escapes a mark inside a
frame, so the reader gets back what was sent exactly when no frame contains the mark
(`frames_stream_iff`).  `pieces mark xs` is what a reader is handed that keeps the marks, and what is left at the end;
a stream that is cut off does not contain its last frame as a piece (`not_mem_pieces_take`).
-/
import Mathlib.Data.List.Basic
import Mathlib.Data.List.DropRight
import Mathlib.Data.List.Infix

set_option autoImplicit false

namespace UnicoreTsi.Framing

variable {α : Type} {mark : α}

/-- The given frames, each followed by the mark. -/
def stream (mark : α) (fs : List (List α)) : List α := fs.flatMap (· ++ [mark])

@[simp] theorem stream_nil : stream mark [] = [] := rfl

@[simp] theorem stream_cons (f : List α) (fs : List (List α)) :
    stream mark (f :: fs) = f ++ mark :: stream mark fs := by simp [stream]

@[simp] theorem stream_append (fs gs : List (List α)) :
    stream mark (fs ++ gs) = stream mark fs ++ stream mark gs := by simp [stream]

variable [DecidableEq α]

/-- The frames a reader has completed; what follows the last mark is not one. -/
def frames (mark : α) (xs : List α) : List (List α) := (xs.splitOn mark).dropLast

/-- Every sequence is free of the mark, or a frame free of it, the mark, and a sequence. -/
theorem cases_frame (mark : α) (xs : List α) :
    mark ∉ xs ∨ ∃ f rest, mark ∉ f ∧ xs = f ++ mark :: rest := by
  by_cases h : mark ∈ xs
  · obtain ⟨f, rest, hxs, hf⟩ := List.eq_append_cons_of_mem h
    exact Or.inr ⟨f, rest, hf, hxs⟩
  · exact Or.inl h

/-- Induction frame by frame: the unterminated rest first, then one more frame in front. -/
theorem frameInduction (mark : α) {motive : List α → Prop} (tail : ∀ t, mark ∉ t → motive t)
    (frame : ∀ f rest, mark ∉ f → motive rest → motive (f ++ mark :: rest)) (xs : List α) :
    motive xs := by
  induction h : xs.length using Nat.strong_induction_on generalizing xs with
  | _ n ih =>
      subst h
      rcases cases_frame mark xs with hxs | ⟨f, rest, hf, rfl⟩
      · exact tail xs hxs
      · refine frame f rest hf (ih rest.length ?_ rest rfl)
        simp only [List.length_append, List.length_cons]
        omega

@[simp] theorem frames_of_not_mem {t : List α} (ht : mark ∉ t) : frames mark t = [] := by
  simp [frames, List.splitOn_eq_singleton ht]

@[simp] theorem frames_append_mark {f : List α} (hf : mark ∉ f) (rest : List α) :
    frames mark (f ++ mark :: rest) = f :: frames mark rest := by
  rw [frames, List.splitOn_append_cons_self_of_not_mem hf,
    List.dropLast_cons_of_ne_nil (List.splitOn_ne_nil _ _), frames]

theorem frames_stream {fs : List (List α)} (h : ∀ f ∈ fs, mark ∉ f) :
    frames mark (stream mark fs) = fs := by
  induction fs with
  | nil => simp
  | cons f fs ih =>
      rw [stream_cons, frames_append_mark (h f List.mem_cons_self)]
      rw [ih fun g hg => h g (List.mem_cons_of_mem f hg)]

theorem not_mem_of_mem_frames (xs : List α) : ∀ f ∈ frames mark xs, mark ∉ f := by
  induction xs using frameInduction mark with
  | tail t ht => simp [ht]
  | frame f rest hf ih =>
      rw [frames_append_mark hf]
      intro g hg
      rcases List.mem_cons.mp hg with rfl | hg
      · exact hf
      · exact ih g hg

/-- A reader gets back the frames that were sent exactly when none of them contains the mark. -/
theorem frames_stream_iff {fs : List (List α)} :
    frames mark (stream mark fs) = fs ↔ ∀ f ∈ fs, mark ∉ f := by
  constructor
  · intro h f hf
    rw [← h] at hf
    exact not_mem_of_mem_frames _ f hf
  · exact frames_stream

theorem mem_of_mem_frames {x : α} (xs : List α) : ∀ f ∈ frames mark xs, x ∈ f → x ∈ xs := by
  induction xs using frameInduction mark with
  | tail t ht => simp [ht]
  | frame f rest hf ih =>
      rw [frames_append_mark hf]
      intro g hg hx
      rcases List.mem_cons.mp hg with rfl | hg
      · exact List.mem_append_left _ hx
      · exact List.mem_append_right _ (List.mem_cons_of_mem mark (ih g hg hx))

/-! ## Sequences that end with a mark -/

/-- The sequence is empty or ends with the mark: it is the stream of its frames. -/
def Terminated (mark : α) (xs : List α) : Prop := stream mark (frames mark xs) = xs

theorem terminated_nil : Terminated mark [] := by simp [Terminated]

theorem terminated_append_mark (xs : List α) : Terminated mark (xs ++ [mark]) := by
  unfold Terminated
  induction xs using frameInduction mark with
  | tail t ht => simp [ht]
  | frame f rest hf ih =>
      rw [List.append_assoc, List.cons_append, frames_append_mark hf, stream_cons, ih]

/-- A sequence that ends with the mark can be read by itself. -/
theorem Terminated.frames_append {xs : List α} (h : Terminated mark xs) (ys : List α) :
    frames mark (xs ++ ys) = frames mark xs ++ frames mark ys := by
  have hread : ∀ fs : List (List α), (∀ f ∈ fs, mark ∉ f) →
      frames mark (stream mark fs ++ ys) = fs ++ frames mark ys := by
    intro fs hfs
    induction fs with
    | nil => simp
    | cons f fs ih =>
        rw [stream_cons, List.append_assoc, List.cons_append,
          frames_append_mark (hfs f List.mem_cons_self),
          ih fun g hg => hfs g (List.mem_cons_of_mem f hg), List.cons_append]
  have hxs := hread (frames mark xs) (not_mem_of_mem_frames xs)
  rwa [show stream mark (frames mark xs) = xs from h] at hxs

theorem Terminated.append {xs ys : List α} (hx : Terminated mark xs) (hy : Terminated mark ys) :
    Terminated mark (xs ++ ys) := by
  have hx' : stream mark (frames mark xs) = xs := hx
  have hy' : stream mark (frames mark ys) = ys := hy
  unfold Terminated
  rw [hx.frames_append, stream_append, hx', hy']

/-! ## Pieces that keep their mark -/

/-- What a reader is handed that takes every mark as the end of a piece and keeps it; the last piece has no mark if
the sequence does not end with one. -/
def pieces (mark : α) : List α → List (List α)
  | [] => []
  | x :: xs =>
      if x = mark then [x] :: pieces mark xs
      else
        match pieces mark xs with
        | [] => [[x]]
        | p :: ps => (x :: p) :: ps

@[simp] theorem pieces_nil : pieces mark [] = [] := rfl

theorem pieces_of_not_mem {t : List α} (ht : mark ∉ t) (hne : t ≠ []) : pieces mark t = [t] := by
  induction t with
  | nil => exact absurd rfl hne
  | cons x t ih =>
      rw [List.mem_cons, not_or] at ht
      rw [pieces, if_neg (Ne.symm ht.1)]
      by_cases hempty : t = []
      · rw [hempty, pieces_nil]
      · rw [ih ht.2 hempty]

theorem pieces_append_mark {f : List α} (hf : mark ∉ f) (rest : List α) :
    pieces mark (f ++ mark :: rest) = (f ++ [mark]) :: pieces mark rest := by
  induction f with
  | nil => rw [List.nil_append, pieces, if_pos rfl, List.nil_append]
  | cons x f ih =>
      rw [List.mem_cons, not_or] at hf
      rw [List.cons_append, pieces, if_neg (Ne.symm hf.1), ih hf.2, List.cons_append]

/-- Whole frames in front are pieces of their own. -/
theorem pieces_stream_append {fs : List (List α)} (h : ∀ f ∈ fs, mark ∉ f) (rest : List α) :
    pieces mark (stream mark fs ++ rest) = fs.map (· ++ [mark]) ++ pieces mark rest := by
  induction fs with
  | nil => rw [stream_nil, List.nil_append, List.map_nil, List.nil_append]
  | cons f fs ih =>
      rw [stream_cons, List.append_assoc, List.cons_append, pieces_append_mark (h f List.mem_cons_self),
        ih fun g hg => h g (List.mem_cons_of_mem f hg), List.map_cons, List.cons_append]

theorem flatten_pieces (xs : List α) : (pieces mark xs).flatten = xs := by
  induction xs using frameInduction mark with
  | tail t ht =>
      by_cases hempty : t = []
      · rw [hempty, pieces_nil, List.flatten_nil]
      · rw [pieces_of_not_mem ht hempty, List.flatten_singleton]
  | frame f rest hf ih =>
      rw [pieces_append_mark hf, List.flatten_cons, ih, List.append_assoc, List.singleton_append]

/-- A sequence that ends with the mark can be read by itself. -/
theorem Terminated.pieces_append {xs : List α} (h : Terminated mark xs) (ys : List α) :
    pieces mark (xs ++ ys) = pieces mark xs ++ pieces mark ys := by
  have hstream : stream mark (frames mark xs) = xs := h
  have hfree : ∀ f ∈ frames mark xs, mark ∉ f := not_mem_of_mem_frames xs
  have hxs := pieces_stream_append hfree []
  have hys := pieces_stream_append hfree ys
  rw [hstream] at hxs hys
  rw [List.append_nil, pieces_nil, List.append_nil] at hxs
  rw [hys, hxs]

/-- The last of some frames is not there as long as its mark is missing. -/
theorem not_mem_pieces_take {fs : List (List α)} (hfs : ∀ f ∈ fs, mark ∉ f) {last : List α} (hlast : mark ∉ last)
    (hother : last ∉ fs) {n : Nat} (hn : n < (stream mark (fs ++ [last])).length) :
    last ++ [mark] ∉ pieces mark ((stream mark (fs ++ [last])).take n) := by
  -- a sequence without a mark has no piece that ends with one
  have hcut : ∀ (f rest : List α) (k : Nat), mark ∉ f → k < f.length + 1 →
      last ++ [mark] ∉ pieces mark ((f ++ mark :: rest).take k) := by
    intro f rest k hf hk hmem
    rw [List.take_append_of_le_length (by omega)] at hmem
    have hfree : mark ∉ f.take k := fun h => hf (List.mem_of_mem_take h)
    by_cases hempty : f.take k = []
    · rw [hempty, pieces_nil] at hmem
      exact absurd hmem List.not_mem_nil
    · rw [pieces_of_not_mem hfree hempty, List.mem_singleton] at hmem
      refine hfree ?_
      rw [← hmem]
      exact List.mem_append_right _ List.mem_cons_self
  induction fs generalizing n with
  | nil =>
      rw [List.nil_append, stream_cons, stream_nil, List.length_append, List.length_singleton] at hn
      rw [List.nil_append, stream_cons]
      exact hcut last _ n hlast hn
  | cons f fs ih =>
      rw [List.mem_cons, not_or] at hother
      have hf : mark ∉ f := hfs f List.mem_cons_self
      rw [List.cons_append, stream_cons] at hn ⊢
      rcases Nat.lt_or_ge n (f.length + 1) with hshort | hlong
      · exact hcut f _ n hf hshort
      · obtain ⟨k, rfl⟩ := Nat.exists_eq_add_of_le hlong
        have hrest : k < (stream mark (fs ++ [last])).length := by
          rw [List.length_append, List.length_cons] at hn
          omega
        have htake : (f ++ mark :: stream mark (fs ++ [last])).take (f.length + 1 + k) =
            f ++ mark :: (stream mark (fs ++ [last])).take k := by
          rw [Nat.add_assoc, List.take_length_add_append, Nat.add_comm 1 k, List.take_succ_cons]
        rw [htake, pieces_append_mark hf, List.mem_cons, not_or]
        refine ⟨fun heq => hother.1 (List.append_cancel_right heq), ?_⟩
        exact ih (fun g hg => hfs g (List.mem_cons_of_mem f hg)) hother.2 hrest

end UnicoreTsi.Framing
