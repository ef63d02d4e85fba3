/-
# UnicoreTsi.Lib.Distinct — collecting elements without repetitions.

A loop appends what it finds unless it has it already.  What it collects are the elements in the order in which
they first occur (`distinct`), and when something is found for every element of a list, what is collected
depends on the distinct elements of the list only (`distinct_flatMap`).
-/
import Mathlib.Data.List.Induction

set_option autoImplicit false

namespace UnicoreTsi.Distinct

variable {α β : Type} [DecidableEq α] [DecidableEq β]

/-- `if a not in xs: xs.append(a)` -/
def appendNew (xs : List α) (a : α) : List α := if a ∈ xs then xs else xs ++ [a]

/-- The elements of a list, each once, in the order in which they first occur. -/
def distinct (as : List α) : List α := as.foldl appendNew []

theorem mem_appendNew {xs : List α} {a b : α} : b ∈ appendNew xs a ↔ b ∈ xs ∨ b = a := by
  unfold appendNew
  split
  · rename_i ha
    constructor
    · exact Or.inl
    · rintro (hb | rfl)
      · exact hb
      · exact ha
  · rw [List.mem_append, List.mem_singleton]

theorem mem_foldl_appendNew {as xs : List α} {b : α} : b ∈ as.foldl appendNew xs ↔ b ∈ xs ∨ b ∈ as := by
  induction as generalizing xs with
  | nil => simp
  | cons a as ih => rw [List.foldl_cons, ih, mem_appendNew, List.mem_cons, or_assoc]

theorem foldl_appendNew_of_subset {as xs : List α} (h : ∀ a ∈ as, a ∈ xs) : as.foldl appendNew xs = xs := by
  induction as with
  | nil => rfl
  | cons a as ih =>
      rw [List.forall_mem_cons] at h
      rw [List.foldl_cons, appendNew, if_pos h.1, ih h.2]

theorem distinct_concat (as : List α) (a : α) : distinct (as ++ [a]) = appendNew (distinct as) a := by
  rw [distinct, List.foldl_append]
  rfl

/-- What is collected for the elements of a list depends on which they are, and on their order, only. -/
theorem distinct_flatMap (f : α → List β) (as : List α) :
    distinct (as.flatMap f) = distinct ((distinct as).flatMap f) := by
  induction as using List.reverseRecOn with
  | nil => rfl
  | append_singleton as a ih =>
      have hsplit : ∀ bs : List α, distinct ((bs ++ [a]).flatMap f) = (f a).foldl appendNew (distinct (bs.flatMap f)) := by
        intro bs
        rw [List.flatMap_append, List.flatMap_singleton, distinct, List.foldl_append]
        rfl
      rw [hsplit, ih, distinct_concat, appendNew]
      split
      · rename_i ha
        -- everything that is found for it has been found before
        refine foldl_appendNew_of_subset ?_
        intro b hb
        refine mem_foldl_appendNew.mpr (Or.inr ?_)
        exact List.mem_flatMap.mpr ⟨a, ha, hb⟩
      · exact (hsplit (distinct as)).symm

end UnicoreTsi.Distinct
