/-
# UnicoreTsi.Lib.Forest — ordered forests of files and directories, and two ways to write them down.

A `Forest α` is what one directory holds, in order: files with a label, and directories with a label and a
forest of their own.  `preorder` writes a directory before its contents and marks the end of the contents;
`readMarks` reads a forest back from that.  `postorder` writes a directory after its contents and the mark.
The two agree on flat forests only (`postorder_eq_preorder_iff`).

A walk in the second order may be stopped on entering a directory.  `visits` is the whole walk, `reached` the part
before the first stop; what the walk puts out is complete just when nothing to be put out comes after the stop
(`perm_reached_iff`).
-/
import Mathlib.Data.List.Basic
import Mathlib.Data.List.TakeWhile

set_option autoImplicit false

namespace UnicoreTsi.Forests

/-- What a directory holds. -/
inductive Forest (α : Type) where
  | nil
  | file (label : α) (rest : Forest α)
  | dir (label : α) (contents rest : Forest α)
  deriving DecidableEq, Repr

/-- A label, of a directory or not, or the end of the contents of a directory. -/
inductive Mark (α : Type) where
  | entry (isDir : Bool) (label : α)
  | up
  deriving DecidableEq, Repr

variable {α : Type}

/-- A directory is written before its contents. -/
def Forest.preorder : Forest α → List (Mark α)
  | .nil => []
  | .file label rest => .entry false label :: rest.preorder
  | .dir label contents rest => .entry true label :: contents.preorder ++ .up :: rest.preorder

/-- A directory is written after its contents. -/
def Forest.postorder : Forest α → List (Mark α)
  | .nil => []
  | .file label rest => .entry false label :: rest.postorder
  | .dir label contents rest => contents.postorder ++ .up :: .entry true label :: rest.postorder

/-- There are no directories. -/
def Forest.Flat : Forest α → Prop
  | .nil => True
  | .file _ rest => rest.Flat
  | .dir _ _ _ => False

/-- How many directories are nested, at most. -/
def Forest.height : Forest α → Nat
  | .nil => 0
  | .file _ rest => rest.height
  | .dir _ contents rest => max (contents.height + 1) rest.height

theorem Forest.height_of_flat {f : Forest α} (h : f.Flat) : f.height = 0 := by
  induction f with
  | nil => rfl
  | file label rest ih => exact ih h
  | dir label contents rest => exact h.elim

/-! ## Reading -/

/-- Read one mark, from the right: on top of the stack is what has been read of the directory the mark is in. -/
def readMark : Mark α → List (Forest α) → List (Forest α)
  | .up, stack => .nil :: stack
  | .entry false label, rest :: stack => .file label rest :: stack
  | .entry true label, contents :: rest :: stack => .dir label contents rest :: stack
  | .entry _ _, stack => stack

/-- Read a forest from the right, so that the contents of a directory are there when its own entry comes. -/
def readMarks (marks : List (Mark α)) : Option (Forest α) :=
  match marks.foldr readMark [.nil] with
  | [f] => some f
  | _ => none

theorem foldr_readMark_preorder (f : Forest α) (stack : List (Forest α)) :
    f.preorder.foldr readMark (.nil :: stack) = f :: stack := by
  induction f generalizing stack with
  | nil => rfl
  | file label rest ih => rw [Forest.preorder, List.foldr_cons, ih, readMark]
  | dir label contents rest ihc ihr =>
      rw [Forest.preorder, List.cons_append, List.foldr_cons, List.foldr_append, List.foldr_cons, ihr, readMark, ihc,
        readMark]

/-- The preorder determines the forest. -/
theorem readMarks_preorder (f : Forest α) : readMarks f.preorder = some f := by
  rw [readMarks, foldr_readMark_preorder]

/-! ## The two orders -/

/-- Contents written first do not begin with the entry of a directory. -/
theorem postorder_up_head (f : Forest α) (label : α) (marks : List (Mark α)) :
    (f.postorder ++ .up :: marks).head? ≠ some (.entry true label) := by
  induction f generalizing marks with
  | nil => simp [Forest.postorder]
  | file label' rest => simp [Forest.postorder]
  | dir label' contents rest ihc ihr =>
      rw [Forest.postorder, List.append_assoc, List.cons_append]
      exact ihc _

theorem postorder_eq_preorder_iff (f : Forest α) : f.postorder = f.preorder ↔ f.Flat := by
  induction f with
  | nil => exact ⟨fun _ => trivial, fun _ => rfl⟩
  | file label rest ih =>
      rw [Forest.postorder, Forest.preorder, Forest.Flat, ← ih]
      exact ⟨fun h => (List.cons.inj h).2, fun h => by rw [h]⟩
  | dir label contents rest =>
      constructor
      · intro h
        apply postorder_up_head contents label (.entry true label :: rest.postorder)
        rw [Forest.postorder, Forest.preorder] at h
        rw [h]
        rfl
      · exact False.elim

/-! ## Walks that are stopped -/

/-- The labels in the directory itself. -/
def Forest.top : Forest α → List α
  | .nil => []
  | .file label rest => label :: rest.top
  | .dir label _ rest => label :: rest.top

/-- A step of a walk: a directory is entered, or refuses to be; it is left; a label is looked at. -/
inductive Visit (α ε : Type) where
  | enter (refusal : Option ε)
  | leave
  | member (label : α)
  deriving DecidableEq, Repr

variable {ε β : Type}

def Visit.refusal : Visit α ε → Option ε
  | .enter refusal => refusal
  | .leave => none
  | .member _ => none

def Visit.label : Visit α ε → Option α
  | .enter _ => none
  | .leave => none
  | .member label => some label

section Walks

variable (refusal : α → Option ε) (overflow : ε)

/-- The labels in all directories that can be entered. -/
def Forest.entered : Forest α → List α
  | .nil => []
  | .file label rest => label :: rest.entered
  | .dir label contents rest => label :: ((if (refusal label).isSome then [] else contents.entered) ++ rest.entered)

/-- The walk through a forest, when so many directories can be nested. -/
def Forest.visits : ℕ → Forest α → List (Visit α ε)
  | _, .nil => []
  | depth, .file label rest => .member label :: rest.visits depth
  | depth, .dir label contents rest =>
      .enter (if depth = 0 then some overflow else refusal label) ::
        ((if (refusal label).isSome then [] else contents.visits (depth - 1)) ++
          .leave :: .member label :: rest.visits depth)

/-- The walk looks at every label once. -/
theorem visits_labels (depth : ℕ) (f : Forest α) :
    ((f.visits refusal overflow depth).filterMap Visit.label).Perm (f.entered refusal) := by
  induction f generalizing depth with
  | nil => exact List.Perm.refl _
  | file label rest ih => exact (ih depth).cons label
  | dir label contents rest ihc ihr =>
      have hcontents : ((if (refusal label).isSome then [] else
          contents.visits refusal overflow (depth - 1)).filterMap Visit.label).Perm
            (if (refusal label).isSome then [] else contents.entered refusal) := by
        split
        · exact List.Perm.refl _
        · exact ihc (depth - 1)
      rw [Forest.visits, Forest.entered, List.filterMap_cons_none rfl, List.filterMap_append, List.filterMap_cons_none rfl,
        show (Visit.member label :: rest.visits refusal overflow depth).filterMap Visit.label =
          label :: (rest.visits refusal overflow depth).filterMap Visit.label from List.filterMap_cons_some rfl]
      exact (hcontents.append ((ihr depth).cons label)).trans List.perm_middle

end Walks

/-- The walk up to the first stop. -/
def reached (visits : List (Visit α ε)) : List (Visit α ε) := visits.takeWhile fun v => v.refusal.isNone

/-- What is left of the walk after that. -/
def missed (visits : List (Visit α ε)) : List (Visit α ε) := visits.dropWhile fun v => v.refusal.isNone

/-- What stops the walk. -/
def stopped (visits : List (Visit α ε)) : Option ε := visits.findSome? Visit.refusal

section Stops

variable {visits : List (Visit α ε)}

theorem reached_append_missed (visits : List (Visit α ε)) : reached visits ++ missed visits = visits :=
  List.takeWhile_append_dropWhile

theorem reached_append (h : stopped visits = none) (more : List (Visit α ε)) :
    reached (visits ++ more) = visits ++ reached more := by
  refine List.takeWhile_append_of_pos fun v hv => ?_
  rw [List.findSome?_eq_none_iff.mp h v hv]
  rfl

theorem reached_self (h : stopped visits = none) : reached visits = visits := by
  have hall := reached_append h []
  rwa [reached, List.append_nil, reached, List.takeWhile_nil, List.append_nil] at hall

theorem stopped_append (h : stopped visits = none) (more : List (Visit α ε)) :
    stopped (visits ++ more) = stopped more := by
  rw [stopped, List.findSome?_append, ← stopped, h]
  rfl

/-- What comes after a stop does not matter. -/
theorem append_of_stopped {e : ε} (h : stopped visits = some e) (more : List (Visit α ε)) :
    reached (visits ++ more) = reached visits ∧ stopped (visits ++ more) = some e := by
  induction visits with
  | nil => cases h
  | cons v visits ih =>
      cases hv : v.refusal with
      | some e' =>
          -- the first step stops, and neither list is looked at further
          have he : e' = e := by
            rw [stopped, List.findSome?_cons, hv] at h
            exact Option.some.inj h
          subst he
          refine ⟨?_, ?_⟩
          · rw [reached, List.cons_append, List.takeWhile_cons_of_neg (by simp [hv]), reached,
              List.takeWhile_cons_of_neg (by simp [hv])]
          · rw [stopped, List.cons_append, List.findSome?_cons, hv]
      | none =>
          have hrest : stopped visits = some e := by
            rw [stopped, List.findSome?_cons, hv] at h
            exact h
          obtain ⟨hreached, hstopped⟩ := ih hrest
          refine ⟨?_, ?_⟩
          · rw [reached, List.cons_append, List.takeWhile_cons_of_pos (by simp [hv]), reached,
              List.takeWhile_cons_of_pos (by simp [hv])]
            exact congrArg (v :: ·) hreached
          · rw [stopped, List.cons_append, List.findSome?_cons, hv]
            exact hstopped

end Stops

section Output

variable {written wanted : Visit α ε → Option β}

theorem length_filterMap_le (hsub : ∀ v b, written v = some b → wanted v = some b) (l : List (Visit α ε)) :
    (l.filterMap written).length ≤ (l.filterMap wanted).length := by
  induction l with
  | nil => exact Nat.le_refl _
  | cons v l ih =>
      cases hv : written v with
      | some b =>
          rw [List.filterMap_cons_some hv, List.filterMap_cons_some (hsub v b hv)]
          exact Nat.succ_le_succ ih
      | none =>
          rw [List.filterMap_cons_none hv]
          exact ih.trans ((List.sublist_cons_self v l).filterMap wanted).length_le

/-- As much is put out as there is only if nothing is left out. -/
theorem eq_of_length_le (hsub : ∀ v b, written v = some b → wanted v = some b) {l : List (Visit α ε)}
    (hle : (l.filterMap wanted).length ≤ (l.filterMap written).length) : ∀ v ∈ l, written v = wanted v := by
  induction l with
  | nil => exact nofun
  | cons v l ih =>
      cases hv : written v with
      | some b =>
          have hwanted := hsub v b hv
          rw [List.filterMap_cons_some hv, List.filterMap_cons_some hwanted] at hle
          exact List.forall_mem_cons.mpr ⟨hv.trans hwanted.symm, ih (Nat.le_of_succ_le_succ hle)⟩
      | none =>
          rw [List.filterMap_cons_none hv] at hle
          cases hwanted : wanted v with
          | none =>
              rw [List.filterMap_cons_none hwanted] at hle
              exact List.forall_mem_cons.mpr ⟨hv.trans hwanted.symm, ih hle⟩
          | some b =>
              rw [List.filterMap_cons_some hwanted] at hle
              exact absurd (length_filterMap_le hsub l) (Nat.not_le.mpr hle)

/-- What is put out up to the stop is all there is to put out, if and only if nothing is left out before the stop and
there is nothing after it. -/
theorem perm_reached_iff (hsub : ∀ v b, written v = some b → wanted v = some b) (visits : List (Visit α ε)) :
    ((reached visits).filterMap written).Perm (visits.filterMap wanted) ↔
      (∀ v ∈ reached visits, written v = wanted v) ∧ ∀ v ∈ missed visits, wanted v = none := by
  have hall : visits.filterMap wanted = (reached visits).filterMap wanted ++ (missed visits).filterMap wanted := by
    rw [← List.filterMap_append, reached_append_missed]
  rw [hall]
  constructor
  · intro hperm
    have hlength := hperm.length_eq
    rw [List.length_append] at hlength
    have hle := length_filterMap_le hsub (reached visits)
    refine ⟨eq_of_length_le hsub (by omega), ?_⟩
    have hnil : (missed visits).filterMap wanted = [] := List.eq_nil_of_length_eq_zero (by omega)
    exact List.filterMap_eq_nil_iff.mp hnil
  · rintro ⟨hreached, hmissed⟩
    rw [List.filterMap_eq_nil_iff.mpr hmissed, List.append_nil, List.filterMap_congr hreached]

end Output

end UnicoreTsi.Forests
