/-
# UnicoreTsi.Lib.Patch — a file that is put together from pieces of another one.

`patch fill buf pos data` is the file `buf` after `data` has been written at place `pos`, as a file system does
it: what was there is overwritten, the file grows where it was too short, and a gap before the data is filled.
A piece whose data is what the stream `d` has at its place never spoils what an earlier one got right, so the
places that hold the element of `d` only ever grow, in whatever order the pieces come and however they
overlap (`Holds.patches`).
-/
import Mathlib.Data.List.Basic
import Mathlib.Data.Set.Basic

set_option autoImplicit false

namespace UnicoreTsi.Patch

variable {α : Type} {fill : α}

/-! ## One write -/

/-- The buffer after `data` has been written at place `pos`. -/
def patch (fill : α) (buf : List α) (pos : Nat) (data : List α) : List α :=
  if data = [] then buf
  else (buf ++ List.replicate (pos - buf.length) fill).take pos ++ (data ++ buf.drop (pos + data.length))

@[simp] theorem patch_nil (buf : List α) (pos : Nat) : patch fill buf pos [] = buf := if_pos rfl

theorem length_front (buf : List α) (pos : Nat) :
    ((buf ++ List.replicate (pos - buf.length) fill).take pos).length = pos := by
  simp only [List.length_take, List.length_append, List.length_replicate]
  omega

theorem length_patch {buf data : List α} {pos : Nat} (hdata : data ≠ []) :
    (patch fill buf pos data).length = max buf.length (pos + data.length) := by
  rw [patch, if_neg hdata, List.length_append, length_front, List.length_append, List.length_drop]
  omega

/-- What the file has at each place after a write. -/
theorem getElem?_patch {buf data : List α} {pos : Nat} (hdata : data ≠ []) (j : Nat) :
    (patch fill buf pos data)[j]? =
      if j < pos then if j < buf.length then buf[j]? else some fill
      else if j < pos + data.length then data[j - pos]? else buf[j]? := by
  rw [patch, if_neg hdata, List.getElem?_append, length_front]
  split
  · rename_i hbefore
    rw [List.getElem?_take_of_lt hbefore, List.getElem?_append]
    split
    · rfl
    · rw [List.getElem?_replicate, if_pos (by omega)]
  · rename_i hafter
    rw [List.getElem?_append]
    split
    · rw [if_pos (by omega)]
    · rename_i hpast
      rw [if_neg (by omega), List.getElem?_drop]
      congr 1
      omega

/-- What the write does not reach stays. -/
theorem getElem?_patch_outside {buf data : List α} {pos j : Nat} (hj : j < buf.length)
    (hout : ¬ (pos ≤ j ∧ j < pos + data.length)) : (patch fill buf pos data)[j]? = buf[j]? := by
  rcases eq_or_ne data [] with rfl | hdata
  · rw [patch_nil]
  · rw [getElem?_patch hdata]
    by_cases hbefore : j < pos
    · rw [if_pos hbefore, if_pos hj]
    · rw [if_neg hbefore, if_neg (by omega)]

/-- Written block by block or at once, the file comes out the same. -/
theorem patch_append (buf data more : List α) (pos : Nat) :
    patch fill (patch fill buf pos data) (pos + data.length) more = patch fill buf pos (data ++ more) := by
  rcases eq_or_ne data [] with rfl | hdata
  · simp
  rcases eq_or_ne more [] with rfl | hmore
  · simp
  apply List.ext_getElem?
  intro j
  have hboth : data ++ more ≠ [] := by simp [hdata]
  rw [getElem?_patch hmore, getElem?_patch hdata, getElem?_patch hboth, length_patch hdata, List.length_append,
    List.getElem?_append]
  by_cases hbefore : j < pos
  · rw [if_pos (by omega), if_pos hbefore, if_pos hbefore]
    split
    · rfl
    · rw [if_neg (by omega)]
  · by_cases hfirst : j < pos + data.length
    · rw [if_pos hfirst, if_neg hbefore, if_pos hfirst, if_neg hbefore, if_pos (by omega : j < pos + _),
        if_pos (by omega : j - pos < _), if_pos (by omega)]
    · rw [if_neg hfirst, if_neg hbefore, if_neg hfirst, if_neg (by omega : ¬ j - pos < _), if_neg hbefore]
      have hplace : j - pos - data.length = j - (pos + data.length) := by omega
      rw [hplace, Nat.add_assoc]

/-! ## Pieces of one stream -/

variable {d : List α}

/-- `data` is what the stream has from place `pos` on, as far as it goes. -/
def IsPiece (d : List α) (pos : Nat) (data : List α) : Prop := data <+: d.drop pos

theorem IsPiece.getElem? {pos j : Nat} {data : List α} (h : IsPiece d pos data) (hfrom : pos ≤ j)
    (hto : j < pos + data.length) : data[j - pos]? = d[j]? := by
  obtain ⟨rest, hrest⟩ := h
  have hplace : pos + (j - pos) = j := by omega
  rw [← hplace, ← List.getElem?_drop, ← hrest, List.getElem?_append_left (by omega)]
  congr 1
  omega

/-- The places at which `buf` has what the stream has there include these. -/
def Holds (d buf : List α) (places : Set Nat) : Prop := ∀ j ∈ places, j < d.length → buf[j]? = d[j]?

theorem Holds.mono {buf : List α} {places places' : Set Nat} (h : Holds d buf places) (hsub : places' ⊆ places) :
    Holds d buf places' := fun j hj => h j (hsub hj)

/-- The places that the write reaches. -/
def reach (pos : Nat) (data : List α) : Set Nat := { j | pos ≤ j ∧ j < pos + data.length }

/-- A piece gets its own places right and spoils none. -/
theorem Holds.patch {buf data : List α} {pos : Nat} {places : Set Nat} (h : Holds d buf places)
    (hpiece : IsPiece d pos data) : Holds d (patch fill buf pos data) (places ∪ reach pos data) := by
  intro j hj hlt
  by_cases hin : pos ≤ j ∧ j < pos + data.length
  · have hdata : data ≠ [] := by
      rintro rfl
      simp at hin
      omega
    rw [getElem?_patch hdata, if_neg (by omega), if_pos hin.2]
    exact hpiece.getElem? hin.1 hin.2
  · have hmem : j ∈ places := hj.resolve_right hin
    have hsame := h j hmem hlt
    have hthere : j < buf.length := by
      have hsome : buf[j]?.isSome := by simp [hsame, hlt]
      simpa using hsome
    rw [getElem?_patch_outside hthere hin]
    exact hsame

/-- The file after a number of writes. -/
def patches (fill : α) (buf : List α) (pieces : List (Nat × List α)) : List α :=
  pieces.foldl (fun b p => patch fill b p.1 p.2) buf

theorem patches_cons (buf : List α) (p : Nat × List α) (pieces : List (Nat × List α)) :
    patches fill buf (p :: pieces) = patches fill (patch fill buf p.1 p.2) pieces := rfl

/-- Pieces of one stream, in any order. -/
theorem Holds.patches {pieces : List (Nat × List α)} {buf : List α} {places : Set Nat} (h : Holds d buf places)
    (hpieces : ∀ p ∈ pieces, IsPiece d p.1 p.2) :
    Holds d (patches fill buf pieces) (places ∪ { j | ∃ p ∈ pieces, j ∈ reach p.1 p.2 }) := by
  induction pieces generalizing buf places with
  | nil => exact h.mono (by simp)
  | cons p pieces ih =>
      rw [List.forall_mem_cons] at hpieces
      refine (ih (h.patch hpieces.1) hpieces.2).mono ?_
      rintro j (hj | ⟨q, hq, hj⟩)
      · exact Or.inl (Or.inl hj)
      · rcases List.mem_cons.mp hq with rfl | hq
        · exact Or.inl (Or.inr hj)
        · exact Or.inr ⟨q, hq, hj⟩

theorem getElem?_patches_outside {pieces : List (Nat × List α)} {buf : List α} {j : Nat} (hj : j < buf.length)
    (hout : ∀ p ∈ pieces, j ∉ reach p.1 p.2) : (patches fill buf pieces)[j]? = buf[j]? := by
  induction pieces generalizing buf with
  | nil => rfl
  | cons p pieces ih =>
      rw [List.forall_mem_cons] at hout
      have hkept := @getElem?_patch_outside _ fill _ _ _ _ hj hout.1
      have hlonger : j < (patch fill buf p.1 p.2).length := by
        have hsome : (patch fill buf p.1 p.2)[j]?.isSome := by simp [hkept, hj]
        simpa using hsome
      rw [patches_cons, ih hlonger hout.2, hkept]

/-- No piece of the stream makes the file longer than the stream. -/
theorem length_patches_le {pieces : List (Nat × List α)} {buf : List α} (hbuf : buf.length ≤ d.length)
    (hpieces : ∀ p ∈ pieces, IsPiece d p.1 p.2) : (patches fill buf pieces).length ≤ d.length := by
  induction pieces generalizing buf with
  | nil => exact hbuf
  | cons p pieces ih =>
      rw [List.forall_mem_cons] at hpieces
      refine ih ?_ hpieces.2
      show (patch fill buf p.1 p.2).length ≤ d.length
      rcases eq_or_ne p.2 [] with hnil | hdata
      · rw [hnil, patch_nil]
        exact hbuf
      · have hlen := hpieces.1.length_le
        have hpos : 0 < p.2.length := List.length_pos_of_ne_nil hdata
        rw [List.length_drop] at hlen
        rw [length_patch hdata]
        omega

/-- A file no longer than the stream that has every place right is the stream. -/
theorem Holds.eq {buf : List α} {places : Set Nat} (h : Holds d buf places) (hall : ∀ j < d.length, j ∈ places)
    (hlen : buf.length ≤ d.length) : buf = d := by
  apply List.ext_getElem?
  intro j
  by_cases hj : j < d.length
  · exact h j (hall j hj) hj
  · rw [List.getElem?_eq_none (by omega), List.getElem?_eq_none (by omega)]

end UnicoreTsi.Patch
