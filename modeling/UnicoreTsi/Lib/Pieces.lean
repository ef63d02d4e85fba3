/-
# UnicoreTsi.Lib.Pieces — a store of named sequences that are written and read in pieces.

A request writes a piece to a name, in place of what is there or behind it, or it asks for a piece.  What a name holds
after a run depends on the writes to that name only (`run_name`), so requests for other names, and requests that
read, may come in between in any order.
-/
import Mathlib.Data.List.Basic
import Mathlib.Logic.Function.Basic

set_option autoImplicit false

namespace UnicoreTsi.Pieces

/-- A request for names in `ν` and sequences over `α`. -/
inductive Request (ν α : Type) where
  | put (name : ν) (appending : Bool) (chunk : List α)
  | get (name : ν) (start length : ℕ)

variable {ν α : Type}

namespace Request

def name : Request ν α → ν
  | put name _ _ => name
  | get name _ _ => name

/-- The length of the piece that is asked for. -/
def length : Request ν α → ℕ
  | put _ _ _ => 0
  | get _ _ length => length

/-- The piece that comes with the request. -/
def chunk : Request ν α → List α
  | put _ _ chunk => chunk
  | get _ _ _ => []

variable [DecidableEq ν]

/-- The store after the request. -/
def apply (q : Request ν α) (store : ν → List α) : ν → List α :=
  match q with
  | put name appending chunk => Function.update store name ((if appending then store name else []) ++ chunk)
  | get _ _ _ => store

/-- The piece that is sent back. -/
def answer (q : Request ν α) (store : ν → List α) : List α :=
  match q with
  | put _ _ _ => []
  | get name start length => ((store name).drop start).take length

theorem length_apply_le (q : Request ν α) (store : ν → List α) (name : ν) :
    (q.apply store name).length ≤ (store name).length + q.chunk.length := by
  cases q with
  | get _ _ _ => simp [apply, chunk]
  | put other appending piece =>
      by_cases hname : name = other
      · subst hname
        rw [apply, Function.update_self, List.length_append]
        cases appending <;> simp [chunk]
      · rw [apply, Function.update_of_ne hname]
        omega

end Request

variable [DecidableEq ν]

/-- The store after requests one after the other. -/
def run (qs : List (Request ν α)) (store : ν → List α) : ν → List α := qs.foldl (fun held q => q.apply held) store

/-- The pieces sent back. -/
def answers : List (Request ν α) → (ν → List α) → List (List α)
  | [], _ => []
  | q :: qs, store => q.answer store :: answers qs (q.apply store)

theorem run_cons (q : Request ν α) (qs : List (Request ν α)) (store : ν → List α) :
    run (q :: qs) store = run qs (q.apply store) := rfl

/-- Cut a sequence into pieces of these lengths. -/
def cut : List ℕ → List α → List (List α)
  | [], _ => []
  | n :: ns, data => data.take n :: cut ns (data.drop n)

theorem cut_flatten (pieces : List (List α)) : cut (pieces.map List.length) pieces.flatten = pieces := by
  induction pieces with
  | nil => rfl
  | cons piece pieces ih =>
      rw [List.map_cons, cut, List.flatten_cons, List.take_left, List.drop_left, ih]

/-- The writes to a name, each with whether it appends. -/
def writes (name : ν) : List (Request ν α) → List (Bool × List α)
  | [] => []
  | .put other appending chunk :: qs => if other = name then (appending, chunk) :: writes name qs else writes name qs
  | .get _ _ _ :: qs => writes name qs

/-- What a sequence becomes by a write. -/
def written (held : List α) (w : Bool × List α) : List α := (if w.1 then held else []) ++ w.2

/-- A name holds what has been written to it. -/
theorem run_name (name : ν) (qs : List (Request ν α)) (store : ν → List α) :
    run qs store name = (writes name qs).foldl written (store name) := by
  induction qs generalizing store with
  | nil => rfl
  | cons q qs ih =>
      rw [run_cons, ih]
      cases q with
      | get _ _ _ => rfl
      | put other appending chunk =>
          by_cases hname : other = name
          · subst hname
            rw [writes, if_pos rfl, List.foldl_cons, Request.apply, Function.update_self]
            rfl
          · rw [writes, if_neg hname, Request.apply, Function.update_of_ne (Ne.symm hname)]

theorem foldl_written_append (held : List α) (chunks : List (List α)) :
    (chunks.map fun chunk => (true, chunk)).foldl written held = held ++ chunks.flatten := by
  induction chunks generalizing held with
  | nil => simp
  | cons chunk chunks ih =>
      rw [List.map_cons, List.foldl_cons, ih, List.flatten_cons, ← List.append_assoc]
      rfl

/-- A name that is overwritten once and then appended to holds what it was sent, whatever else happens. -/
theorem run_uploaded {name : ν} {qs : List (Request ν α)} {first : List α} {rest : List (List α)}
    (h : writes name qs = (false, first) :: rest.map fun chunk => (true, chunk)) (store : ν → List α) :
    run qs store name = (first :: rest).flatten := by
  rw [run_name, h, List.foldl_cons, foldl_written_append, List.flatten_cons]
  rfl

end UnicoreTsi.Pieces
