/-
# UnicoreTsi.ChildCleanup — removing from a list while going through it.

`cleanup` removes a child that has ended from the list it iterates over, and the iterator, which counts positions,
then passes over the child after it.  `sweep` is what is left of a list; it is the list of those that are to stay
exactly if no two neighbours are to go (`sweep_eq_filter_iff`).  `cleanup_exact_iff` is this for the children.
-/
import UnicoreTsi.Runs

set_option autoImplicit false

namespace UnicoreTsi.BssCommon

open UnicoreTsi.Text UnicoreTsi.Effects UnicoreTsi.Utils

/-! ## Sweeps -/

section Sweep

variable {α : Type} (gone : α → Bool)

/-- The list after a pass that removes as it goes: what follows a removed item is not looked at. -/
def sweep : List α → List α
  | [] => []
  | [a] => if gone a then [] else [a]
  | a :: b :: more => if gone a then b :: sweep more else a :: sweep (b :: more)

variable {gone}

theorem sweep_kept {a : α} (ha : gone a = false) (rest : List α) : sweep gone (a :: rest) = a :: sweep gone rest := by
  cases rest with
  | nil => simp [sweep, ha]
  | cons b more => rw [sweep, if_neg (by simp [ha])]

theorem sweep_gone {a : α} (ha : gone a = true) (b : α) (more : List α) :
    sweep gone (a :: b :: more) = b :: sweep gone more := by
  rw [sweep, if_pos ha]

theorem sweep_gone_last {a : α} (ha : gone a = true) : sweep gone [a] = [] := by
  rw [sweep, if_pos ha]

/-- One of two neighbours stays. -/
def OneStays (gone : α → Bool) (a b : α) : Prop := gone a = false ∨ gone b = false

theorem isChain_kept {a : α} (ha : gone a = false) (rest : List α) :
    (a :: rest).IsChain (OneStays gone) ↔ rest.IsChain (OneStays gone) := by
  cases rest with
  | nil => simp
  | cons b rest =>
      rw [List.isChain_cons_cons]
      exact and_iff_right (Or.inl ha)

theorem sweep_eq_filter_iff (l : List α) :
    sweep gone l = l.filter (fun a => !gone a) ↔ l.IsChain (OneStays gone) := by
  fun_induction sweep gone l with
  | case1 => simp
  | case2 a ha => simp [ha]
  | case3 a ha => simp [ha]
  | case4 a b more ha ih =>
      rw [List.filter_cons_of_neg (by simp [ha]), List.isChain_cons_cons]
      cases hb : gone b with
      | true =>
          -- `b` is left although it is to go
          have hneither : ¬OneStays gone a b := by simp [OneStays, ha, hb]
          refine iff_of_false (fun heq => ?_) (fun h => hneither h.1)
          have hmem : b ∈ (b :: more).filter fun a => !gone a := heq ▸ List.mem_cons_self
          have hstays := (List.mem_filter.mp hmem).2
          rw [hb] at hstays
          cases hstays
      | false =>
          rw [List.filter_cons_of_pos (by simp [hb]), List.cons.injEq, and_iff_right rfl, ih, isChain_kept hb]
          exact (and_iff_right (Or.inr hb)).symm
  | case5 a b more ha ih =>
      have ha' : gone a = false := (Bool.not_eq_true _).mp ha
      rw [List.filter_cons_of_pos (by simp [ha']), List.cons.injEq, and_iff_right rfl, ih, isChain_kept ha']

end Sweep

/-! ## Children -/

/-- What `waitpid` finds out about a child. -/
inductive ChildStatus where
  | running
  | ended
  | notAChild
  deriving DecidableEq, Repr

/-- The answer of `waitpid` for a child with this status. -/
def Answers (status : ChildStatus) (answer : Except PyExc Int) : Prop :=
  match status with
  | .running => answer = .ok 0
  | .ended => ∃ pid, pid ≠ 0 ∧ answer = .ok pid
  | .notAChild => ∃ e, isChildProcessError e = true ∧ answer = .error e

/-- The children of the list have these statuses while they are looked at. -/
def HasStatuses (host : Host) (pids : List Int) (status : Int → ChildStatus) : Prop :=
  ∀ pid ∈ pids, ∀ t, Answers (status pid) (host.waitpid t pid)

/-- The child is no longer to be in the list. -/
def isGone (status : Int → ChildStatus) (pid : Int) : Bool := decide (status pid ≠ .running)

section Cleanup

variable {r : HandlerCtx} {status : Int → ChildStatus}

theorem reapChild_run {pid : Int} (h : ∀ t, Answers (status pid) (r.host.waitpid t pid)) (s : HandlerState) :
    reapChild pid r s = (.done (), { s with
      tick := s.tick + 1
      childPids := if isGone status pid then s.childPids.erase pid else s.childPids }) := by
  have hanswer := h s.tick
  unfold reapChild isGone
  cases hstatus : status pid with
  | running =>
      rw [hstatus] at hanswer
      have hrun : attempt (fun h t => h.waitpid t pid) r s = (.done 0, { s with tick := s.tick + 1 }) := by
        rw [attempt_run]
        rw [Answers] at hanswer
        rw [hanswer]
      exact handle_run_done (bind_run_done hrun)
  | ended =>
      rw [hstatus] at hanswer
      obtain ⟨n, hn, hanswer⟩ := hanswer
      have hrun : attempt (fun h t => h.waitpid t pid) r s = (.done n, { s with tick := s.tick + 1 }) := by
        rw [attempt_run, hanswer]
      apply handle_run_done
      rw [bind_run_done hrun, if_pos hn]
      rfl
  | notAChild =>
      rw [hstatus] at hanswer
      obtain ⟨e, he, hanswer⟩ := hanswer
      have hrun : attempt (fun h t => h.waitpid t pid) r s = (.raised e, { s with tick := s.tick + 1 }) := by
        rw [attempt_run, hanswer]
      rw [handle_run_raised (bind_run_raised hrun), if_pos he]
      rfl

/-- The loop from a position on leaves what is before it, and sweeps the rest. -/
theorem cleanupFrom_run (n : ℕ) (front back : List Int) (s : HandlerState) (hpids : s.childPids = front ++ back)
    (hnodup : (front ++ back).Nodup) (hstatus : HasStatuses r.host (front ++ back) status) (hn : back.length ≤ n) :
    ∃ t, cleanupFrom n front.length r s =
      (.done (), { s with tick := t, childPids := front ++ sweep (isGone status) back }) := by
  induction n generalizing front back s with
  | zero =>
      obtain rfl : back = [] := List.length_eq_zero_iff.mp (Nat.le_zero.mp hn)
      refine ⟨s.tick, ?_⟩
      rw [sweep, ← hpids]
      rfl
  | succ n ih =>
      rw [cleanupFrom, bind_run_done get_run, hpids]
      cases back with
      | nil =>
          refine ⟨s.tick, ?_⟩
          rw [List.append_nil, List.getElem?_eq_none le_rfl, sweep, List.append_nil, ← List.append_nil front, ← hpids]
          rfl
      | cons a rest =>
          have hat : (front ++ a :: rest)[front.length]? = some a := by simp
          rw [hat]
          have hreap := reapChild_run (r := r) (hstatus a (by simp)) s
          have hnext : front.length + 1 = (front ++ [a]).length := by simp
          cases ha : isGone status a with
          | false =>
              rw [ha, if_neg (by simp), hpids] at hreap
              dsimp only
              rw [bind_run_done hreap, hnext, sweep_kept ha]
              have hsplit : front ++ a :: rest = (front ++ [a]) ++ rest := by simp
              obtain ⟨t, ht⟩ := ih (front ++ [a]) rest { s with tick := s.tick + 1, childPids := front ++ a :: rest }
                hsplit (hsplit ▸ hnodup) (hsplit ▸ hstatus) (Nat.le_of_succ_le_succ hn)
              refine ⟨t, ht.trans ?_⟩
              rw [List.append_assoc, List.singleton_append]
          | true =>
              have hnew : a ∉ front := fun hmem => (List.nodup_append.mp hnodup).2.2 a hmem a List.mem_cons_self rfl
              have herase : (front ++ a :: rest).erase a = front ++ rest := by
                rw [List.erase_append_right _ hnew, List.erase_cons_head]
              rw [ha, if_pos rfl, hpids, herase] at hreap
              dsimp only
              rw [bind_run_done hreap]
              have hsub : (front ++ rest).Sublist (front ++ a :: rest) :=
                (List.Sublist.refl front).append (List.sublist_cons_self a rest)
              cases rest with
              | nil =>
                  -- there is no position after the removed child
                  refine ⟨s.tick + 1, ?_⟩
                  rw [sweep_gone_last ha]
                  cases n with
                  | zero => rfl
                  | succ n =>
                      rw [cleanupFrom, bind_run_done get_run, List.getElem?_eq_none (by simp)]
                      rfl
              | cons b more =>
                  have hsplit : front ++ b :: more = (front ++ [b]) ++ more := by simp
                  have hposition : front.length + 1 = (front ++ [b]).length := by simp
                  obtain ⟨t, ht⟩ := ih (front ++ [b]) more { s with tick := s.tick + 1, childPids := front ++ b :: more }
                    hsplit (hsplit ▸ hsub.nodup hnodup)
                    (hsplit ▸ fun pid hpid => hstatus pid (hsub.subset hpid))
                    (by simp only [List.length_cons] at hn; omega)
                  rw [hposition, sweep_gone ha]
                  refine ⟨t, ht.trans ?_⟩
                  rw [List.append_assoc, List.singleton_append]

theorem cleanup_run {s : HandlerState} (hnodup : s.childPids.Nodup) (hstatus : HasStatuses r.host s.childPids status) :
    ∃ t, cleanup r s = (.done (), { s with tick := t, childPids := sweep (isGone status) s.childPids }) := by
  unfold cleanup
  rw [bind_run_done get_run]
  exact cleanupFrom_run s.childPids.length [] s.childPids s rfl hnodup hstatus le_rfl

/-- **Cleanup of children.**  The list keeps exactly the children that are still running, in order, if and only if
no two neighbours in it have both ended. -/
theorem cleanup_exact_iff {s : HandlerState} (hnodup : s.childPids.Nodup)
    (hstatus : HasStatuses r.host s.childPids status) :
    (∃ s', cleanup r s = (.done (), s') ∧ s'.childPids = s.childPids.filter fun pid => status pid = .running) ↔
      s.childPids.IsChain fun a b => status a = .running ∨ status b = .running := by
  obtain ⟨t, hrun⟩ := cleanup_run hnodup hstatus
  have hstays : ∀ pid, isGone status pid = false ↔ status pid = .running := by simp [isGone]
  have hfilter : (s.childPids.filter fun pid => status pid = .running) = s.childPids.filter fun pid => !isGone status pid := by
    refine List.filter_congr fun pid _ => ?_
    unfold isGone
    rw [decide_not, Bool.not_not]
  have hone : OneStays (isGone status) = fun a b => status a = .running ∨ status b = .running := by
    funext a b
    rw [OneStays, hstays, hstays]
  rw [← hone, ← sweep_eq_filter_iff, hfilter, hrun]
  constructor
  · rintro ⟨s', heq, hpids⟩
    cases heq
    exact hpids
  · exact fun hpids => ⟨_, rfl, hpids⟩

end Cleanup

/-! ## Two neighbours that have ended -/

/-- The status a list of children that have ended gives. -/
def endedStatus (ended : List Int) (pid : Int) : ChildStatus := if pid ∈ ended then .ended else .running

/-- A host on which these children have ended. -/
def endedHost (ended : List Int) : Host :=
  { calmHost UserDb.empty.cache with waitpid := fun _ pid => .ok (if pid ∈ ended then pid else 0) }

def endedCtx (ended : List Int) : HandlerCtx :=
  { host := endedHost ended, environ := { home := none, user := none, logname := none }, fuel := 0 }

/-- The state with these children started. -/
def withChildren (pids : List Int) : HandlerState := { HandlerState.fresh with childPids := pids }

theorem hasStatuses_ended {ended pids : List Int} (hpids : 0 ∉ ended) :
    HasStatuses (endedCtx ended).host pids (endedStatus ended) := by
  intro pid _ t
  unfold endedStatus
  show Answers _ (.ok (if pid ∈ ended then pid else 0))
  by_cases hpid : pid ∈ ended
  · rw [if_pos hpid, if_pos hpid]
    exact ⟨pid, fun hzero => hpids (hzero ▸ hpid), rfl⟩
  · rw [if_neg hpid, if_neg hpid]
    rfl

theorem cleanup_exact_iff_one_ended :
    (∃ s', cleanup (endedCtx [12]) (withChildren [11, 12, 13]) = (.done (), s') ∧
        s'.childPids = [11, 12, 13].filter fun pid => endedStatus [12] pid = .running) ↔
      ([11, 12, 13] : List Int).IsChain fun a b => endedStatus [12] a = .running ∨ endedStatus [12] b = .running :=
  cleanup_exact_iff (r := endedCtx [12]) (s := withChildren [11, 12, 13]) (by decide)
    (hasStatuses_ended (by decide))

/-- Of two children that have ended, the second is left. -/
theorem ended_child_left : ¬ ∀ (r : HandlerCtx) (s : HandlerState) (status : Int → ChildStatus), s.childPids.Nodup →
    HasStatuses r.host s.childPids status →
    ∃ s', cleanup r s = (.done (), s') ∧ s'.childPids = s.childPids.filter fun pid => status pid = .running := by
  intro h
  obtain ⟨s', hrun, hpids⟩ := h (endedCtx [11, 12]) (withChildren [11, 12]) (endedStatus [11, 12]) (by decide)
    (hasStatuses_ended (by decide))
  have hleft : (cleanup (endedCtx [11, 12]) (withChildren [11, 12])).2.childPids = [12] := by decide
  rw [hrun, hpids] at hleft
  revert hleft
  decide

end UnicoreTsi.BssCommon
