/-
# UnicoreTsi.Runs — runs of the processing loop.

`Reaches` relates the states of a worker at the head of the loop of `process`; `Enters` picks out, within
one iteration, the state in which a message that has been read is about to be answered.  A claim about
every run is proved from one iteration: `Reaches.invariant` for the states at the head of the loop,
`process_final` for the state a run of `process` ends in.
-/
import UnicoreTsi.Tsi

set_option autoImplicit false

namespace UnicoreTsi.Tsi

open UnicoreTsi.Text UnicoreTsi.Effects UnicoreTsi.BssCommon UnicoreTsi.Connector

/-- One request and its answer: the state in which the worker starts to answer it, and the state after the
end mark. -/
structure Exchange where
  message : Str
  entered : Worker
  answered : Worker

section Runs

variable (functions : List (Str × Function)) (config : Settings) (oneShot : Bool) (r : WorkerCtx)

/-- The second state is at the head of the loop some iterations after the first. -/
inductive Reaches (start : Worker) : Worker → Prop where
  | refl : Reaches start start
  | step {head next : Worker} (hreach : Reaches start head)
      (hround : round functions config oneShot r head = (.done true, next)) : Reaches start next

/-- In the iteration from `head`, the message is read and the worker is in the state `entered` when it
starts to answer it. -/
def Enters (head : Worker) (message : Str) (entered : Worker) : Prop :=
  ∃ w₁ w₂, runHandler cleanup r head = (.done (), w₁) ∧
    nextMessage r w₁ = (.done (some message), w₂) ∧
    (peerPrepares >>= fun _ => runHandler (sysCall (.chdir config.safeDir))) r w₂ = (.done (), entered)

/-- The requests a worker has answered on one connection, whether it goes on, and its state at the end of
the last iteration. -/
inductive Serves (start : Worker) : List Exchange → Bool → Worker → Prop where
  | start : Serves start [] true start
  | request {xs : List Exchange} {head entered next : Worker} {message : Str} {go : Bool}
      (hserves : Serves start xs true head) (henters : Enters config r head message entered)
      (hround : round functions config oneShot r head = (.done go, next)) :
      Serves start (xs ++ [⟨message, entered, next⟩]) go next

variable {functions config oneShot r}

theorem Reaches.invariant {I : Worker → Prop}
    (hstep : ∀ head next, I head → round functions config oneShot r head = (.done true, next) → I next)
    {start w : Worker} (hstart : I start) (hreach : Reaches functions config oneShot r start w) :
    I w := by
  induction hreach with
  | refl => exact hstart
  | step _ hround ih => exact hstep _ _ ih hround

theorem Reaches.cons {start next w : Worker}
    (hround : round functions config oneShot r start = (.done true, next))
    (hreach : Reaches functions config oneShot r next w) :
    Reaches functions config oneShot r start w := by
  induction hreach with
  | refl => exact .step .refl hround
  | step _ hlast ih => exact .step ih hlast

/-- A run of `process` ends at a head of the loop or in an iteration from one. -/
theorem process_final (fuel : Nat) (start : Worker) :
    ∃ head, Reaches functions config oneShot r start head ∧
      ((process functions config oneShot fuel r start).2 = head ∨
        (process functions config oneShot fuel r start).2 =
          (round functions config oneShot r head).2) := by
  induction fuel generalizing start with
  | zero => exact ⟨start, .refl, Or.inl rfl⟩
  | succ fuel ih =>
      rw [process, bind_run]
      rcases hround : round functions config oneShot r start with ⟨go | e | _, next⟩
      · cases go with
        | false => exact ⟨start, .refl, Or.inr (by rw [hround]; rfl)⟩
        | true =>
            obtain ⟨head, hreach, hfinal⟩ := ih next
            exact ⟨head, hreach.cons hround, hfinal⟩
      · exact ⟨start, .refl, Or.inr (by rw [hround])⟩
      · exact ⟨start, .refl, Or.inr (by rw [hround])⟩

/-! ## One iteration -/

theorem readMessage_quiet : Within Quiet readMessage := by
  refine within_bind within_get ?_
  intro w
  cases readLines [] w.controlIn with
  | none =>
      refine within_bind (within_modify fun w => ⟨w.io, [], w.uploads, w.closed, rfl⟩) ?_
      exact fun _ => within_raise _
  | some p =>
      refine within_bind (within_modify fun w => ⟨w.io, p.2, w.uploads, w.closed, rfl⟩) ?_
      exact fun _ => within_pure _

theorem nextMessage_quiet : Within Quiet nextMessage := by
  apply within_handle
  · exact within_bind readMessage_quiet fun _ => within_pure _
  · intro e
    split
    · exact within_pure _
    · exact within_raise _

theorem peerPrepares_quiet : Within Quiet peerPrepares :=
  within_modify fun w => ⟨_, w.controlIn, _, w.closed, rfl⟩

theorem Enters.quiet {head entered : Worker} {message : Str}
    (h : Enters config r head message entered) : Quiet head entered := by
  obtain ⟨w₁, w₂, h₁, h₂, h₃⟩ := h
  have q₁ := runHandler_quiet cleanup r head
  have q₂ := nextMessage_quiet r w₁
  have q₃ := within_bind peerPrepares_quiet
    (fun _ => runHandler_quiet (sysCall (.chdir config.safeDir))) r w₂
  rw [h₁] at q₁
  rw [h₂] at q₂
  rw [h₃] at q₃
  exact trans_of Quiet (trans_of Quiet q₁ q₂) q₃

/-- Only answers of the host have been taken and children forgotten. -/
def Reaps (s s' : HandlerState) : Prop := ∃ n pids, s' = { s with tick := n, childPids := pids }

instance : Std.Refl Reaps := ⟨fun s => ⟨s.tick, s.childPids, rfl⟩⟩

instance : IsTrans HandlerState Reaps := ⟨by
  rintro _ _ _ ⟨_, _, rfl⟩ ⟨n, pids, rfl⟩
  exact ⟨n, pids, rfl⟩⟩

theorem reapChild_reaps (pid : Int) : Within Reaps (reapChild pid) := by
  have hremove : Within Reaps (removeChild pid) := within_modify fun s => ⟨s.tick, _, rfl⟩
  refine within_handle (within_bind ?_ fun ended => ?_) fun e => ?_
  · exact within_mono (fun s _ ⟨n, hn⟩ => ⟨n, s.childPids, hn⟩) (attempt_ticks _)
  · split
    · exact hremove
    · exact within_pure _
  · split
    · exact hremove
    · exact within_raise _

theorem cleanup_reaps : Within Reaps cleanup := by
  refine within_bind within_get fun s => ?_
  have hfrom : ∀ n i, Within Reaps (cleanupFrom n i) := by
    intro n
    induction n with
    | zero => exact fun i => within_pure _
    | succ n ih =>
        intro i
        refine within_bind within_get fun s => ?_
        split
        · exact within_pure _
        · exact within_bind (reapChild_reaps _) fun _ => ih (i + 1)
  exact hfrom _ _

/-- Reading a message changes nothing that a handler sees. -/
def ReadsOnly (w w' : Worker) : Prop := w'.io = w.io

instance : Std.Refl ReadsOnly := ⟨fun _ => rfl⟩

instance : IsTrans Worker ReadsOnly := ⟨fun _ _ _ h h' => Eq.trans h' h⟩

theorem readMessage_readsOnly : Within ReadsOnly readMessage := by
  refine within_bind within_get fun w => ?_
  cases readLines [] w.controlIn with
  | none => exact within_bind (within_modify fun _ => rfl) fun _ => within_raise _
  | some p => exact within_bind (within_modify fun _ => rfl) fun _ => within_pure _

theorem nextMessage_readsOnly : Within ReadsOnly nextMessage := by
  refine within_handle (within_bind readMessage_readsOnly fun _ => within_pure _) fun e => ?_
  split
  · exact within_pure _
  · exact within_raise _

/-- What a handler sees when it is called differs from what the last one left in the answers taken, the
children that have ended, and the data the client has ready. -/
theorem Enters.io {head entered : Worker} {message : Str} (h : Enters config r head message entered) :
    ∃ n pids upload,
      entered.io = { head.io with tick := n, childPids := pids, upload := upload } := by
  obtain ⟨w₁, w₂, hcleanup, hnext, henter⟩ := h
  obtain ⟨n, pids, hreaped⟩ := cleanup_reaps
    { host := r.host, environ := head.environ, fuel := r.fuel } head.io
  rw [runHandler_run, Prod.mk.injEq] at hcleanup
  obtain ⟨-, rfl⟩ := hcleanup
  have hread := nextMessage_readsOnly r
    { head with io := (cleanup { host := r.host, environ := head.environ, fuel := r.fuel } head.io).2 }
  rw [hnext] at hread
  obtain ⟨⟨⟩, w₃, hprepares, hchdir⟩ := bind_eq_done.mp henter
  obtain rfl : { w₂ with
      io := { w₂.io with upload := w₂.uploads.headD [] }
      uploads := w₂.uploads.tail } = w₃ := congrArg Prod.snd hprepares
  have hmanages := runHandler_manages (sysCall_ticks (.chdir config.safeDir)) r
    { w₂ with io := { w₂.io with upload := w₂.uploads.headD [] }, uploads := w₂.uploads.tail }
  rw [hchdir] at hmanages
  obtain ⟨m, _, _, _, _, _, rfl⟩ := hmanages
  have hio : w₂.io = { head.io with tick := n, childPids := pids } := hread.trans hreaped
  exact ⟨m, pids, w₂.uploads.headD [], by rw [hio]⟩

theorem Enters.unique {head entered entered' : Worker} {message message' : Str}
    (h : Enters config r head message entered) (h' : Enters config r head message' entered') :
    message = message' ∧ entered = entered' := by
  obtain ⟨w₁, w₂, h₁, h₂, h₃⟩ := h
  obtain ⟨w₁', w₂', h₁', h₂', h₃'⟩ := h'
  rw [h₁] at h₁'
  obtain rfl : w₁ = w₁' := congrArg Prod.snd h₁'
  rw [h₂] at h₂'
  simp only [Prod.mk.injEq, Outcome.done.injEq, Option.some.injEq] at h₂'
  obtain ⟨rfl, rfl⟩ := h₂'
  rw [h₃] at h₃'
  exact ⟨rfl, congrArg Prod.snd h₃'⟩

/-- `processMessage` after the directory has been changed. -/
def respond (functions : List (Str × Function)) (message : Str) (config : Settings) : WorkerM Unit := do
  answer functions message config
  runHandler (writeMessage endOfMessage)

/-- Once a message is about to be answered, the rest of the iteration is the response. -/
theorem round_of_enters {head entered : Worker} {message : Str}
    (h : Enters config r head message entered) :
    round functions config oneShot r head =
      (respond functions message config >>= fun _ => pure (!(oneShot || config.testing))) r entered := by
  obtain ⟨w₁, w₂, h₁, h₂, h₃⟩ := h
  unfold round
  rw [bind_run_done h₁, bind_run_done h₂]
  obtain ⟨⟨⟩, w₃, hprepares, hchdir⟩ := bind_eq_done.mp h₃
  show (peerPrepares >>= fun _ => processMessage functions message config >>= fun _ => _) r w₂ = _
  rw [bind_run_done hprepares, bind_run]
  unfold processMessage
  rw [bind_run_done hchdir]
  rfl

theorem respond_of_round {head entered next : Worker} {message : Str} {go : Bool}
    (h : Enters config r head message entered)
    (hround : round functions config oneShot r head = (.done go, next)) :
    respond functions message config r entered = (.done (), next) := by
  rw [round_of_enters h] at hround
  obtain ⟨⟨⟩, w, hrespond, hpure⟩ := bind_eq_done.mp hround
  obtain rfl : w = next := congrArg Prod.snd hpure
  exact hrespond

/-- Where one iteration can end: before a message is answered, with only quiet steps behind it, or while
a message is answered. -/
theorem round_post {P : Worker → Prop} {head : Worker} (hquiet : ∀ w, Quiet head w → P w)
    (hrespond : ∀ message entered, Enters config r head message entered →
      P (respond functions message config r entered).2) :
    P (round functions config oneShot r head).2 := by
  by_cases hentered : ∃ message entered, Enters config r head message entered
  · obtain ⟨message, entered, hentered⟩ := hentered
    have hresponse := hrespond message entered hentered
    rw [round_of_enters hentered]
    apply bind_post hresponse
    intro _ w h
    rw [h] at hresponse
    exact hresponse
  · -- no message gets as far as being answered
    apply hquiet
    unfold round
    have q₁ := runHandler_quiet cleanup r head
    apply bind_post q₁
    rintro ⟨⟩ w₁ h₁
    rw [h₁] at q₁
    have q₂ := trans_of Quiet q₁ (nextMessage_quiet r w₁)
    apply bind_post q₂
    intro next w₂ h₂
    rw [h₂] at q₂
    cases next with
    | none => exact trans_of Quiet q₂ ⟨w₂.io, w₂.controlIn, w₂.uploads, true, rfl⟩
    | some message =>
        have q₃ := trans_of Quiet q₂ (peerPrepares_quiet r w₂)
        apply bind_post q₃
        rintro ⟨⟩ w₃ h₃
        rw [h₃] at q₃
        have q₄ := trans_of Quiet q₃ (runHandler_quiet (sysCall (.chdir config.safeDir)) r w₃)
        have hnever : ∀ entered,
            runHandler (sysCall (.chdir config.safeDir)) r w₃ ≠ (.done (), entered) := by
          intro entered h₄
          exact hentered ⟨message, entered, w₁, w₂, h₁, h₂, by rw [bind_run_done h₃, h₄]⟩
        have hmessage : Quiet head (processMessage functions message config r w₃).2 :=
          bind_post q₄ fun _ entered h₄ => absurd h₄ (hnever entered)
        apply bind_post hmessage
        intro _ w h
        rw [h] at hmessage
        exact hmessage

end Runs

end UnicoreTsi.Tsi
