/-
# UnicoreTsi.RequestFraming — requests on the control channel, and a channel that is cut off.

UNICORE/X sends the lines of a request and the line `ENDOFMESSAGE`.  The worker is handed the text line by line, and
the last line without its newline if the connection ends inside it.  Wherever that is, the calls of `read_message`
return the requests that have arrived with their end mark, and raise an exception from then on
(`calls_return_received`), so `process` calls functions for these requests only (`process_calls`), and closes the
connection when it has answered the last one (`process_ending`, `requests_framed`).
-/
import UnicoreTsi.MessageStreams
import UnicoreTsi.OneStatus

set_option autoImplicit false

namespace UnicoreTsi.Tsi

open UnicoreTsi.Text UnicoreTsi.Framing UnicoreTsi.Effects UnicoreTsi.Utils UnicoreTsi.Connector UnicoreTsi.BssCommon

/-! ## Requests -/

/-- A request as UNICORE/X sends it: its lines, none of which is the end mark. -/
structure Request where
  lines : List Str
  line_free : ∀ l ∈ lines, '\n' ∉ l
  no_end : endOfMessage ∉ lines

namespace Request

variable (q : Request)

def text : Str := unlines q.lines

/-- The request and its end mark. -/
def framed : Str := unlines (q.lines ++ [endOfMessage])

/-- The lines as they are handed over. -/
def handed : List Str := q.lines.map (· ++ ['\n'])

theorem endLine_not_handed : endLine ∉ q.handed := by
  intro h
  obtain ⟨l, hl, heq⟩ := List.mem_map.mp h
  obtain rfl : l = endOfMessage := List.append_cancel_right heq
  exact q.no_end hl

theorem free_framed : ∀ l ∈ q.lines ++ [endOfMessage], '\n' ∉ l := by
  rw [List.forall_mem_append, List.forall_mem_singleton]
  exact ⟨q.line_free, by decide⟩

/-- A call in front of a request that is complete. -/
theorem read_handed (rest : List Str) : socketReader.read (q.handed ++ endLine :: rest) = (.ok q.text, rest) :=
  socketReader_ends q.endLine_not_handed rest

end Request

/-- The text of some requests, one after the other. -/
def sent (qs : List Request) : Str := qs.flatMap Request.framed

/-- The requests whose end mark is among the first characters of the text. -/
def received : List Request → Nat → List Request
  | [], _ => []
  | q :: qs, n => if q.framed.length ≤ n then q :: received qs (n - q.framed.length) else []

theorem received_all (qs : List Request) : received qs (sent qs).length = qs := by
  induction qs with
  | nil => rfl
  | cons q qs ih =>
      have hlength : (sent (q :: qs)).length = q.framed.length + (sent qs).length := by
        rw [sent, List.flatMap_cons, List.length_append]
        rfl
      rw [received, hlength, if_pos (Nat.le_add_right _ _), Nat.add_sub_cancel_left, ih]

/-- What is handed over of a text that is cut off: the complete requests, and lines without an end mark. -/
theorem pieces_sent_take (qs : List Request) (n : Nat) :
    ∃ tail, endLine ∉ tail ∧
      pieces '\n' ((sent qs).take n) = (received qs n).flatMap (fun q => q.handed ++ [endLine]) ++ tail := by
  induction qs generalizing n with
  | nil => exact ⟨[], List.not_mem_nil, by simp [sent, received]⟩
  | cons q qs ih =>
      have hsent : sent (q :: qs) = q.framed ++ sent qs := List.flatMap_cons
      rw [received, hsent]
      split
      · rename_i hcomplete
        -- the cut comes after the end mark: this request is whole
        obtain ⟨k, rfl⟩ := Nat.exists_eq_add_of_le hcomplete
        obtain ⟨tail, htail, hpieces⟩ := ih k
        refine ⟨tail, htail, ?_⟩
        rw [List.take_length_add_append, Request.framed, unlines, pieces_stream_append q.free_framed, ← unlines,
          ← Request.framed, Nat.add_sub_cancel_left, hpieces, List.flatMap_cons]
        simp [Request.handed, endLine]
      · rename_i hcut
        -- the cut comes before it, so no line of what is left is the end mark
        refine ⟨_, ?_, (List.nil_append _).symm⟩
        rw [List.take_append_of_le_length (Nat.le_of_not_le hcut)]
        exact not_mem_pieces_take q.line_free (by decide) q.no_end (Nat.lt_of_not_le hcut)

/-! ## Calls of `read_message` -/

/-- One call: what it returns or raises. -/
def readCall : WorkerM (Except PyExc Str) :=
  handle
    (do
      let message ← readMessage
      return .ok message)
    fun e => return .error e

def readCalls : Nat → WorkerM (List (Except PyExc Str))
  | 0 => return []
  | n + 1 => do
      let first ← readCall
      let others ← readCalls n
      return first :: others

section Calls

variable {r : WorkerCtx} {w : Worker}

theorem readCall_run (r : WorkerCtx) (w : Worker) :
    readCall r w = (.done (socketReader.read w.controlIn).1, { w with controlIn := (socketReader.read w.controlIn).2 }) := by
  cases h : readLines [] w.controlIn with
  | none =>
      rw [readCall, handle_run_raised (bind_run_raised (readMessage_none h r)), socketReader_of_none h]
      rfl
  | some p =>
      rw [readCall, handle_run_done (bind_run_done (readMessage_some h r)), socketReader_of_some h]

theorem readCalls_succ {n : Nat} {answer : Except PyExc Str} {rest : List Str}
    (h : socketReader.read w.controlIn = (answer, rest)) {answers : List (Except PyExc Str)} {w' : Worker}
    (hn : readCalls n r { w with controlIn := rest } = (.done answers, w')) :
    readCalls (n + 1) r w = (.done (answer :: answers), w') := by
  rw [readCalls, bind_run_done (readCall_run r w), h, bind_run_done hn]
  rfl

/-- Calls at the end of a channel. -/
theorem readCalls_closed {tail : List Str} (htail : endLine ∉ tail) (hw : w.controlIn = tail) (n : Nat) :
    ∃ w', readCalls n r w = (.done (List.replicate n (.error socketClosed)), w') := by
  induction n generalizing w tail with
  | zero => exact ⟨w, rfl⟩
  | succ n ih =>
      have hread : socketReader.read w.controlIn = (.error socketClosed, []) := by
        rw [hw]
        exact socketReader_rest htail
      obtain ⟨w', hn⟩ := ih (w := { w with controlIn := [] }) List.not_mem_nil rfl
      exact ⟨w', readCalls_succ hread hn⟩

theorem readCalls_run (qs : List Request) {tail : List Str} (htail : endLine ∉ tail)
    (hw : w.controlIn = qs.flatMap (fun q => q.handed ++ [endLine]) ++ tail) (n : Nat) :
    ∃ w', readCalls n r w = (.done ((qs.map fun q => .ok q.text).take n ++
      List.replicate (n - qs.length) (.error socketClosed)), w') := by
  induction qs generalizing w n with
  | nil => simpa using readCalls_closed htail (by simpa using hw) n
  | cons q qs ih =>
      cases n with
      | zero => exact ⟨w, by simp [readCalls]⟩
      | succ n =>
          have hread : socketReader.read w.controlIn =
              (.ok q.text, qs.flatMap (fun q => q.handed ++ [endLine]) ++ tail) := by
            rw [hw, List.flatMap_cons]
            simpa using q.read_handed _
          obtain ⟨w', hn⟩ := ih (w := { w with controlIn := _ }) rfl n
          refine ⟨w', ?_⟩
          rw [readCalls_succ hread hn]
          simp

end Calls

/-- The calls return the requests that have arrived, one after the other, and the calls after them raise an
exception: nothing is returned of a request that is cut off. -/
theorem calls_return_received (qs : List Request) (n : Nat) (r : WorkerCtx) (w : Worker) (calls : Nat) :
    (readCalls calls r { w with controlIn := pieces '\n' ((sent qs).take n) }).1 =
      .done (((received qs n).map fun q => .ok q.text).take calls ++
        List.replicate (calls - (received qs n).length) (.error socketClosed)) := by
  obtain ⟨tail, htail, hpieces⟩ := pieces_sent_take qs n
  obtain ⟨w', hrun⟩ := readCalls_run (r := r) (w := { w with controlIn := pieces '\n' ((sent qs).take n) })
    (received qs n) htail hpieces calls
  rw [hrun]

/-! ## What one request dispatches -/

/-- No line is read, no function called, and the connection not closed. -/
def Kept (w w' : Worker) : Prop :=
  w'.controlIn = w.controlIn ∧ w'.closed = w.closed ∧ w'.invocations = w.invocations

instance : Std.Refl Kept := ⟨fun _ => ⟨rfl, rfl, rfl⟩⟩

instance : IsTrans Worker Kept := ⟨fun _ _ _ h h' => ⟨h'.1.trans h.1, h'.2.1.trans h.2.1, h'.2.2.trans h.2.2⟩⟩

/-- The same but for one function, which may be called, and with this message. -/
def Dispatches (message : Str) (w w' : Worker) : Prop :=
  w'.controlIn = w.controlIn ∧ w'.closed = w.closed ∧
    ∃ invs, w'.invocations = w.invocations ++ invs ∧ (invs.map Invocation.message).Sublist [message]

section Dispatching

variable {message : Str}

theorem Kept.dispatches {w w' : Worker} (h : Kept w w') : Dispatches message w w' :=
  ⟨h.1, h.2.1, [], by rw [h.2.2, List.append_nil], List.nil_sublist _⟩

theorem Kept.before {w w₁ w₂ : Worker} (h : Kept w w₁) (h' : Dispatches message w₁ w₂) : Dispatches message w w₂ := by
  obtain ⟨hcontrol, hclosed, invs, hinvs, hsublist⟩ := h'
  exact ⟨hcontrol.trans h.1, hclosed.trans h.2.1, invs, by rw [hinvs, h.2.2], hsublist⟩

theorem Dispatches.after {w w₁ w₂ : Worker} (h : Dispatches message w w₁) (h' : Kept w₁ w₂) : Dispatches message w w₂ := by
  obtain ⟨hcontrol, hclosed, invs, hinvs, hsublist⟩ := h
  exact ⟨h'.1.trans hcontrol, h'.2.1.trans hclosed, invs, by rw [h'.2.2, hinvs], hsublist⟩

theorem Manages.kept {w w' : Worker} (h : Manages w w') : Kept w w' := by
  obtain ⟨_, _, _, _, _, _, rfl⟩ := h
  exact ⟨rfl, rfl, rfl⟩

theorem runHandler_kept {α : Type} (h : Handler α) : Within Kept (runHandler h) := fun _ _ => ⟨rfl, rfl, rfl⟩

theorem kept_bind {α β : Type} {x : WorkerM α} {f : α → WorkerM β} (hx : Within Kept x)
    (hf : ∀ a, Within (Dispatches message) (f a)) : Within (Dispatches message) (x >>= f) :=
  within_seq (fun _ _ h => Kept.dispatches h) (fun _ _ _ h h' => Kept.before h h') hx hf

theorem bind_kept {α β : Type} {x : WorkerM α} {f : α → WorkerM β} (hx : Within (Dispatches message) x)
    (hf : ∀ a, Within Kept (f a)) : Within (Dispatches message) (x >>= f) :=
  within_seq (fun _ _ h => h) (fun _ _ _ h h' => Dispatches.after h h') hx hf

theorem dispatches_of_kept {α : Type} {x : WorkerM α} (hx : Within Kept x) : Within (Dispatches message) x :=
  within_mono (fun _ _ h => Kept.dispatches h) hx

variable (function : Function) (command : Str) (config : Settings) (openUserSession : Bool)

theorem invoke_dispatches : Within (Dispatches message) (invoke function command message config) := by
  refine bind_kept (within_modify fun w => ?_) fun _ => runHandler_kept _
  exact ⟨rfl, rfl, [⟨command, message, w.cred⟩], rfl, List.Sublist.refl _⟩

theorem attemptFunction_dispatches :
    Within (Dispatches message) (attemptFunction function command message openUserSession config) := by
  have hassume : Within Kept (assumeIdentity message openUserSession config) :=
    within_mono (fun _ _ => Manages.kept) (assumeIdentity_manages message openUserSession config)
  unfold attemptFunction
  split
  · exact kept_bind hassume fun _ => invoke_dispatches function command config
  · exact invoke_dispatches function command config

theorem runFunction_dispatches :
    Within (Dispatches message) (runFunction function command message openUserSession config) := by
  have hcaught : Within (Dispatches message) (handle (attemptFunction function command message openUserSession config)
      fun e => runHandler (failed (some e.text))) :=
    within_handle_seq (fun _ _ h => h) (fun _ _ _ h h' => Dispatches.after h h')
      (attemptFunction_dispatches function command config openUserSession) fun _ => runHandler_kept _
  refine kept_bind (within_modify fun _ => ⟨rfl, rfl, rfl⟩) fun _ => ?_
  exact bind_kept hcaught fun _ =>
    within_mono (fun _ _ => Manages.kept) (afterCall_manages config command openUserSession)

theorem inChild_dispatches {x : WorkerM Unit} (hx : Within (Dispatches message) x) :
    Within (Dispatches message) (inChild x) := by
  intro r w
  have h := hx r w
  rw [inChild]
  rcases hrun : x r w with ⟨_ | e | _, w'⟩ <;> rw [hrun] at h <;> exact h

theorem handleFunction_dispatches : Within (Dispatches message) (handleFunction function command message config) := by
  unfold handleFunction
  split
  · refine kept_bind (runHandler_kept _) fun _ => ?_
    refine bind_kept ?_ fun _ => runHandler_kept _
    exact inChild_dispatches (runFunction_dispatches function command config _)
  · exact runFunction_dispatches function command config _

/-- A message is answered with one call of a function at most. -/
theorem processMessage_dispatches (functions : List (Str × Function)) :
    Within (Dispatches message) (processMessage functions message config) := by
  refine kept_bind (runHandler_kept _) fun _ => ?_
  refine bind_kept ?_ fun _ => runHandler_kept _
  unfold answer
  split
  · exact dispatches_of_kept (runHandler_kept _)
  · split
    · exact dispatches_of_kept (runHandler_kept _)
    · exact handleFunction_dispatches _ _ config

end Dispatching

/-! ## The loop of the worker -/

section Loop

variable {functions : List (Str × Function)} {config : Settings} {oneShot : Bool} {r : WorkerCtx}

theorem Serves.cons {start entered next w : Worker} {message : Str} {xs : List Exchange} {go : Bool}
    (henters : Enters config r start message entered)
    (hround : round functions config oneShot r start = (.done true, next))
    (hserves : Serves functions config oneShot r next xs go w) :
    Serves functions config oneShot r start (⟨message, entered, next⟩ :: xs) go w := by
  induction hserves with
  | start => exact Serves.request .start henters hround
  | request _ hlast hnext ih => exact Serves.request ih hlast hnext

/-- What an iteration does with a message, once it is read. -/
def iteration (functions : List (Str × Function)) (message : Str) (config : Settings) (oneShot : Bool) : WorkerM Bool := do
  peerPrepares
  processMessage functions message config
  return !(oneShot || config.testing)

theorem iteration_dispatches (functions : List (Str × Function)) (message : Str) (config : Settings) (oneShot : Bool) :
    Within (Dispatches message) (iteration functions message config oneShot) := by
  refine kept_bind (within_modify fun _ => ⟨rfl, rfl, rfl⟩) fun _ => ?_
  exact bind_kept (processMessage_dispatches config functions) fun _ => within_pure _

/-- The functions that are called, are called for these texts, in order. -/
def CallsFor (texts : List Str) (w w' : Worker) : Prop :=
  ∃ invs, w'.invocations = w.invocations ++ invs ∧ (invs.map Invocation.message).Sublist texts

theorem callsFor_of_eq {texts : List Str} {w w' : Worker} (h : w'.invocations = w.invocations) : CallsFor texts w w' :=
  ⟨[], by rw [h, List.append_nil], List.nil_sublist _⟩

theorem CallsFor.append {texts texts' : List Str} {w w₁ w₂ : Worker} (h : CallsFor texts w w₁)
    (h' : CallsFor texts' w₁ w₂) : CallsFor (texts ++ texts') w w₂ := by
  obtain ⟨invs, hinvs, hsublist⟩ := h
  obtain ⟨invs', hinvs', hsublist'⟩ := h'
  refine ⟨invs ++ invs', by rw [hinvs', hinvs, List.append_assoc], ?_⟩
  rw [List.map_append]
  exact hsublist.append hsublist'

variable (functions config oneShot r)

/-- A cleanup that fails takes the iteration with it. -/
theorem round_unclean {w : Worker} (hunclean : (runHandler cleanup r w).1 ≠ .done ()) :
    (round functions config oneShot r w).2.invocations = w.invocations ∧
      ∀ go, (round functions config oneShot r w).1 ≠ .done go := by
  have hkept := runHandler_kept cleanup r w
  unfold round
  rcases hrun : runHandler cleanup r w with ⟨⟨⟩ | e | _, w₁⟩
  · rw [hrun] at hunclean
    exact absurd rfl hunclean
  · rw [hrun] at hkept
    rw [bind_run_raised hrun]
    exact ⟨hkept.2.2, nofun⟩
  · rw [hrun] at hkept
    rw [bind_run, hrun]
    exact ⟨hkept.2.2, nofun⟩

/-- One iteration in front of a request that is complete. -/
theorem round_request (q : Request) {w : Worker} {rest : List Str}
    (hw : w.controlIn = q.handed ++ endLine :: rest) :
    CallsFor [q.text] w (round functions config oneShot r w).2 ∧
      ∀ go, (round functions config oneShot r w).1 = .done go →
        go = !(oneShot || config.testing) ∧ (round functions config oneShot r w).2.controlIn = rest ∧
          (round functions config oneShot r w).2.closed = w.closed ∧ ∃ entered, Enters config r w q.text entered := by
  by_cases hclean : (runHandler cleanup r w).1 = .done ()
  · have hrun : runHandler cleanup r w = (.done (), (runHandler cleanup r w).2) := Prod.ext hclean rfl
    have hcleanup := runHandler_kept cleanup r w
    generalize (runHandler cleanup r w).2 = w₁ at hrun hcleanup
    have hread : socketReader.read w₁.controlIn = (.ok q.text, rest) := by
      rw [hcleanup.1, hw]
      exact q.read_handed rest
    have hnext : nextMessage r w₁ = (.done (some q.text), { w₁ with controlIn := rest }) := by
      rw [nextMessage_eq]
      exact nextMessageOf_ok hread r
    have hround : round functions config oneShot r w =
        iteration functions q.text config oneShot r { w₁ with controlIn := rest } := by
      unfold round
      rw [bind_run_done hrun, bind_run_done hnext]
      rfl
    obtain ⟨hcontrol, hclosed, invs, hinvs, hsublist⟩ :=
      iteration_dispatches functions q.text config oneShot r { w₁ with controlIn := rest }
    rw [hround]
    refine ⟨⟨invs, ?_, hsublist⟩, fun go hgo => ?_⟩
    · rw [← hcleanup.2.2]
      exact hinvs
    · -- a message that has been answered was read and entered
      obtain ⟨⟨⟩, w₂, hprepares, hanswered⟩ := bind_eq_done.mp (Prod.ext hgo rfl)
      obtain ⟨⟨⟩, w₃, hprocessed, hpure⟩ := bind_eq_done.mp hanswered
      obtain ⟨⟨⟩, entered, hchdir, -⟩ := bind_eq_done.mp hprocessed
      refine ⟨(Outcome.done.inj (congrArg Prod.fst hpure)).symm, hcontrol, hclosed.trans hcleanup.2.1, entered, w₁, _,
        hrun, hnext, ?_⟩
      rw [bind_run_done hprepares, hchdir]
  · obtain ⟨hinvocations, hbroken⟩ := round_unclean functions config oneShot r hclean
    exact ⟨callsFor_of_eq hinvocations, fun go hgo => absurd hgo (hbroken go)⟩

/-- One iteration at the end of the channel: the connection is closed unless the cleanup fails. -/
theorem round_closed {w : Worker} (hw : endLine ∉ w.controlIn) :
    (round functions config oneShot r w).2.invocations = w.invocations ∧
      ((∃ w', round functions config oneShot r w = (.done false, w') ∧ w'.closed = true) ∨
        (∀ go, (round functions config oneShot r w).1 ≠ .done go) ∧ (runHandler cleanup r w).1 ≠ .done ()) := by
  by_cases hclean : (runHandler cleanup r w).1 = .done ()
  · have hrun : runHandler cleanup r w = (.done (), (runHandler cleanup r w).2) := Prod.ext hclean rfl
    have hcleanup := runHandler_kept cleanup r w
    generalize (runHandler cleanup r w).2 = w₁ at hrun hcleanup
    have hread : socketReader.read w₁.controlIn = (.error socketClosed, []) := by
      refine socketReader_rest ?_
      rw [hcleanup.1]
      exact hw
    have hnext : nextMessage r w₁ = (.done none, { w₁ with controlIn := [] }) := by
      rw [nextMessage_eq]
      exact nextMessageOf_closed hread r
    unfold round
    rw [bind_run_done hrun, bind_run_done hnext]
    exact ⟨hcleanup.2.2, Or.inl ⟨_, rfl, rfl⟩⟩
  · obtain ⟨hinvocations, hbroken⟩ := round_unclean functions config oneShot r hclean
    exact ⟨hinvocations, Or.inr ⟨hbroken, hclean⟩⟩

end Loop

/-- How `process` ends on a connection on which these requests arrive. -/
inductive Ending (functions : List (Str × Function)) (config : Settings) (oneShot : Bool) (r : WorkerCtx)
    (texts : List Str) (start : Worker) : Outcome PyExc Unit × Worker → Prop where
  /-- All requests are answered, and the connection is closed. -/
  | closed {xs : List Exchange} {head w : Worker} (hserves : Serves functions config oneShot r start xs true head)
      (hall : xs.map Exchange.message = texts) (hopen : head.closed = start.closed) (hclosed : w.closed = true) :
      Ending functions config oneShot r texts start (.done (), w)
  /-- One request is answered, and it was to be the only one. -/
  | single {x : Exchange} {w : Worker} (honce : (oneShot || config.testing) = true)
      (hserves : Serves functions config oneShot r start [x] false w) (hfirst : texts.head? = some x.message) :
      Ending functions config oneShot r texts start (.done (), w)
  /-- An exception leaves the iteration after some requests: while the next one is answered, or in the cleanup. -/
  | raised {xs : List Exchange} {head w : Worker} {e : PyExc}
      (hserves : Serves functions config oneShot r start xs true head) (hsome : xs.map Exchange.message <+: texts)
      (hround : round functions config oneShot r head = (.raised e, w))
      (hcleanup : xs.map Exchange.message = texts → (runHandler cleanup r head).1 ≠ .done ()) :
      Ending functions config oneShot r texts start (.raised e, w)
  /-- The iteration after some requests does not come to its end. -/
  | hung {xs : List Exchange} {head w : Worker}
      (hserves : Serves functions config oneShot r start xs true head) (hsome : xs.map Exchange.message <+: texts)
      (hround : round functions config oneShot r head = (.hung, w))
      (hcleanup : xs.map Exchange.message = texts → (runHandler cleanup r head).1 ≠ .done ()) :
      Ending functions config oneShot r texts start (.hung, w)

section Process

variable {functions : List (Str × Function)} {config : Settings} {oneShot : Bool} {r : WorkerCtx}

theorem controlIn_cons {q : Request} {qs : List Request} {tail controlIn : List Str}
    (h : controlIn = (q :: qs).flatMap (fun q => q.handed ++ [endLine]) ++ tail) :
    controlIn = q.handed ++ endLine :: (qs.flatMap (fun q => q.handed ++ [endLine]) ++ tail) := by
  rw [h, List.flatMap_cons, List.append_assoc, List.append_assoc, List.singleton_append]

/-- The request that was answered first, and how it went on. -/
theorem Ending.cons {texts : List Str} {start entered next : Worker} {message : Str}
    {result : Outcome PyExc Unit × Worker} (henters : Enters config r start message entered)
    (hround : round functions config oneShot r start = (.done true, next)) (hgo : (oneShot || config.testing) = false)
    (hopen : next.closed = start.closed)
    (hending : Ending functions config oneShot r texts next result) :
    Ending functions config oneShot r (message :: texts) start result := by
  cases hending with
  | closed hserves hall hstays hclosed =>
      exact .closed (hserves.cons henters hround) (congrArg (message :: ·) hall) (hstays.trans hopen) hclosed
  | single honce hserves hfirst =>
      rw [hgo] at honce
      cases honce
  | raised hserves hsome hlast hcleanup =>
      refine .raised (hserves.cons henters hround) ((List.prefix_cons_inj message).mpr hsome) hlast ?_
      exact fun hall => hcleanup (List.cons.inj hall).2
  | hung hserves hsome hlast hcleanup =>
      refine .hung (hserves.cons henters hround) ((List.prefix_cons_inj message).mpr hsome) hlast ?_
      exact fun hall => hcleanup (List.cons.inj hall).2

/-- A first iteration that does not come to its end. -/
theorem Ending.of_round {texts : List Str} {start : Worker} (hbroken : ∀ go, (round functions config oneShot r start).1 ≠ .done go)
    (hcleanup : texts = [] → (runHandler cleanup r start).1 ≠ .done ()) (fuel : Nat) :
    Ending functions config oneShot r texts start (process functions config oneShot (fuel + 1) r start) := by
  rw [process]
  rcases hround : round functions config oneShot r start with ⟨go | e | _, w⟩
  · rw [hround] at hbroken
    exact absurd rfl (hbroken go)
  · rw [bind_run_raised hround]
    exact .raised .start (List.nil_prefix) hround fun hall => hcleanup hall.symm
  · rw [bind_run, hround]
    exact .hung .start (List.nil_prefix) hround fun hall => hcleanup hall.symm

theorem process_ending (qs : List Request) {tail : List Str} (htail : endLine ∉ tail) {w : Worker}
    (hw : w.controlIn = qs.flatMap (fun q => q.handed ++ [endLine]) ++ tail) {fuel : Nat} (hfuel : qs.length < fuel) :
    Ending functions config oneShot r (qs.map Request.text) w (process functions config oneShot fuel r w) := by
  induction qs generalizing w fuel with
  | nil =>
      -- all complete requests are answered
      obtain ⟨fuel, rfl⟩ := Nat.exists_eq_succ_of_ne_zero (Nat.ne_zero_of_lt hfuel)
      have hfree : endLine ∉ w.controlIn := by
        rw [hw]
        exact htail
      rcases (round_closed functions config oneShot r hfree).2 with ⟨w', hround, hclosed⟩ | ⟨hbroken, hcleanup⟩
      · rw [process, bind_run_done hround]
        exact .closed .start rfl rfl hclosed
      · exact Ending.of_round hbroken (fun _ => hcleanup) fuel
  | cons q qs ih =>
      obtain ⟨fuel, rfl⟩ := Nat.exists_eq_succ_of_ne_zero (Nat.ne_zero_of_lt hfuel)
      obtain ⟨-, hdone⟩ := round_request functions config oneShot r q (controlIn_cons hw)
      by_cases hends : ∃ go, (round functions config oneShot r w).1 = .done go
      · obtain ⟨go, hgo⟩ := hends
        obtain ⟨hgoes, hcontrol, hopen, entered, henters⟩ := hdone go hgo
        have hround : round functions config oneShot r w = (.done go, (round functions config oneShot r w).2) :=
          Prod.ext hgo rfl
        rw [process, bind_run_done hround]
        cases honce : (oneShot || config.testing) with
        | true =>
            -- the loop is left after the first request
            rw [honce] at hgoes
            obtain rfl : go = false := hgoes
            exact .single honce (.request .start henters hround) rfl
        | false =>
            rw [honce] at hgoes
            obtain rfl : go = true := hgoes
            exact Ending.cons henters hround honce hopen (ih hcontrol (Nat.lt_of_succ_lt_succ hfuel))
      · rw [not_exists] at hends
        exact Ending.of_round hends (fun hnil => absurd hnil (List.cons_ne_nil _ _)) fuel

/-- However long the run is: the functions are called for complete requests. -/
theorem process_calls (qs : List Request) {tail : List Str} (htail : endLine ∉ tail) {w : Worker}
    (hw : w.controlIn = qs.flatMap (fun q => q.handed ++ [endLine]) ++ tail) (fuel : Nat) :
    CallsFor (qs.map Request.text) w (process functions config oneShot fuel r w).2 := by
  induction fuel generalizing qs w with
  | zero => exact callsFor_of_eq rfl
  | succ fuel ih =>
      rw [process]
      cases qs with
      | nil =>
          have hfree : endLine ∉ w.controlIn := by
            rw [hw]
            exact htail
          obtain ⟨hcalls, hend⟩ := round_closed functions config oneShot r hfree
          apply bind_post (P := CallsFor [] w) (callsFor_of_eq hcalls)
          intro go next hround
          rw [hround] at hcalls hend
          rcases hend with ⟨w', hstop, -⟩ | ⟨hbroken, -⟩
          · obtain rfl : go = false := Outcome.done.inj (congrArg Prod.fst hstop)
            exact callsFor_of_eq hcalls
          · exact absurd rfl (hbroken go)
      | cons q qs =>
          obtain ⟨hcalls, hdone⟩ := round_request functions config oneShot r q (controlIn_cons hw)
          have hfirst : CallsFor ([q.text] ++ qs.map Request.text) w (round functions config oneShot r w).2 :=
            hcalls.append (callsFor_of_eq rfl)
          apply bind_post (P := CallsFor ((q :: qs).map Request.text) w) hfirst
          intro go next hround
          rw [hround] at hcalls hdone hfirst
          obtain ⟨-, hcontrol, -⟩ := hdone go rfl
          split
          · exact hcalls.append (ih qs hcontrol)
          · exact hfirst

end Process

/-- **Requests on a socket.**  Wherever the text of some requests is cut off, calls of `read_message` return the
requests that have arrived with their end mark, and raise an exception from then on.  A worker calls functions for
these requests only, each for one function at most and in their order.  A run that is long enough answers them all
and then closes the connection, unless it was to answer a single one, or the cleanup or an answer does not come to
its end. -/
theorem requests_framed (qs : List Request) (n : Nat) (r : WorkerCtx) (w : Worker) :
    let start := { w with controlIn := pieces '\n' ((sent qs).take n) }
    let texts := (received qs n).map Request.text
    received qs (sent qs).length = qs ∧
      (∀ calls, (readCalls calls r start).1 =
        .done ((texts.map .ok).take calls ++ List.replicate (calls - texts.length) (.error socketClosed))) ∧
      ∀ functions config oneShot fuel,
        CallsFor texts start (process functions config oneShot fuel r start).2 ∧
          Ending functions config oneShot r texts start
            (process functions config oneShot (texts.length + 1 + fuel) r start) := by
  intro start texts
  obtain ⟨tail, htail, hpieces⟩ := pieces_sent_take qs n
  have hlength : texts.length = (received qs n).length := List.length_map _
  refine ⟨received_all qs, fun calls => ?_, fun functions config oneShot fuel => ⟨?_, ?_⟩⟩
  · rw [hlength, List.map_map]
    exact calls_return_received qs n r w calls
  · exact process_calls (received qs n) htail hpieces fuel
  · refine process_ending (received qs n) htail hpieces ?_
    omega

end UnicoreTsi.Tsi
