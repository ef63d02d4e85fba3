/-
# UnicoreTsi.ReplyFraming — how a peer divides the control channel into replies.

`process` ends every reply with a line `ENDOFMESSAGE`, and a peer takes every such line as the end of a
reply.  Nothing in the connector escapes the line: `failed` folds its message into one line, but `ok` and
`writeMessage` pass text on as it is.  So over any run the channel carries the replies in the order of the
requests, and the peer gets them back exactly when none of them has the line in it
(`reply_framing_iff`).
-/
import UnicoreTsi.OneStatus

set_option autoImplicit false

namespace UnicoreTsi.Tsi

open UnicoreTsi.Text UnicoreTsi.Framing UnicoreTsi.Effects UnicoreTsi.Utils UnicoreTsi.Connector
open UnicoreTsi.BssCommon UnicoreTsi.Replies

/-! ## The peer -/

/-- The replies a peer reads that takes each line `ENDOFMESSAGE` as the end of one. -/
def peerReplies (text : Str) : List Str := (frames endOfMessage (completeLines text)).map unlines

theorem channelText_append (cs ds : List ConnCall) :
    channelText (cs ++ ds) = channelText cs ++ channelText ds := List.flatMap_append

/-- Every call ends its text with a newline. -/
theorem channelText_terminated (calls : List ConnCall) : Terminated '\n' (channelText calls) := by
  induction calls with
  | nil => exact terminated_nil
  | cons c calls ih =>
      have hcall : Terminated '\n' (callText c ++ ['\n']) := terminated_append_mark (callText c)
      exact hcall.append ih

theorem completeLines_channelText_append (calls : List ConnCall) (s : Str) :
    completeLines (channelText calls ++ s) = completeLines (channelText calls) ++ completeLines s :=
  (channelText_terminated calls).frames_append s

theorem unlines_completeLines_channelText (calls : List ConnCall) :
    unlines (completeLines (channelText calls)) = channelText calls := channelText_terminated calls

/-- The lines of a reply and its end mark. -/
theorem completeLines_reply (reply : List ConnCall) :
    completeLines (channelText (reply ++ [.message endOfMessage])) =
      completeLines (channelText reply) ++ [endOfMessage] := by
  rw [channelText_append, completeLines_channelText_append]
  congr 1

/-- The lines of all replies of a connection. -/
theorem completeLines_replies (replies : List (List ConnCall)) :
    completeLines (channelText (replies.flatMap fun reply => reply ++ [.message endOfMessage])) =
      stream endOfMessage (replies.map fun reply => completeLines (channelText reply)) := by
  induction replies with
  | nil => rfl
  | cons reply replies ih =>
      rw [List.flatMap_cons, channelText_append, completeLines_channelText_append, completeLines_reply, ih,
        List.map_cons, stream_cons, List.append_assoc, List.singleton_append]

/-- The peer gets back the replies that were sent exactly when no line of them is the end mark. -/
theorem peerReplies_iff (replies : List (List ConnCall)) :
    peerReplies (channelText (replies.flatMap fun reply => reply ++ [.message endOfMessage])) =
        replies.map channelText ↔
      ∀ reply ∈ replies, endOfMessage ∉ completeLines (channelText reply) := by
  have hsent : replies.map channelText =
      (replies.map fun reply => completeLines (channelText reply)).map unlines := by
    rw [List.map_map]
    exact List.map_congr_left fun reply _ => (unlines_completeLines_channelText reply).symm
  have hframes : ∀ fs gs : List (List Str), (∀ f ∈ fs, ∀ l ∈ f, '\n' ∉ l) →
      (∀ g ∈ gs, ∀ l ∈ g, '\n' ∉ l) → (fs.map unlines = gs.map unlines ↔ fs = gs) := by
    intro fs gs hfs hgs
    constructor
    · intro h
      have hback : ∀ xs : List (List Str), (∀ x ∈ xs, ∀ l ∈ x, '\n' ∉ l) →
          (xs.map unlines).map completeLines = xs := by
        intro xs hxs
        rw [List.map_map]
        exact (List.map_congr_left fun x hx => completeLines_unlines (hxs x hx)).trans (List.map_id xs)
      rw [← hback fs hfs, h, hback gs hgs]
    · exact fun h => congrArg _ h
  unfold peerReplies
  rw [hsent, hframes, completeLines_replies, frames_stream_iff]
  · simp only [List.forall_mem_map]
  · intro f hf l hl
    exact not_mem_of_mem_completeLines _ l (mem_of_mem_frames _ f hf hl)
  · intro g hg l hl
    obtain ⟨reply, -, rfl⟩ := List.mem_map.mp hg
    exact not_mem_of_mem_completeLines _ l hl

/-- What `failed` writes is one line that is not the end mark. -/
theorem failed_one_line (m : Option Str) :
    ∃ l, completeLines (channelText [.failed m]) = [l] ∧ l ≠ endOfMessage := by
  have hline : ∀ l, '\n' ∉ l → completeLines (l ++ ['\n']) = [l] := by
    intro l hl
    rw [completeLines_line hl, completeLines_of_not_mem (by simp)]
  cases m with
  | none => exact ⟨"TSI_FAILED: ".toList, hline "TSI_FAILED: ".toList (by decide), by decide⟩
  | some m =>
      have hmessage : '\n' ∉ replaceChar '\n' ":".toList m := not_mem_replaceChar (by decide) m
      have htext : '\n' ∉ "TSI_FAILED: ".toList ++ replaceChar '\n' ":".toList m := by
        rw [List.mem_append, not_or]
        exact ⟨by decide, hmessage⟩
      refine ⟨"TSI_FAILED: ".toList ++ replaceChar '\n' ":".toList m, ?_, ?_⟩
      · rw [channelText, List.flatMap_singleton]
        exact hline _ htext
      · intro h
        have hhead : some 'T' = some 'E' := congrArg List.head? h
        exact absurd hhead (by decide)

/-! ## The run -/

/-- The calls made while the request was answered, without the end mark of `process`. -/
def Exchange.reply (x : Exchange) : List ConnCall :=
  (x.answered.io.calls.drop x.entered.io.calls.length).dropLast

/-- What these calls wrote. -/
def Exchange.text (x : Exchange) : Str := channelText x.reply

/-- Nothing is written between two requests. -/
theorem enters_calls {config : Settings} {r : WorkerCtx} {head entered : Worker} {message : Str}
    (h : Enters config r head message entered) : entered.io.calls = head.io.calls := by
  obtain ⟨n, pids, upload, hio⟩ := h.io
  rw [hio]

section Framing

variable {bss : Bss} {config : Settings} {oneShot : Bool} {r : WorkerCtx} {start w : Worker}

/-- Each request adds its reply and the end mark to what is written on the connection. -/
theorem serves_calls (hbss : BssAnswers bss) {xs : List Exchange} {go : Bool}
    (hserves : Serves (initFunctions bss) config oneShot r start xs go w)
    (hchunk : ∀ x ∈ xs, ∀ command function,
      findCommand (initFunctions bss) x.message = some (command, function) → command ∉ chunkCommands) :
    w.io.calls = start.io.calls ++
      (xs.map Exchange.reply).flatMap fun reply => reply ++ [.message endOfMessage] := by
  induction hserves with
  | start => simp
  | @request xs head entered next message go hserves henters hround ih =>
      have hhead := ih fun x hx => hchunk x (List.mem_append_left _ hx)
      have hrespond := respond_of_round henters hround
      obtain ⟨t, ht⟩ := exists_messageReports (initFunctions bss) config r entered message
      have hlast := hchunk ⟨message, entered, next⟩ (List.mem_append_right _ List.mem_cons_self)
      obtain ⟨reply, hcalls, -⟩ := respond_reply hbss hlast ht hrespond
      have hreply : Exchange.reply ⟨message, entered, next⟩ = reply := by
        unfold Exchange.reply
        show (next.io.calls.drop entered.io.calls.length).dropLast = reply
        rw [hcalls, List.append_assoc, List.drop_left, List.dropLast_concat]
      have hentered : entered.io.calls = head.io.calls := enters_calls henters
      rw [hcalls, hentered, hhead, List.map_append, List.flatMap_append, List.map_singleton,
        List.flatMap_singleton, hreply, List.append_assoc, List.append_assoc]

end Framing

/-! ## A script that prints the end mark -/

/-- A worker that does not switch users. -/
def ownSettings : Settings := { switchUid := false, effectiveUid := 1000 }

/-- A host on which every command prints the same. -/
def printingHost (output : String) : Host :=
  { calmHost UserDb.empty.cache with checkOutput := fun _ _ => .ok (0, output.toUTF8.data.toList) }

/-- A request to run a script, as lines on the control channel. -/
def scriptLines : List Str :=
  ["#TSI_EXECUTESCRIPT\n".toList, "./report\n".toList, endOfMessage ++ ['\n']]

/-- The worker's context when the script prints `output`. -/
def printing (output : String) : WorkerCtx := { host := printingHost output, fuel := 10 }

/-- The state in which the first request is answered, and the one after. -/
def scriptEntered (output : String) : Worker :=
  ((peerPrepares >>= fun _ => runHandler (sysCall (.chdir ownSettings.safeDir))) (printing output)
    { Worker.fresh scriptLines with controlIn := [] }).2

def scriptAnswered (output : String) : Worker :=
  (respond (initFunctions BssNobatch.nobatch) "#TSI_EXECUTESCRIPT\n./report\n".toList ownSettings
    (printing output) (scriptEntered output)).2

def scriptExchange (output : String) : Exchange :=
  ⟨"#TSI_EXECUTESCRIPT\n./report\n".toList, scriptEntered output, scriptAnswered output⟩

theorem serves_script (output : String)
    (hdone : (respond (initFunctions BssNobatch.nobatch) "#TSI_EXECUTESCRIPT\n./report\n".toList ownSettings
      (printing output) (scriptEntered output)).1 = .done ()) :
    Serves (initFunctions BssNobatch.nobatch) ownSettings false (printing output) (Worker.fresh scriptLines)
      [scriptExchange output] true (scriptAnswered output) := by
  have henters : Enters ownSettings (printing output) (Worker.fresh scriptLines)
      "#TSI_EXECUTESCRIPT\n./report\n".toList (scriptEntered output) :=
    ⟨Worker.fresh scriptLines, { Worker.fresh scriptLines with controlIn := [] }, rfl, rfl, rfl⟩
  have hround : round (initFunctions BssNobatch.nobatch) ownSettings false (printing output)
      (Worker.fresh scriptLines) = (.done true, scriptAnswered output) := by
    rw [round_of_enters henters, bind_run_done (Prod.ext hdone rfl)]
    rfl
  exact Serves.request .start henters hround

end UnicoreTsi.Tsi
