/-
# UnicoreTsi.Connector — the control channel and the data channel to UNICORE/X.

`failed`, `ok` and `writeMessage` write lines to the control channel; `readData` and `writeData` move
bytes on the data channel; `readMessage` collects the lines of a request up to `ENDOFMESSAGE`.  Every
writing call is recorded before it is made, so the record lists the calls whether or not the channel
still takes them.  A channel that fails once stays failed: the text layer keeps the bytes it could not
deliver and fails again on the next flush.
-/
import UnicoreTsi.Utils

set_option autoImplicit false

namespace UnicoreTsi.Connector

open UnicoreTsi.Text UnicoreTsi.Effects UnicoreTsi.Utils

/-! ## Control channel, output -/

/-- The text one call writes, before the newline `write_message` adds. -/
def callText : ConnCall → Str
  | .ok none => "TSI_OK".toList
  | .ok (some m) => "TSI_OK\n".toList ++ m
  | .failed none => "TSI_FAILED: ".toList
  | .failed (some m) => "TSI_FAILED: ".toList ++ replaceChar '\n' ":".toList m
  | .message m => m

/-- The characters a sequence of calls puts on the control channel. -/
def channelText (calls : List ConnCall) : Str := calls.flatMap fun c => callText c ++ ['\n']

def brokenPipe : PyExc := { kind := .osError, errno := 32, text := "[Errno 32] Broken pipe".toList }

/-- UNICORE/X answers the acknowledgement of an upload by sending the data. -/
def acknowledge (c : ConnCall) (s : HandlerState) : HandlerState :=
  if c = .ok (some "ENDOFMESSAGE".toList) then
    { s with dataIn := s.dataIn ++ s.upload, upload := [] }
  else s

/-- Write the text of a call and flush it. -/
def send (c : ConnCall) : Handler Unit := do
  modify fun s => { s with calls := s.calls ++ [c] }
  let gone ← consult fun h t => h.channelGone t
  let s ← get
  if s.broken || gone then
    modify fun s => { s with broken := true }
    raise brokenPipe
  else
    modify (acknowledge c)

theorem send_run (c : ConnCall) (r : HandlerCtx) (s : HandlerState) :
    send c r s =
      if s.broken || r.host.channelGone s.tick then
        (.raised brokenPipe, { s with tick := s.tick + 1, calls := s.calls ++ [c], broken := true })
      else (.done (), acknowledge c { s with tick := s.tick + 1, calls := s.calls ++ [c] }) := by
  unfold send
  rw [bind_run_done (modify_run _), bind_run_done (consult_run _ _ _), bind_run_done get_run]
  cases s.broken || r.host.channelGone s.tick <;> simp [bind_run_done (modify_run _)]

theorem acknowledge_calls (c : ConnCall) (s : HandlerState) : (acknowledge c s).calls = s.calls := by
  unfold acknowledge
  split <;> rfl

theorem acknowledge_broken (c : ConnCall) (s : HandlerState) : (acknowledge c s).broken = s.broken := by
  unfold acknowledge
  split <;> rfl

/-- A call on a channel that is up.  The acknowledgement of an upload also brings the data. -/
theorem send_connected {c : ConnCall} {r : HandlerCtx} {s : HandlerState} (hup : r.host.channelGone s.tick = false)
    (hbroken : s.broken = false) (hc : c ≠ .ok (some "ENDOFMESSAGE".toList)) :
    send c r s = (.done (), { s with tick := s.tick + 1, calls := s.calls ++ [c] }) := by
  have hgone : ¬(s.broken || r.host.channelGone s.tick) = true := by
    rw [hbroken, hup]
    exact Bool.false_ne_true
  rw [send_run, if_neg hgone, acknowledge, if_neg hc]

/-- A call that returns found the channel in order. -/
theorem send_done {c : ConnCall} {r : HandlerCtx} {s s' : HandlerState} (h : send c r s = (.done (), s')) :
    s.broken = false ∧ s'.calls = s.calls ++ [c] := by
  rw [send_run] at h
  split at h
  · cases h
  · rename_i hgone
    obtain rfl := congrArg Prod.snd h
    have hbroken : s.broken = false := by
      cases hb : s.broken
      · rfl
      · simp [hb] at hgone
    exact ⟨hbroken, acknowledge_calls c _⟩

def failed (message : Option Str) : Handler Unit := send (.failed message)

def ok (message : Option Str) : Handler Unit := send (.ok message)

def writeMessage (message : Str) : Handler Unit := send (.message message)

/-- `run_and_report`: the output of a command is the reply. -/
def runAndReport (cmd : Str) (loginShell : Bool := true) : Handler Unit := do
  let (success, output) ← runCommand cmd false false loginShell
  if success then ok (some output) else failed (some output)

/-! ## Data channel -/

def bufSize : Nat := 32768

/-- How many bytes `read_data` asks its reader for, at most. -/
def readLimit (host : Host) (t maxlen : Nat) : Nat := min (max 1 (host.dataRead t)) (min maxlen bufSize)

/-- `read_data`: between one byte and as many as were asked for, of what the peer has sent. -/
def readData (maxlen : Nat) : Handler (List UInt8) := do
  let limit ← consult fun h t => readLimit h t maxlen
  let s ← get
  modify fun s => { s with dataIn := s.dataIn.drop limit }
  return s.dataIn.take limit

theorem readData_run (maxlen : Nat) (r : HandlerCtx) (s : HandlerState) :
    readData maxlen r s = (.done (s.dataIn.take (readLimit r.host s.tick maxlen)),
      { s with
        tick := s.tick + 1
        dataIn := s.dataIn.drop (readLimit r.host s.tick maxlen) }) := rfl

theorem readLimit_le (host : Host) (t maxlen : Nat) : readLimit host t maxlen ≤ maxlen :=
  (min_le_right _ _).trans (min_le_left _ _)

theorem readLimit_pos (host : Host) (t : Nat) {maxlen : Nat} (h : 0 < maxlen) :
    0 < readLimit host t maxlen := by
  have hsize : 0 < bufSize := by decide
  exact lt_min (lt_of_lt_of_le Nat.one_pos (le_max_left _ _)) (lt_min h hsize)

/-- `write_data`: how many bytes were written. -/
def writeData (data : List UInt8) : Handler Nat := do
  let written ← attempt fun h t => h.dataWrite t
  let n := match written with
    | none => data.length
    | some n => min n data.length
  modify fun s => { s with dataOut := s.dataOut ++ data.take n }
  return n

/-! ## Control channel, input -/

def endOfMessage : Str := "ENDOFMESSAGE".toList

def socketClosed : PyExc := { kind := .osError, text := "Socket closed".toList }

/-- The lines before `ENDOFMESSAGE` joined, and what the channel holds after it. -/
def readLines : Str → List Str → Option (Str × List Str)
  | _, [] => none
  | message, line :: rest =>
      if line = endOfMessage ++ ['\n'] then some (message, rest) else readLines (message ++ line) rest

/-- `read_message`: the end of the stream before `ENDOFMESSAGE` is an `IOError`. -/
def readMessage : WorkerM Str := do
  let w ← get
  match readLines [] w.controlIn with
  | some (message, rest) =>
      modify fun w => { w with controlIn := rest }
      return message
  | none =>
      modify fun w => { w with controlIn := [] }
      raise socketClosed

theorem readLines_length {acc : Str} {lines : List Str} {message : Str} {rest : List Str}
    (h : readLines acc lines = some (message, rest)) : rest.length < lines.length := by
  induction lines generalizing acc with
  | nil => simp [readLines] at h
  | cons line lines ih =>
      rw [readLines] at h
      split at h
      · simp only [Option.some.injEq, Prod.mk.injEq] at h
        rw [← h.2]
        exact Nat.lt_succ_self lines.length
      · exact (ih h).trans (Nat.lt_succ_self lines.length)

end UnicoreTsi.Connector
