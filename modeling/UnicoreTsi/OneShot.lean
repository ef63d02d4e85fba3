/-
# UnicoreTsi.OneShot — a worker that answers a single request on its standard streams.

`Runner.main` starts the loop of the TSI for one request, with another connector: the request is read from the
standard input, and replies and data go to the standard output.  The functions for file chunks take any connector
(`Channel`).  Over sockets they are those of `UnicoreTsi.Io` (`getFileChunk_sockets`, `putFileChunk_sockets`); over
the standard streams they move blocks of base 64.  `process` answers one request, and says what its function says
and the end of the answer (`Asked.process_function`).
-/
import UnicoreTsi.ChunkTransfer
import UnicoreTsi.DataBlocks

set_option autoImplicit false

namespace UnicoreTsi.OneShot

open UnicoreTsi.Text UnicoreTsi.Effects UnicoreTsi.Utils UnicoreTsi.Connector UnicoreTsi.BssCommon UnicoreTsi.BecomeUser
open UnicoreTsi.Tsi UnicoreTsi.Io UnicoreTsi.Framing

/-! ## Connectors -/

/-- A connector of one kind or the other, and the calls that have nothing to do with it. -/
structure Channel (σ : Type) where
  call : {α : Type} → Handler α → Comp HandlerCtx σ PyExc α
  ok : Option Str → Comp HandlerCtx σ PyExc Unit
  failed : Str → Comp HandlerCtx σ PyExc Unit
  writeMessage : Str → Comp HandlerCtx σ PyExc Unit
  readData : Nat → Comp HandlerCtx σ PyExc (List UInt8)
  writeData : List UInt8 → Comp HandlerCtx σ PyExc Nat

/-- `Connector` -/
def sockets : Channel HandlerState where
  call x := x
  ok := Connector.ok
  failed message := Connector.failed (some message)
  writeMessage := Connector.writeMessage
  readData := Connector.readData
  writeData := Connector.writeData

/-- The state of the handlers, and the lines that are left on the standard input. -/
structure Stdio where
  io : HandlerState
  lines : List Str

def onIo {α : Type} (x : Handler α) : Comp HandlerCtx Stdio PyExc α :=
  focus id Stdio.io (fun io s => { s with io := io }) id x

/-- `StreamConnector.write_message` -/
def print (message : Str) : Comp HandlerCtx Stdio PyExc Unit := onIo (Connector.writeMessage message)

/-- `StreamConnector` -/
def streams : Channel Stdio where
  call := onIo
  ok message := do
    print "TSI_OK".toList
    match message with
    | none => pure ()
    | some m => print m
  failed message := print ("TSI_FAILED: ".toList ++ replaceChar '\n' ":".toList message)
  writeMessage := print
  -- how much is asked for does not matter
  readData _ := do
    let s ← get
    modify fun s => { s with lines := (StreamConnector.readData s.lines).2 }
    ofExcept (StreamConnector.readData s.lines).1
  writeData data := do
    print StreamConnector.dataBegin
    print (StreamConnector.b64encode data)
    print StreamConnector.dataEnd
    return data.length

/-! ## The chunk functions over a connector -/

section Chunks

variable {σ : Type} (c : Channel σ)

/-- `with io.FileIO(path, mode) as f: body` -/
def withFile {α : Type} (path mode : Str) (body : Comp HandlerCtx σ PyExc α) : Comp HandlerCtx σ PyExc α := do
  c.call (sysCall (.open path mode))
  let a ← handle body fun e => do
    c.call (sysCall (.close path))
    raise e
  c.call (sysCall (.close path))
  return a

/-- The write loop over `buf[write_offset:total]`. -/
def writeChunk (buf : List UInt8) (total : Nat) : Nat → Nat → Int → Comp HandlerCtx σ PyExc Unit
  | 0, _, _ => diverge
  | fuel + 1, writeOffset, mustWrite =>
      if mustWrite > 0 then do
        let written ← c.writeData ((buf.take total).drop writeOffset)
        writeChunk buf total fuel (writeOffset + written) (mustWrite - written)
      else
        return ()

def getFileChunk (msg : Str) (_config : Settings) : Comp HandlerCtx σ PyExc Unit := do
  let r ← ask
  let path ← ofExcept (expandVariablesOpt r.environ (extractParameter msg "FILE".toList))
  let start ← ofExcept (pyIntOpt (extractParameter msg "START".toList))
  let length ← ofExcept (pyIntOpt (extractParameter msg "LENGTH".toList))
  withFile c path "rb".toList do
    let seekable ← c.call (consult fun h t => h.seekable t path)
    if seekable then
      c.call (sysCall (.seek path start))
    if length < 0 then
      raise (valueError "negative count")
    let pos := if seekable then start.toNat else 0
    let (buf, total) ← c.call (readChunk path r.fuel pos (List.replicate length.toNat 0) 0 length)
    c.ok (some ("TSI_LENGTH ".toList ++ natText total ++ "\nENDOFMESSAGE".toList))
    writeChunk c buf total r.fuel 0 total

/-- The copy loop from the connector to the file. -/
def copyBlocks (path : Str) (blockFuel : Nat) : Nat → Int → Comp HandlerCtx σ PyExc Unit
  | 0, _ => diverge
  | fuel + 1, remaining =>
      if remaining > 0 then do
        let buf ← c.readData remaining.toNat
        c.call (writeBlock path blockFuel buf)
        copyBlocks path blockFuel fuel (remaining - buf.length)
      else
        return ()

def putFileChunk (msg : Str) (_config : Settings) : Comp HandlerCtx σ PyExc Unit := do
  let r ← ask
  let (rawPath, mode) ← ofExcept (splitLastSpace (extractParameter msg "FILE".toList))
  let path := expandVariables r.environ rawPath
  let action := (extractParameter msg "FILESACTION".toList).getD "1".toList
  let length ← ofExcept (pyIntOpt (extractParameter msg "LENGTH".toList))
  let openMode := if action = "3".toList then "ab".toList else "wb".toList
  withFile c path openMode do
    c.call (openForWriting path openMode)
    c.ok (some "ENDOFMESSAGE".toList)
    copyBlocks c path r.fuel r.fuel length
  c.call (handle
    (do
      let bits ← ofExcept (pyInt 8 mode)
      sysCall (.chmod path bits))
    fun e => if e.isOSError then pure () else raise e)

end Chunks

/-! ## Over sockets -/

theorem writeChunk_sockets (buf : List UInt8) (total fuel offset : Nat) (left : Int) :
    writeChunk sockets buf total fuel offset left = Io.writeChunk buf total fuel offset left := by
  induction fuel generalizing offset left with
  | zero => rfl
  | succ fuel ih =>
      unfold writeChunk Io.writeChunk
      simp only [ih]
      rfl

theorem copyBlocks_sockets (path : Str) (blockFuel fuel : Nat) (left : Int) :
    copyBlocks sockets path blockFuel fuel left = Io.copyBlocks path blockFuel fuel left := by
  induction fuel generalizing left with
  | zero => rfl
  | succ fuel ih =>
      unfold copyBlocks Io.copyBlocks
      simp only [ih]
      rfl

/-- Over sockets the functions are those of the worker that is connected to UNICORE/X. -/
theorem getFileChunk_sockets : getFileChunk sockets = Io.getFileChunk := by
  funext msg config
  unfold getFileChunk Io.getFileChunk
  simp only [writeChunk_sockets]
  rfl

theorem putFileChunk_sockets : putFileChunk sockets = Io.putFileChunk := by
  funext msg config
  unfold putFileChunk Io.putFileChunk
  simp only [copyBlocks_sockets]
  rfl

/-! ## The process -/

/-- What a connector does in the worker; the standard input is its control channel. -/
def onStreams (x : Comp HandlerCtx Stdio PyExc Unit) : WorkerM Unit := fun r w =>
  let (o, t) := x { host := r.host, environ := w.environ, fuel := r.fuel } ⟨w.io, w.controlIn⟩
  (o, { w with io := t.io, controlIn := t.lines })

/-- A function of the table. -/
def overStreams (entry : Str × Tsi.Function) (msg : Str) (config : Settings) : Comp HandlerCtx Stdio PyExc Unit :=
  if entry.1 = "TSI_GETFILECHUNK".toList then getFileChunk streams msg config
  else if entry.1 = "TSI_PUTFILECHUNK".toList then putFileChunk streams msg config
  else onIo (entry.2 msg config)

/-- `handle_function`.  `Runner.main` switches PAM sessions off, so there is no child. -/
def handleFunction (function : Comp HandlerCtx Stdio PyExc Unit) (command msg : Str) (config : Settings) :
    WorkerM Unit := do
  handle
    (do
      if config.switchUid then
        assumeIdentity msg false config
      modify fun w => { w with
        invocations := w.invocations ++ [{ command := command, message := msg, cred := w.cred }] }
      onStreams function)
    fun e => onStreams (streams.failed e.text)
  if config.switchUid then
    restoreId config

def answer (bss : Bss) (message : Str) (config : Settings) : WorkerM Unit :=
  match findCommand (initFunctions bss) message with
  | none => onStreams (streams.failed unknownCommand)
  | some entry =>
      if entry.1 = "TSI_PING".toList then onStreams (streams.ok (some myVersion))
      else handleFunction (overStreams entry message config) entry.1 message config

/-- `process` with `one_shot`. -/
def process (bss : Bss) (config : Settings) : WorkerM Unit := do
  runHandler cleanup
  let next ← nextMessageOf streamReader
  match next with
  | none => modify fun w => { w with closed := true }
  | some message =>
      runHandler (sysCall (.chdir config.safeDir))
      answer bss message config
      onStreams (streams.writeMessage endOfMessage)

/-! ## Single calls -/

section Calls

variable {r : HandlerCtx} {s : Stdio}

theorem onIo_run {α : Type} (x : Handler α) : onIo x r s = ((x r s.io).1, { s with io := (x r s.io).2 }) := by
  unfold onIo focus
  dsimp only [id]
  rcases x r s.io with ⟨a | e | _, t⟩ <;> rfl

theorem onIo_done {α : Type} {x : Handler α} {a : α} {t : HandlerState} (h : x r s.io = (.done a, t)) :
    onIo x r s = (.done a, { s with io := t }) := by
  rw [onIo_run, h]

/-- What has been said on the standard output after a number of messages. -/
def said (messages : List Str) (s : HandlerState) : HandlerState :=
  { s with tick := s.tick + messages.length, calls := s.calls ++ messages.map .message }

theorem said_said (messages others : List Str) (s : HandlerState) :
    said others (said messages s) = said (messages ++ others) s := by
  simp [said, Nat.add_assoc]

theorem print_run (hup : ∀ t, r.host.channelGone t = false) (hbroken : s.io.broken = false) (message : Str) :
    print message r s = (.done (), { s with io := said [message] s.io }) :=
  onIo_done (send_connected (hup _) hbroken (by simp))

theorem ok_run (hup : ∀ t, r.host.channelGone t = false) (hbroken : s.io.broken = false) (message : Str) :
    streams.ok (some message) r s = (.done (), { s with io := said ["TSI_OK".toList, message] s.io }) := by
  refine (bind_run_done (print_run hup hbroken _)).trans ?_
  refine (print_run (s := { s with io := said ["TSI_OK".toList] s.io }) hup hbroken message).trans ?_
  rw [said_said]
  rfl

theorem writeData_run (hup : ∀ t, r.host.channelGone t = false) (hbroken : s.io.broken = false) (data : List UInt8) :
    streams.writeData data r s = (.done data.length, { s with io := said (StreamConnector.blockLines data) s.io }) := by
  have hprint : ∀ messages message, print message r { s with io := said messages s.io } =
      (.done (), { s with io := said (messages ++ [message]) s.io }) := by
    intro messages message
    rw [print_run (s := { s with io := said messages s.io }) hup hbroken, said_said]
  refine (bind_run_done (print_run hup hbroken _)).trans ?_
  refine (bind_run_done (hprint [StreamConnector.dataBegin] _)).trans ?_
  exact bind_run_done (hprint [StreamConnector.dataBegin, StreamConnector.b64encode data] _)

/-- The text of messages is that of their lines. -/
theorem channelText_messages (messages : List Str) : channelText (messages.map .message) = unlines messages := by
  show List.flatMap _ (List.map _ messages) = _
  rw [List.flatMap_map]
  rfl

theorem readData_run {data : List UInt8} {rest : List Str} (h : StreamConnector.readData s.lines = (.ok data, rest))
    (maxlen : Nat) : streams.readData maxlen r s = (.done data, { s with lines := rest }) := by
  show (get >>= fun s => modify (fun s => { s with lines := (StreamConnector.readData s.lines).2 }) >>= fun _ =>
    ofExcept (StreamConnector.readData s.lines).1 : Comp HandlerCtx Stdio PyExc (List UInt8)) r s = _
  rw [bind_run_done get_run, bind_run_done (modify_run _), h]
  rfl

end Calls

/-! ## One request -/

/-- A worker as `Runner.main` starts it without the rights to change identity, a request on its standard input, and
what comes after the request. -/
structure Asked (config : Settings) (r : WorkerCtx) (message : Str) (rest : List Str) (w : Worker) : Prop where
  own : config.switchUid = false
  connected : ∀ t, r.host.channelGone t = false
  safeDir : ∀ t, r.host.sysCall t (.chdir config.safeDir) = none
  silent : w.io.calls = []
  broken : w.io.broken = false
  childless : w.io.childPids = []
  input : ∃ lines, (∀ line ∈ lines, ¬ StreamConnector.Ends endOfMessage line) ∧ lines.flatten = message ∧
    w.controlIn = lines ++ endLine :: rest

/-- The reply to an exception. -/
def failure : Outcome PyExc Unit → List Str
  | .raised e => ["TSI_FAILED: ".toList ++ replaceChar '\n' ":".toList e.text]
  | _ => []

section Request

variable {config : Settings} {r : WorkerCtx} {message : Str} {rest : List Str} {w : Worker} {bss : Bss}

theorem onStreams_run {x : Comp HandlerCtx Stdio PyExc Unit} {o : Outcome PyExc Unit} {s : Stdio}
    (h : x { host := r.host, environ := w.environ, fuel := r.fuel } ⟨w.io, w.controlIn⟩ = (o, s)) :
    onStreams x r w = (o, { w with io := s.io, controlIn := s.lines }) := by
  unfold onStreams
  rw [h]

/-- The state in which the request is answered. -/
def entering (rest : List Str) (w : Worker) : Worker :=
  { w with io := { w.io with tick := w.io.tick + 1 }, controlIn := rest }

theorem Asked.process_run (h : Asked config r message rest w) (bss : Bss) :
    process bss config r w =
      (answer bss message config >>= fun _ => onStreams (streams.writeMessage endOfMessage)) r (entering rest w) := by
  obtain ⟨lines, hlines, rfl, hinput⟩ := h.input
  have hcleanup : runHandler cleanup r w = (.done (), w) := by
    have hnone : cleanup { host := r.host, environ := w.environ, fuel := r.fuel } w.io = (.done (), w.io) := by
      unfold cleanup
      rw [bind_run_done get_run, h.childless]
      rfl
    rw [runHandler_run, hnone]
  have hread : streamReader.read w.controlIn = (.ok lines.flatten, rest) := by
    rw [hinput]
    exact streamReader_of_eq (StreamConnector.readMessage_ends hlines ends_endLine rest)
  have hchdir : runHandler (sysCall (.chdir config.safeDir)) r { w with controlIn := rest } =
      (.done (), entering rest w) := by
    rw [runHandler_run, sysCall_run, h.safeDir]
    rfl
  unfold process
  refine (bind_run_done hcleanup).trans ((bind_run_done (nextMessageOf_ok hread r)).trans ?_)
  exact bind_run_done hchdir

/-- A function runs with the rights of the process; if it raises an exception, a failure is reported. -/
theorem handleFunction_run (hown : config.switchUid = false) (hup : ∀ t, r.host.channelGone t = false)
    {function : Comp HandlerCtx Stdio PyExc Unit} (command msg : Str) {o : Outcome PyExc Unit} {s : Stdio}
    (hrun : function { host := r.host, environ := w.environ, fuel := r.fuel } ⟨w.io, w.controlIn⟩ = (o, s))
    (hends : o ≠ .hung) (hbroken : s.io.broken = false) :
    handleFunction function command msg config r w = (.done (), { w with
      invocations := w.invocations ++ [{ command := command, message := msg, cred := w.cred }]
      io := said (failure o) s.io
      controlIn := s.lines }) := by
  let called : Worker := { w with
    invocations := w.invocations ++ [{ command := command, message := msg, cred := w.cred }] }
  have hcalled : onStreams function r called = (o, { called with io := s.io, controlIn := s.lines }) :=
    onStreams_run hrun
  unfold handleFunction
  rw [hown]
  rcases o with ⟨⟩ | e | _
  · refine (bind_run_done (handle_run_done hcalled)).trans ?_
    simp [said, failure, called]
  · have hfailed : onStreams (streams.failed e.text) r { called with io := s.io, controlIn := s.lines } =
        (.done (), { called with io := said (failure (.raised e)) s.io, controlIn := s.lines }) :=
      onStreams_run (w := { called with io := s.io, controlIn := s.lines }) (print_run (s := s) hup hbroken _)
    exact bind_run_done ((handle_run_raised hcalled).trans hfailed)
  · exact absurd rfl hends

/-- A request for a function of the table. -/
theorem Asked.process_function (h : Asked config r message rest w) {entry : Str × Tsi.Function}
    (hcommand : findCommand (initFunctions bss) message = some entry) (hping : entry.1 ≠ "TSI_PING".toList)
    {o : Outcome PyExc Unit} {s : Stdio}
    (hrun : overStreams entry message config { host := r.host, environ := w.environ, fuel := r.fuel }
      ⟨(entering rest w).io, rest⟩ = (o, s))
    (hends : o ≠ .hung) (hbroken : s.io.broken = false) :
    ∃ w', process bss config r w = (.done (), w') ∧ w'.io = said (failure o ++ [endOfMessage]) s.io ∧
      w'.controlIn = s.lines := by
  have hanswer : answer bss message config =
      handleFunction (overStreams entry message config) entry.1 message config := by
    unfold answer
    rw [hcommand]
    exact if_neg hping
  have hfunction := handleFunction_run (w := entering rest w) h.own h.connected entry.1 message hrun hends hbroken
  rw [h.process_run bss, hanswer, bind_run_done hfunction]
  have hended := print_run (r := { host := r.host, environ := w.environ, fuel := r.fuel })
    (s := ⟨said (failure o) s.io, s.lines⟩) h.connected hbroken endOfMessage
  rw [said_said] at hended
  exact ⟨_, onStreams_run hended, rfl, rfl⟩

end Request

end UnicoreTsi.OneShot
