/-
# UnicoreTsi.UploadChannel — what a failed upload leaves on the data channel.

`put_file_chunk` acknowledges an upload before it copies it, and the copy loop reads a block only after the
one before it has been written.  So a write error in any block but the last leaves the blocks after it on
the data channel, where the next upload finds them before its own data.  The channel stays in step over a
run exactly when every acknowledged upload is read to its end (`upload_channel_iff`).
-/
import UnicoreTsi.Chunks
import UnicoreTsi.ReplyFraming

set_option autoImplicit false

namespace UnicoreTsi.Tsi

open UnicoreTsi.Text UnicoreTsi.Effects UnicoreTsi.Utils UnicoreTsi.Connector UnicoreTsi.Io
open UnicoreTsi.BecomeUser UnicoreTsi.BssCommon UnicoreTsi.Replies

/-! ## One upload -/

/-- The path, open mode and length of an upload request that can be read. -/
def UploadRequest (environ : Environ) (msg path openMode : Str) (length : Int) : Prop :=
  ∃ rawPath mode, splitLastSpace (extractParameter msg "FILE".toList) = .ok (rawPath, mode) ∧
    path = expandVariables environ rawPath ∧
    openMode = openModeOf (extractParameter msg "FILESACTION".toList) ∧
    pyIntOpt (extractParameter msg "LENGTH".toList) = .ok length

/-- A message makes one upload request at most. -/
theorem UploadRequest.unique {environ : Environ} {msg path path' openMode openMode' : Str}
    {length length' : Int} (h : UploadRequest environ msg path openMode length)
    (h' : UploadRequest environ msg path' openMode' length') :
    path' = path ∧ openMode' = openMode ∧ length' = length := by
  obtain ⟨rawPath, mode, hfile, rfl, rfl, hlength⟩ := h
  obtain ⟨rawPath', mode', hfile', rfl, rfl, hlength'⟩ := h'
  cases hfile.symm.trans hfile'
  cases hlength.symm.trans hlength'
  exact ⟨rfl, rfl, rfl⟩

/-- An upload taken up in the state `s` is acknowledged: the file opens and the control channel works. -/
def Acknowledged (host : Host) (s : HandlerState) (path openMode : Str) : Prop :=
  host.sysCall s.tick (.open path openMode) = none ∧ s.broken = false ∧
    host.channelGone (s.tick + 1) = false

/-- If the upload is acknowledged, no write fails before all of it has been read. -/
def InStep (msg : Str) (r : HandlerCtx) (s : HandlerState) : Prop :=
  ∀ path openMode length, UploadRequest r.environ msg path openMode length →
    Acknowledged r.host s path openMode → Drains r.host r.fuel r.fuel (s.tick + 2) length.toNat

section Upload

variable {msg : Str} {config : Settings} {r : HandlerCtx} {s : HandlerState}

/-- A request that cannot be read leaves everything as it is. -/
theorem putFileChunk_unread (h : ∀ path openMode length,
    ¬UploadRequest r.environ msg path openMode length) : (putFileChunk msg config r s).2 = s := by
  unfold putFileChunk
  rw [bind_run_done ask_run]
  cases hfile : splitLastSpace (extractParameter msg "FILE".toList) with
  | error e => rfl
  | ok p =>
      obtain ⟨rawPath, mode⟩ := p
      cases hlength : pyIntOpt (extractParameter msg "LENGTH".toList) with
      | error e => rfl
      | ok length => exact absurd ⟨rawPath, mode, hfile, rfl, rfl, hlength⟩ (h _ _ length)

/-- The file is open: what is left on the data channel when the body of the `with` statement ends. -/
theorem receive_drains {path openMode : Str} {length : Int} (hempty : s.dataIn = [])
    (hupload : s.upload.length = length.toNat)
    (hends : (receive path openMode r.fuel length r { s with tick := s.tick + 1 }).1 ≠ .hung) :
    (receive path openMode r.fuel length r { s with tick := s.tick + 1 }).2.dataIn = [] ↔
      (s.broken = false ∧ r.host.channelGone (s.tick + 1) = false →
        Drains r.host r.fuel r.fuel (s.tick + 2) length.toNat) := by
  by_cases hchannel : s.broken = false ∧ r.host.channelGone (s.tick + 1) = false
  · rw [receive_run path openMode r.fuel length r { s with tick := s.tick + 1 } hchannel.1 hchannel.2]
      at hends ⊢
    let s₁ := receiving path openMode { s with tick := s.tick + 1 }
    have hthere : s₁.dataIn.length = length.toNat := by
      show (s.dataIn ++ s.upload).length = length.toNat
      rw [hempty, List.nil_append, hupload]
    have hcopied := copyBlocks_copied path r.fuel r.fuel length r s₁ hthere
    revert hcopied hends
    show (copyBlocks path r.fuel r.fuel length r s₁).1 ≠ .hung →
      BlocksCopied path r.host r.fuel r.fuel length.toNat s₁
        (copyBlocks path r.fuel r.fuel length r s₁) →
      ((copyBlocks path r.fuel r.fuel length r s₁).2.dataIn = [] ↔ _)
    rcases copyBlocks path r.fuel r.fuel length r s₁ with ⟨⟨⟩ | e | _, s₂⟩
    · rintro - ⟨-, hnone, hdrains, -⟩
      exact iff_of_true hnone fun _ => hdrains
    · rintro - ⟨-, hiff, -⟩
      exact hiff.trans ⟨fun h _ => h, fun h => h hchannel⟩
    · exact fun hends _ => absurd rfl hends
  · refine iff_of_true ?_ fun h => absurd h hchannel
    exact (receive_broken path openMode r.fuel length r _ hchannel).trans hempty

/-- An upload leaves the data channel empty exactly when it stays in step. -/
theorem putFileChunk_inStep (hempty : s.dataIn = [])
    (hupload : ∀ length, pyIntOpt (extractParameter msg "LENGTH".toList) = .ok length →
      s.upload.length = length.toNat)
    (hends : (putFileChunk msg config r s).1 ≠ .hung) :
    (putFileChunk msg config r s).2.dataIn = [] ↔ InStep msg r s := by
  by_cases hread : ∃ path openMode length, UploadRequest r.environ msg path openMode length
  · obtain ⟨path, openMode, length, hrequest⟩ := hread
    have hsame := hrequest
    obtain ⟨rawPath, mode, hfile, hpath, hmode, hlength⟩ := hsame
    rw [putFileChunk_run hfile hlength, ← hpath, ← hmode] at hends ⊢
    have hstep : InStep msg r s ↔ (Acknowledged r.host s path openMode →
        Drains r.host r.fuel r.fuel (s.tick + 2) length.toNat) := by
      constructor
      · exact fun h => h path openMode length hrequest
      · intro h path' openMode' length' hrequest'
        obtain ⟨rfl, rfl, rfl⟩ := hrequest.unique hrequest'
        exact h
    rw [hstep]
    -- closing the file and changing its mode only take answers
    have hafter : ∀ o : Outcome PyExc Unit × HandlerState,
        withFile path openMode (receive path openMode r.fuel length) r s = o →
        o.1 ≠ .hung ∧ ((withFile path openMode (receive path openMode r.fuel length) >>= fun _ =>
          setMode path mode) r s).2.dataIn = o.2.dataIn := by
      rintro ⟨⟨⟩ | e | _, s'⟩ hrun
      · refine ⟨nofun, ?_⟩
        rw [bind_run_done hrun]
        obtain ⟨n, hn⟩ := setMode_ticks path mode r s'
        rw [hn]
      · exact ⟨nofun, by rw [bind_run_raised hrun]⟩
      · exact absurd (by rw [bind_run, hrun]) hends
    obtain ⟨hended, hdata⟩ := hafter _ rfl
    rw [hdata]
    cases hopen : r.host.sysCall s.tick (.open path openMode) with
    | some e =>
        rw [withFile_closed hopen]
        refine iff_of_true hempty ?_
        rintro ⟨hopened, -⟩
        rw [hopen] at hopened
        cases hopened
    | none =>
        rw [withFile_opened hopen] at hended ⊢
        have hran : (receive path openMode r.fuel length r { s with tick := s.tick + 1 }).1 ≠ .hung :=
          fun h => hended (afterBody_hung h)
        obtain ⟨n, hn⟩ := afterBody_ticks r.host path
          (receive path openMode r.fuel length r { s with tick := s.tick + 1 })
        rw [hn, receive_drains hempty (hupload length hlength) hran]
        exact ⟨fun h hack => h hack.2, fun h hchannel => h ⟨hopen, hchannel⟩⟩
  · have hnone : ∀ path openMode length, ¬UploadRequest r.environ msg path openMode length :=
      fun path openMode length h => hread ⟨path, openMode, length, h⟩
    rw [putFileChunk_unread hnone]
    exact iff_of_true hempty fun path openMode length h => absurd h (hnone path openMode length)

end Upload

/-! ## One request -/

/-- Only answers of the host have been taken and the control channel written, other than to acknowledge
an upload. -/
def Speaks (s s' : HandlerState) : Prop :=
  ∃ n calls broken, s' = { s with tick := n, calls := calls, broken := broken }

instance : Std.Refl Speaks := ⟨fun s => ⟨s.tick, s.calls, s.broken, rfl⟩⟩

instance : IsTrans HandlerState Speaks := ⟨by
  rintro _ _ _ ⟨_, _, _, rfl⟩ ⟨n, calls, broken, rfl⟩
  exact ⟨n, calls, broken, rfl⟩⟩

theorem send_speaks {c : ConnCall} (hc : c ≠ .ok (some "ENDOFMESSAGE".toList)) : Within Speaks (send c) := by
  intro r s
  rw [send_run, acknowledge, if_neg hc]
  split <;> exact ⟨_, _, _, rfl⟩

theorem speaks_of_manages {w w' : Worker} (h : Manages w w') : Speaks w.io w'.io := by
  obtain ⟨n, _, _, _, _, _, rfl⟩ := h
  exact ⟨n, w.io.calls, w.io.broken, rfl⟩

theorem runHandler_speaks {x : Handler Unit} (hx : Within Speaks x) (r : WorkerCtx) (w : Worker) :
    Speaks w.io (runHandler x r w).2.io := hx _ w.io

section Request

variable {config : Settings} {r : WorkerCtx} {command message : Str} {function : Function}
variable {openUserSession : Bool}

theorem attemptFunction_of_starts (function : Function) (command : Str) {w v : Worker} (hv : Starts config r message openUserSession w v) :
    attemptFunction function command message openUserSession config r { w with pamSession := false } =
      invoke function command message config r v := by
  unfold Starts at hv
  unfold attemptFunction
  split at hv
  · rename_i hswitch
    rw [if_pos hswitch]
    exact bind_run_done hv
  · rename_i hswitch
    rw [if_neg hswitch, hv]

/-- What prevents the function from being called is an exception. -/
theorem attemptFunction_of_not_starts (function : Function) (command : Str) {w : Worker}
    (h : ∀ v, ¬Starts config r message openUserSession w v) :
    ∃ w₁, Manages w w₁ ∧
      ((∃ e, attemptFunction function command message openUserSession config r
          { w with pamSession := false } = (.raised e, w₁)) ∨
        attemptFunction function command message openUserSession config r
          { w with pamSession := false } = (.hung, w₁)) := by
  unfold Starts at h
  unfold attemptFunction
  by_cases hswitch : config.switchUid = true
  · rw [if_pos hswitch]
    have hassume := assumeIdentity_manages message openUserSession config r { w with pamSession := false }
    have hreset : Manages w { w with pamSession := false } :=
      ⟨w.io.tick, w.cred, w.environ, w.idCalls, w.pamEvents, false, rfl⟩
    have hmanages := trans_of Manages hreset hassume
    refine ⟨_, hmanages, ?_⟩
    rw [bind_run]
    rcases hrun : assumeIdentity message openUserSession config r { w with pamSession := false } with
      ⟨⟨⟩ | e | _, w₁⟩
    · exact absurd ((if_pos hswitch).mpr hrun) (h w₁)
    · exact Or.inl ⟨e, rfl⟩
    · exact Or.inr rfl
  · exact absurd ((if_neg hswitch).mpr rfl) (h { w with pamSession := false })

/-- A function of the table that is run in the worker itself: around its call the worker takes answers of
the host and writes on the control channel, and nothing more. -/
theorem runFunction_io {w w' : Worker}
    (hdone : runFunction function command message openUserSession config r w = (.done (), w')) :
    (∃ v, Starts config r message openUserSession w v ∧
      (function message config (handlerCtx r v) v.io).1 ≠ .hung ∧
      Speaks (function message config (handlerCtx r v) v.io).2 w'.io) ∨
    (∀ v, ¬Starts config r message openUserSession w v) ∧ Speaks w.io w'.io := by
  unfold runFunction at hdone
  rw [bind_run_done (modify_run _)] at hdone
  obtain ⟨⟨⟩, w₁, hcall, hafter⟩ := bind_eq_done.mp hdone
  have htail : Speaks w₁.io w'.io := by
    have hmanages := afterCall_manages config command openUserSession r w₁
    have hfinal := congrArg Prod.snd hafter
    rw [show w' = _ from hfinal.symm]
    exact speaks_of_manages hmanages
  -- whatever the `try` block has raised is reported before that
  have hreported : ∀ {e : PyExc} {v : Worker},
      attemptFunction function command message openUserSession config r { w with pamSession := false } =
        (.raised e, v) → Speaks v.io w'.io := by
    intro e v hraised
    rw [handle_run_raised hraised] at hcall
    have hspeaks := runHandler_speaks (send_speaks (c := .failed (some e.text)) nofun) r v
    have hfailed : runHandler (send (.failed (some e.text))) r v = (.done (), w₁) := hcall
    rw [hfailed] at hspeaks
    exact trans_of Speaks hspeaks htail
  by_cases hstarts : ∃ v, Starts config r message openUserSession w v
  · obtain ⟨v, hv⟩ := hstarts
    have hrun := attemptFunction_of_starts function command hv
    refine Or.inl ⟨v, hv, ?_⟩
    have hinvoke : invoke function command message config r v =
        ((function message config (handlerCtx r v) v.io).1, { v with
          io := (function message config (handlerCtx r v) v.io).2
          invocations := v.invocations ++
            [{ command := command, message := message, cred := v.cred }] }) := rfl
    rw [hinvoke] at hrun
    rcases hfunction : function message config (handlerCtx r v) v.io with ⟨⟨⟩ | e | _, io⟩
    · rw [hfunction] at hrun
      refine ⟨nofun, ?_⟩
      rw [handle_run_done hrun] at hcall
      have hsame := congrArg Prod.snd hcall
      rw [← show _ = w₁ from hsame] at htail
      exact htail
    · rw [hfunction] at hrun
      exact ⟨nofun, hreported hrun⟩
    · rw [hfunction] at hrun
      rw [handle, hrun] at hcall
      cases hcall
  · have hnone : ∀ v, ¬Starts config r message openUserSession w v := fun v hv => hstarts ⟨v, hv⟩
    refine Or.inr ⟨hnone, ?_⟩
    obtain ⟨w₂, hmanages, ⟨e, hraised⟩ | hhung⟩ :=
      attemptFunction_of_not_starts function command hnone
    · exact trans_of Speaks (speaks_of_manages hmanages) (hreported hraised)
    · rw [handle, hhung] at hcall
      cases hcall

/-- The same for a whole request, with its end mark. -/
theorem respond_io {functions : List (Str × Function)} {w w' : Worker}
    (hfind : findCommand functions message = some (command, function))
    (hping : command ≠ "TSI_PING".toList) (hown : command ∉ spawningCommands)
    (hdone : respond functions message config r w = (.done (), w')) :
    (∃ v, Starts config r message (userSession command config) w v ∧
      (function message config (handlerCtx r v) v.io).1 ≠ .hung ∧
      Speaks (function message config (handlerCtx r v) v.io).2 w'.io) ∨
    (∀ v, ¬Starts config r message (userSession command config) w v) ∧ Speaks w.io w'.io := by
  obtain ⟨⟨⟩, w₂, hanswer, hwrite⟩ := bind_eq_done.mp hdone
  have hsession : userSession command config = false := by
    have hspawns : decide (command ∈ spawningCommands) = false := decide_eq_false hown
    simp [userSession, hspawns]
  have hend : Speaks w₂.io w'.io := by
    have hspeaks := runHandler_speaks (send_speaks (c := .message endOfMessage) (by rintro ⟨⟩)) r w₂
    have hmark : runHandler (send (.message endOfMessage)) r w₂ = (.done (), w') := hwrite
    rwa [hmark] at hspeaks
  rw [answer_of_find config hfind hping, handleFunction, hsession] at hanswer
  rw [hsession]
  rcases runFunction_io hanswer with ⟨v, hstarts, hends, hspeaks⟩ | ⟨hnone, hspeaks⟩
  · exact Or.inl ⟨v, hstarts, hends, trans_of Speaks hspeaks hend⟩
  · exact Or.inr ⟨hnone, trans_of Speaks hspeaks hend⟩

end Request

/-! ## The run -/

theorem Speaks.dataIn {s s' : HandlerState} (h : Speaks s s') : s'.dataIn = s.dataIn := by
  obtain ⟨_, _, _, rfl⟩ := h
  rfl

def putCommand : Str := "TSI_PUTFILECHUNK".toList

/-- The upload of an exchange, if it gets as far as being acknowledged, is read to its end. -/
def Exchange.InStep (config : Settings) (r : WorkerCtx) (x : Exchange) : Prop :=
  ∀ v, Starts config r x.message (userSession putCommand config) x.entered v →
    Tsi.InStep x.message (handlerCtx r v) v.io

/-- The client has as many bytes ready as the request announces. -/
def Exchange.Announced (x : Exchange) : Prop :=
  ∀ length, pyIntOpt (extractParameter x.message "LENGTH".toList) = .ok length →
    x.entered.io.upload.length = length.toNat

section Channel

variable {bss : Bss} {config : Settings} {oneShot : Bool} {r : WorkerCtx} {start w : Worker}

/-- One upload on an empty data channel leaves it empty exactly when it stays in step. -/
theorem respond_inStep {x : Exchange}
    (hput : findCommand (initFunctions bss) x.message = some (putCommand, putFileChunk))
    (hempty : x.entered.io.dataIn = []) (hannounced : x.Announced)
    (hdone : respond (initFunctions bss) x.message config r x.entered = (.done (), x.answered)) :
    x.answered.io.dataIn = [] ↔ x.InStep config r := by
  have hping : putCommand ≠ "TSI_PING".toList := by decide
  have hown : putCommand ∉ spawningCommands := by decide
  rcases respond_io hput hping hown hdone with ⟨v, hstarts, hends, hspeaks⟩ | ⟨hnone, hspeaks⟩
  · obtain ⟨n, _, _, _, _, _, hv⟩ := hstarts.manages
    have hio : v.io = { x.entered.io with tick := n } := by rw [hv]
    have hempty' : v.io.dataIn = [] := by
      rw [hio]
      exact hempty
    have hupload : ∀ length, pyIntOpt (extractParameter x.message "LENGTH".toList) = .ok length →
        v.io.upload.length = length.toNat := by
      intro length hlength
      rw [hio]
      exact hannounced length hlength
    rw [hspeaks.dataIn, putFileChunk_inStep hempty' hupload hends]
    constructor
    · intro h v' hstarts'
      rwa [hstarts'.unique hstarts]
    · exact fun h => h v hstarts
  · refine iff_of_true (hspeaks.dataIn.trans hempty) ?_
    exact fun v hstarts => absurd hstarts (hnone v)

end Channel

/-! ## A disk that is full -/

/-- An upload request for `length` bytes, as lines on the control channel. -/
def putLines (path length : String) : List Str :=
  ["#TSI_PUTFILECHUNK\n".toList, "#TSI_FILE ".toList ++ path.toList ++ " 600\n".toList,
    "#TSI_LENGTH ".toList ++ length.toList ++ "\n".toList, endOfMessage ++ ['\n']]

/-- The request as the worker reads it. -/
def putRequest (path length : String) : Str := (putLines path length).dropLast.flatten

/-- A client with two uploads, of two bytes and of one. -/
def uploader : Worker :=
  { Worker.fresh (putLines "/tmp/a" "2" ++ putLines "/tmp/b" "1") with uploads := [[1, 2], [3]] }

def noSpace : PyExc :=
  { kind := .osError, errno := 28, text := "[Errno 28] No space left on device".toList }

/-- A host that hands out single bytes and cannot write to a file before the given tick. -/
def diskFullUntil (tick : Nat) : WorkerCtx where
  host := { calmHost UserDb.empty.cache with
    dataRead := fun _ => 1
    fileWrite := fun t => if t < tick then .error noSpace else .ok 32768 }
  fuel := 10

/-- The state in which the request at the front of the control channel is answered, and the one after. -/
def putEntered (r : WorkerCtx) (head : Worker) (rest : List Str) : Worker :=
  ((peerPrepares >>= fun _ => runHandler (sysCall (.chdir ownSettings.safeDir))) r
    { head with controlIn := rest }).2

theorem mem_initFunctions_put (bss : Bss) : (putCommand, putFileChunk) ∈ initFunctions bss :=
  List.mem_of_getElem? (show (initFunctions bss)[5]? = some (putCommand, putFileChunk) from rfl)

theorem findCommand_put_a : findCommand (initFunctions BssNobatch.nobatch) (putRequest "/tmp/a" "2") =
    some (putCommand, putFileChunk) :=
  (findCommand_iff_lines BssNobatch.nobatch (mem_initFunctions_put _) (by decide)).mpr (by decide)

theorem findCommand_put_b : findCommand (initFunctions BssNobatch.nobatch) (putRequest "/tmp/b" "1") =
    some (putCommand, putFileChunk) :=
  (findCommand_iff_lines BssNobatch.nobatch (mem_initFunctions_put _) (by decide)).mpr (by decide)

theorem enters_put {r : WorkerCtx} {head : Worker} {rest : List Str} {path length : String}
    (hpids : head.io.childPids = [])
    (hread : readLines [] head.controlIn = some (putRequest path length, rest))
    (hchdir : ∀ t, r.host.sysCall t (.chdir ownSettings.safeDir) = none) :
    Enters ownSettings r head (putRequest path length) (putEntered r head rest) := by
  refine ⟨head, { head with controlIn := rest }, ?_, ?_, ?_⟩
  · have hcleanup : cleanup { host := r.host, environ := head.environ, fuel := r.fuel } head.io =
        (.done (), head.io) := by
      unfold cleanup
      rw [bind_run_done get_run, hpids]
      rfl
    rw [runHandler_run, hcleanup]
  · have hmessage : readMessage r head = (.done (putRequest path length), { head with controlIn := rest }) := by
      unfold readMessage
      rw [bind_run_done get_run, hread]
      rfl
    unfold nextMessage
    exact handle_run_done (bind_run_done hmessage)
  · have hdone : ∀ w : Worker, (runHandler (sysCall (.chdir ownSettings.safeDir)) r w).1 = .done () := by
      intro w
      rw [runHandler_run, sysCall_run, hchdir]
    exact Prod.ext (hdone _) rfl

/-- What the function of the command does with such a request. -/
def storeUpload (path : Str) (length : Int) : Handler Unit := fun r s =>
  (withFile path "wb".toList (receive path "wb".toList r.fuel length) >>= fun _ =>
    setMode path "600".toList) r s

theorem putFileChunk_putRequest {path length : String} {n : Int}
    (hfile : givenValue (putRequest path length) "FILE".toList = some (path.toList ++ ' ' :: "600".toList))
    (haction : givenValue (putRequest path length) "FILESACTION".toList = none)
    (hlength : givenValue (putRequest path length) "LENGTH".toList = some length.toList)
    (hn : length.toList ≠ [] ∧ pyInt 10 length.toList = .ok n) (hpath : '$' ∉ path.toList)
    (config : Settings) :
    putFileChunk (putRequest path length) config = storeUpload path.toList n := by
  funext r s
  have hfile' := extractParameter_of_given (d := none) (by decide) hfile (by simp)
  have hlength' := extractParameter_of_given (d := none) (by decide) hlength hn.1
  have haction' : extractParameter (putRequest path length) "FILESACTION".toList = none := by
    rw [extractParameter_eq (by decide), haction]
  have hsplit : splitLastSpace (extractParameter (putRequest path length) "FILE".toList) =
      .ok (path.toList, "600".toList) := by
    rw [hfile']
    exact splitLastSpace_append (by decide)
  have hint : pyIntOpt (extractParameter (putRequest path length) "LENGTH".toList) = .ok n := by
    rw [hlength']
    exact hn.2
  rw [putFileChunk_run hsplit hint, haction', expandVariables_of_not_mem r.environ hpath]
  rfl

/-- The response to such a request. -/
def respondPut (path length : String) (n : Int) : WorkerM Unit := do
  handleFunction (fun _ _ => storeUpload path.toList n) putCommand (putRequest path length) ownSettings
  runHandler (writeMessage endOfMessage)

theorem respond_put {path length : String} {n : Int}
    (hfind : findCommand (initFunctions BssNobatch.nobatch) (putRequest path length) =
      some (putCommand, putFileChunk))
    (hput : putFileChunk (putRequest path length) ownSettings = storeUpload path.toList n) :
    respond (initFunctions BssNobatch.nobatch) (putRequest path length) ownSettings =
      respondPut path length n := by
  have hsame : handleFunction putFileChunk putCommand (putRequest path length) ownSettings =
      handleFunction (fun _ _ => storeUpload path.toList n) putCommand (putRequest path length)
        ownSettings := by
    unfold handleFunction runFunction attemptFunction invoke
    rw [hput]
  unfold respond respondPut
  rw [answer_of_find ownSettings hfind (by decide), hsame]

theorem respond_put_a : respond (initFunctions BssNobatch.nobatch) (putRequest "/tmp/a" "2") ownSettings =
    respondPut "/tmp/a" "2" 2 :=
  respond_put findCommand_put_a (putFileChunk_putRequest (by decide) (by decide) (by decide) (by decide)
    (by decide) _)

theorem respond_put_b : respond (initFunctions BssNobatch.nobatch) (putRequest "/tmp/b" "1") ownSettings =
    respondPut "/tmp/b" "1" 1 :=
  respond_put findCommand_put_b (putFileChunk_putRequest (by decide) (by decide) (by decide) (by decide)
    (by decide) _)

/-- The state after such a request. -/
def putAnswered (r : WorkerCtx) (head : Worker) (rest : List Str) (path length : String) (n : Int) : Worker :=
  (respondPut path length n r (putEntered r head rest)).2

theorem serves_put (xs : List Exchange) {r : WorkerCtx} {head start : Worker} {rest : List Str}
    {path length : String} {n : Int}
    (hserves : Serves (initFunctions BssNobatch.nobatch) ownSettings false r start xs true head)
    (henters : Enters ownSettings r head (putRequest path length) (putEntered r head rest))
    (hput : respond (initFunctions BssNobatch.nobatch) (putRequest path length) ownSettings =
      respondPut path length n)
    (hdone : (respondPut path length n r (putEntered r head rest)).1 = .done ()) :
    Serves (initFunctions BssNobatch.nobatch) ownSettings false r start
      (xs ++ [⟨putRequest path length, putEntered r head rest, putAnswered r head rest path length n⟩]) true
      (putAnswered r head rest path length n) := by
  have hrespond : respondPut path length n r (putEntered r head rest) =
      (.done (), putAnswered r head rest path length n) := by
    unfold putAnswered
    rw [← hdone]
  have hround : round (initFunctions BssNobatch.nobatch) ownSettings false r head =
      (.done true, putAnswered r head rest path length n) := by
    rw [round_of_enters henters, hput, bind_run_done hrespond]
    rfl
  exact Serves.request hserves henters hround

/-- The exchanges of the two requests. -/
def firstPut (r : WorkerCtx) : Exchange where
  message := putRequest "/tmp/a" "2"
  entered := putEntered r uploader (putLines "/tmp/b" "1")
  answered := putAnswered r uploader (putLines "/tmp/b" "1") "/tmp/a" "2" 2

def secondPut (r : WorkerCtx) : Exchange where
  message := putRequest "/tmp/b" "1"
  entered := putEntered r (firstPut r).answered []
  answered := putAnswered r (firstPut r).answered [] "/tmp/b" "1" 1

/-- Both requests are answered, whether or not the disk is full at first. -/
theorem serves_puts {tick : Nat} (htick : tick = 0 ∨ tick = 8) :
    Serves (initFunctions BssNobatch.nobatch) ownSettings false (diskFullUntil tick) uploader
      [firstPut (diskFullUntil tick), secondPut (diskFullUntil tick)] true
      (secondPut (diskFullUntil tick)).answered := by
  have hfirst : Enters ownSettings (diskFullUntil tick) uploader (putRequest "/tmp/a" "2")
      (putEntered (diskFullUntil tick) uploader (putLines "/tmp/b" "1")) :=
    enters_put (by decide +kernel) (by decide +kernel) fun _ => rfl
  have hanswered : (respondPut "/tmp/a" "2" 2 (diskFullUntil tick)
      (putEntered (diskFullUntil tick) uploader (putLines "/tmp/b" "1"))).1 = .done () := by
    rcases htick with rfl | rfl <;> decide +kernel
  have hserves : Serves (initFunctions BssNobatch.nobatch) ownSettings false (diskFullUntil tick) uploader
      [firstPut (diskFullUntil tick)] true (firstPut (diskFullUntil tick)).answered := by
    have hone := serves_put [] .start hfirst respond_put_a hanswered
    rw [List.nil_append] at hone
    unfold firstPut
    dsimp only
    exact hone
  have hpids : (firstPut (diskFullUntil tick)).answered.io.childPids = [] := by
    rcases htick with rfl | rfl <;> decide +kernel
  have hcontrol : readLines [] (firstPut (diskFullUntil tick)).answered.controlIn =
      some (putRequest "/tmp/b" "1", []) := by
    rcases htick with rfl | rfl <;> decide +kernel
  have hsecond : Enters ownSettings (diskFullUntil tick) (firstPut (diskFullUntil tick)).answered
      (putRequest "/tmp/b" "1") (putEntered (diskFullUntil tick) (firstPut (diskFullUntil tick)).answered []) :=
    enters_put hpids hcontrol fun _ => rfl
  have hanswered' : (respondPut "/tmp/b" "1" 1 (diskFullUntil tick)
      (putEntered (diskFullUntil tick) (firstPut (diskFullUntil tick)).answered [])).1 = .done () := by
    rcases htick with rfl | rfl <;> decide +kernel
  have hboth := serves_put [firstPut (diskFullUntil tick)] hserves hsecond respond_put_b hanswered'
  rw [List.singleton_append] at hboth
  unfold secondPut
  dsimp only
  exact hboth

theorem puts_found {r : WorkerCtx} : ∀ x ∈ [firstPut r, secondPut r],
    findCommand (initFunctions BssNobatch.nobatch) x.message = some (putCommand, putFileChunk) := by
  simp only [List.forall_mem_cons]
  exact ⟨findCommand_put_a, findCommand_put_b, by simp⟩

end UnicoreTsi.Tsi
