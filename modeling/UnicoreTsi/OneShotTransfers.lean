/-
# UnicoreTsi.OneShotTransfers — file chunks over the standard streams.

There is no data channel: the data of an upload come in blocks after the request, and those of a download go out in a
block between the reply and the end of the answer.  An upload takes whole blocks until it has as many bytes as were
announced, or fails where they end (`one_shot_upload`), and a download is read back from the output
(`one_shot_download`).
-/
import UnicoreTsi.OneShot
import UnicoreTsi.ShortReads
import UnicoreTsi.UploadChannel

set_option autoImplicit false

namespace UnicoreTsi.OneShot

open UnicoreTsi.Text UnicoreTsi.Effects UnicoreTsi.Utils UnicoreTsi.Connector UnicoreTsi.BssCommon
open UnicoreTsi.Tsi UnicoreTsi.Io UnicoreTsi.Framing

/-! ## The copy loop over blocks -/

/-- The blocks that are read until so many bytes have come. -/
def taken : Int → List (List UInt8) → List (List UInt8)
  | _, [] => []
  | remaining, b :: bs => if remaining > 0 then b :: taken (remaining - b.length) bs else []

/-- Blocks with as many bytes as were announced are all taken, but for empty ones at the end. -/
theorem flatten_taken {blocks : List (List UInt8)} {remaining : Int} (h : remaining = blocks.flatten.length) :
    (taken remaining blocks).flatten = blocks.flatten := by
  induction blocks generalizing remaining with
  | nil => rfl
  | cons b bs ih =>
      rw [List.flatten_cons, List.length_append] at h
      unfold taken
      by_cases hmore : remaining > 0
      · rw [if_pos hmore, List.flatten_cons, List.flatten_cons, ih (by omega)]
      · have hnone : (b ++ bs.flatten).length = 0 := by
          rw [List.length_append]
          omega
        rw [if_neg hmore, List.flatten_cons, List.eq_nil_of_length_eq_zero hnone]
        rfl

/-- The lines in which blocks are sent. -/
def blockInput (blocks : List (List UInt8)) : List Str :=
  blocks.flatMap fun data => (StreamConnector.blockLines data).map (· ++ ['\n'])

/-- What is raised where the blocks end. -/
def noBlock : PyExc := valueError "not enough values to unpack (expected 2, got 1)"

/-- How the copy loop ends when nothing comes after the blocks. -/
def copyEnd (remaining : Int) (blocks : List (List UInt8)) : Outcome PyExc Unit :=
  if remaining ≤ blocks.flatten.length then .done () else .raised noBlock

section Copy

variable {path : Str} {r : HandlerCtx}

/-- Bytes have been added to the file, and nothing else has been done. -/
structure Grown (path : Str) (bytes : List UInt8) (s s' : HandlerState) : Prop where
  stores : Stores s s'
  content : content s' path = content s path ++ bytes
  others : ∀ other, other ≠ path → s'.files other = s.files other

theorem Grown.refl (s : HandlerState) : Grown path [] s s := ⟨refl_of Stores s, (List.append_nil _).symm, fun _ _ => rfl⟩

theorem Grown.trans {bytes bytes' : List UInt8} {s t u : HandlerState} (h : Grown path bytes s t)
    (h' : Grown path bytes' t u) : Grown path (bytes ++ bytes') s u where
  stores := trans_of Stores h.stores h'.stores
  content := by rw [h'.content, h.content, List.append_assoc]
  others other hother := (h'.others other hother).trans (h.others other hother)

theorem writeBlock_frame {other : Str} (hother : other ≠ path) (fuel : Nat) (block : List UInt8) (r : HandlerCtx)
    (s : HandlerState) : (writeBlock path fuel block r s).2.files other = s.files other := by
  induction fuel generalizing block s with
  | zero => rfl
  | succ fuel ih =>
      unfold writeBlock
      split
      · rfl
      · rw [bind_run, attempt_run]
        cases r.host.fileWrite s.tick with
        | error e => rfl
        | ok wanted =>
            refine (ih _ _).trans ?_
            exact if_neg hother

theorem writeBlock_done {s : HandlerState} (hwrites : ∀ t, ∃ n, r.host.fileWrite t = .ok n) {fuel : Nat}
    {block : List UInt8} (hfuel : block.length < fuel) :
    ∃ s', writeBlock path fuel block r s = (.done (), s') ∧ Grown path block s s' := by
  have hwritten := writeBlock_written path fuel block r s
  have hsome := rawWrites_isSome hwrites fuel s.tick block.length
  have hframe : ∀ other, other ≠ path → (writeBlock path fuel block r s).2.files other = s.files other :=
    fun other hother => writeBlock_frame hother fuel block r s
  revert hwritten hframe
  rcases writeBlock path fuel block r s with ⟨⟨⟩ | e | _, s'⟩
  · rintro ⟨hstores, -, hcontent⟩ hframe
    exact ⟨s', rfl, hstores, hcontent, hframe⟩
  · rintro ⟨-, hnone⟩
    rw [hnone] at hsome
    cases hsome
  · intro hle
    have hle : fuel ≤ block.length := hle
    omega

/-- A block is written as a whole, also where it has more bytes than are missing. -/
theorem copyBlocks_streams (hwrites : ∀ t, ∃ n, r.host.fileWrite t = .ok n) {blocks : List (List UInt8)}
    {blockFuel fuel : Nat} (hfuel : blocks.length < fuel) (hblocks : ∀ b ∈ blocks, b.length < blockFuel)
    (remaining : Int) {s : Stdio} (hlines : s.lines = blockInput blocks) :
    ∃ s', copyBlocks streams path blockFuel fuel remaining r s = (copyEnd remaining blocks, s') ∧
      Grown path (taken remaining blocks).flatten s.io s'.io := by
  induction blocks generalizing fuel remaining s with
  | nil =>
      obtain ⟨fuel, rfl⟩ : ∃ k, fuel = k + 1 := ⟨fuel - 1, by simp at hfuel; omega⟩
      unfold copyBlocks copyEnd
      by_cases hmore : remaining > 0
      · have hends : streams.readData remaining.toNat r s = (.raised noBlock, { s with lines := [] }) := by
          obtain ⟨io, lines⟩ := s
          obtain rfl : lines = [] := hlines
          rfl
        rw [if_pos hmore, if_neg (by simpa using hmore), bind_run_raised hends]
        exact ⟨_, rfl, .refl _⟩
      · rw [if_neg hmore, if_pos (by simpa using hmore)]
        exact ⟨s, rfl, .refl _⟩
  | cons b bs ih =>
      obtain ⟨fuel, rfl⟩ : ∃ k, fuel = k + 1 := ⟨fuel - 1, by omega⟩
      unfold copyBlocks taken
      by_cases hmore : remaining > 0
      · have hread : StreamConnector.readData s.lines = (.ok b, blockInput bs) := by
          rw [hlines]
          exact StreamConnector.readData_block b (blockInput bs)
        obtain ⟨io, hwrite, hgrown⟩ : ∃ io, writeBlock path blockFuel b r s.io = (.done (), io) ∧
            Grown path b s.io io := writeBlock_done hwrites (hblocks b List.mem_cons_self)
        have hcall : streams.call (writeBlock path blockFuel b) r { s with lines := blockInput bs } =
            (.done (), { io := io, lines := blockInput bs }) := onIo_done hwrite
        have hrest : ∀ b ∈ bs, b.length < blockFuel := fun b hb => hblocks b (List.mem_cons_of_mem _ hb)
        obtain ⟨s', hrun, hgrown'⟩ := ih (Nat.lt_of_succ_lt_succ hfuel) hrest (remaining - b.length)
          (s := ⟨io, blockInput bs⟩) rfl
        have hend : copyEnd (remaining - b.length) bs = copyEnd remaining (b :: bs) := by
          have hiff : remaining - b.length ≤ (bs.flatten.length : Int) ↔
              remaining ≤ ((b :: bs).flatten.length : Int) := by
            rw [List.flatten_cons, List.length_append]
            omega
          simp only [copyEnd, hiff]
        refine ⟨s', ?_, ?_⟩
        · rw [if_pos hmore, bind_run_done (readData_run hread _)]
          refine (bind_run_done hcall).trans ?_
          rw [hrun, hend]
        · rw [if_pos hmore, List.flatten_cons]
          exact hgrown.trans hgrown'
      · have hdone : copyEnd remaining (b :: bs) = .done () := if_pos (by omega)
        rw [if_neg hmore, if_neg hmore, hdone]
        exact ⟨s, rfl, .refl _⟩

end Copy

/-! ## Files over the standard streams -/

section Files

variable {path : Str} {r : HandlerCtx} {s : Stdio}

/-- The next answer of the host has been taken. -/
def ticked (s : Stdio) : Stdio := { s with io := { s.io with tick := s.io.tick + 1 } }

theorem call_sysCall {c : SysCall} (hok : r.host.sysCall s.io.tick c = none) :
    streams.call (sysCall c) r s = (.done (), ticked s) := by
  refine onIo_done ?_
  rw [sysCall_run, hok]

theorem withFile_streams {α : Type} {mode : Str} {body : Comp HandlerCtx Stdio PyExc α} {o : Outcome PyExc α}
    {s₁ : Stdio} (hopens : ∀ t, r.host.sysCall t (.open path mode) = none)
    (hcloses : ∀ t, r.host.sysCall t (.close path) = none) (hbody : body r (ticked s) = (o, s₁)) (hends : o ≠ .hung) :
    withFile streams path mode body r s = (o, ticked s₁) := by
  unfold withFile
  refine (bind_run_done (call_sysCall (hopens _))).trans ?_
  have hclose : streams.call (sysCall (.close path)) r s₁ = (.done (), ticked s₁) := call_sysCall (hcloses _)
  rcases o with a | e | _
  · refine (bind_run_done (handle_run_done hbody)).trans ?_
    exact bind_run_done hclose
  · have hraised : (streams.call (sysCall (.close path)) >>= fun _ => raise e) r s₁ =
        ((.raised e, ticked s₁) : Outcome PyExc α × Stdio) := bind_run_done hclose
    exact bind_run_raised ((handle_run_raised hbody).trans hraised)
  · exact absurd rfl hends

/-- The message is a request to upload so many bytes to a file. -/
def UploadOf (environ : Environ) (msg path openMode : Str) (length : Int) : Prop :=
  ∃ rawPath mode bits, splitLastSpace (extractParameter msg "FILE".toList) = .ok (rawPath, mode) ∧
    pyInt 8 mode = .ok bits ∧ path = expandVariables environ rawPath ∧
    openMode = openModeOf (extractParameter msg "FILESACTION".toList) ∧
    pyIntOpt (extractParameter msg "LENGTH".toList) = .ok length

/-- What an upload leaves: answers have been taken, the file has been written and the messages have been said. -/
structure Received (path : Str) (messages : List Str) (bytes : List UInt8) (s s' : HandlerState) : Prop where
  rest : ∃ n files, s' = { s with tick := n, files := files, calls := s.calls ++ messages.map .message }
  content : content s' path = bytes
  others : ∀ other, other ≠ path → s'.files other = s.files other

/-- The file after an upload. -/
def afterUpload (openMode : Str) (length : Int) (blocks : List (List UInt8)) (old : List UInt8) : List UInt8 :=
  (if openMode = "ab".toList then old else []) ++ (taken length blocks).flatten

def acknowledgement : List Str := ["TSI_OK".toList, "ENDOFMESSAGE".toList]

theorem putFileChunk_streams (config : Settings) {msg openMode : Str} {length : Int} {blocks : List (List UInt8)}
    (hmsg : UploadOf r.environ msg path openMode length) (hhost : Obliging r.host path) (hbroken : s.io.broken = false)
    (hlines : s.lines = blockInput blocks) (hfuel : blocks.length < r.fuel) (hblocks : ∀ b ∈ blocks, b.length < r.fuel) :
    ∃ s', putFileChunk streams msg config r s = (copyEnd length blocks, s') ∧
      Received path acknowledgement (afterUpload openMode length blocks (content s.io path)) s.io s'.io := by
  obtain ⟨rawPath, mode, bits, hsplit, hbits, rfl, rfl, hlength⟩ := hmsg
  generalize hpath : expandVariables r.environ rawPath = path at hhost ⊢
  generalize hmode : openModeOf (extractParameter msg "FILESACTION".toList) = openMode
  have hrun : putFileChunk streams msg config r s =
      (withFile streams path openMode (streams.call (openForWriting path openMode) >>= fun _ =>
          streams.ok (some "ENDOFMESSAGE".toList) >>= fun _ => copyBlocks streams path r.fuel r.fuel length) >>= fun _ =>
        streams.call (setMode path mode)) r s := by
    unfold putFileChunk
    rw [bind_run_done ask_run, hsplit, hlength, ← hmode, ← hpath]
    rfl
  -- the file is opened and the request acknowledged before the first block is read
  let s₁ : Stdio := { s with io := said acknowledgement (opened path openMode (ticked s).io) }
  have hcopied : ∃ s₂, copyBlocks streams path r.fuel r.fuel length r s₁ = (copyEnd length blocks, s₂) ∧
      Grown path (taken length blocks).flatten s₁.io s₂.io :=
    copyBlocks_streams hhost.fileWrites hfuel hblocks length hlines
  obtain ⟨s₂, hcopy, ⟨n, files, hstores⟩, hcontent, hothers⟩ := hcopied
  have hbody : (streams.call (openForWriting path openMode) >>= fun _ => streams.ok (some "ENDOFMESSAGE".toList) >>= fun _ =>
      copyBlocks streams path r.fuel r.fuel length) r (ticked s) = (copyEnd length blocks, s₂) := by
    have hopened : streams.call (openForWriting path openMode) r (ticked s) =
        (.done (), { s with io := opened path openMode (ticked s).io }) := onIo_done (openForWriting_run path openMode r _)
    have hsaid : streams.ok (some "ENDOFMESSAGE".toList) r { s with io := opened path openMode (ticked s).io } =
        (.done (), s₁) :=
      ok_run (s := { s with io := opened path openMode (ticked s).io }) hhost.connected hbroken _
    exact (bind_run_done hopened).trans ((bind_run_done hsaid).trans hcopy)
  have hends : copyEnd length blocks ≠ .hung := by
    unfold copyEnd
    split <;> simp
  have hfile := withFile_streams (fun t => hhost.opens t openMode) hhost.closes hbody hends
  have hbytes : content s₂.io path = afterUpload openMode length blocks (content s.io path) := by
    have hstart : content s₁.io path = if openMode = "ab".toList then content s.io path else [] := by
      simp [s₁, said, content, opened, ticked]
    rw [hcontent, hstart]
    rfl
  have hframe : ∀ other, other ≠ path → s₂.io.files other = s.io.files other :=
    fun other hother => (hothers other hother).trans (if_neg hother)
  rw [hrun]
  revert hfile
  unfold copyEnd
  split
  · intro hfile
    have hchmod : streams.call (setMode path mode) r (ticked s₂) = (.done (), ticked (ticked s₂)) :=
      onIo_done (setMode_done hhost hbits)
    refine ⟨_, (bind_run_done hfile).trans hchmod, ⟨n + 2, files, ?_⟩, hbytes, hframe⟩
    show { s₂.io with tick := s₂.io.tick + 1 + 1 } = _
    rw [hstores]
    rfl
  · intro hfile
    refine ⟨_, bind_run_raised hfile, ⟨n + 1, files, ?_⟩, hbytes, hframe⟩
    show { s₂.io with tick := s₂.io.tick + 1 } = _
    rw [hstores]
    rfl

/-- What is said for a download: the length that is reported, and the data if there are any. -/
def download (sent : List UInt8) : List Str :=
  ["TSI_OK".toList, "TSI_LENGTH ".toList ++ natText sent.length ++ "\nENDOFMESSAGE".toList] ++
    if sent = [] then [] else StreamConnector.blockLines sent

/-- One block takes all the data, so the write loop runs once. -/
theorem writeChunk_streams (hup : ∀ t, r.host.channelGone t = false) (hbroken : s.io.broken = false)
    (sent back : List UInt8) {fuel : Nat} (hfuel : 2 ≤ fuel) :
    writeChunk streams (sent ++ back) sent.length fuel 0 sent.length r s =
      (.done (), { s with io := said (if sent = [] then [] else StreamConnector.blockLines sent) s.io }) := by
  obtain ⟨fuel, rfl⟩ : ∃ k, fuel = k + 2 := ⟨fuel - 2, by omega⟩
  unfold writeChunk
  by_cases hnone : sent = []
  · subst hnone
    simp [said]
  · have hsome : (sent.length : Int) > 0 := by
      have hlength := List.length_pos_iff.mpr hnone
      omega
    have hall : ((sent ++ back).take sent.length).drop 0 = sent := by simp
    rw [if_pos hsome, if_neg hnone, hall, bind_run_done (writeData_run hup hbroken sent)]
    unfold writeChunk
    rw [if_neg (by omega)]
    rfl

/-- The body of the `with` statement of `get_file_chunk`. -/
def sendChunk (path : Str) (start length : Int) (fuel : Nat) : Comp HandlerCtx Stdio PyExc Unit := do
  let seekable ← streams.call (consult fun h t => h.seekable t path)
  if seekable then
    streams.call (sysCall (.seek path start))
  if length < 0 then
    raise (valueError "negative count")
  let pos := if seekable then start.toNat else 0
  let (buf, total) ← streams.call (readChunk path fuel pos (List.replicate length.toNat 0) 0 length)
  streams.ok (some ("TSI_LENGTH ".toList ++ natText total ++ "\nENDOFMESSAGE".toList))
  writeChunk streams buf total fuel 0 total

theorem sendChunk_streams (hhost : Obliging r.host path) (start : Nat) {length : Nat}
    (hreads : ReadsFully r.host length) (hlength : 0 < length) (hbroken : s.io.broken = false) {fuel : Nat}
    (hfuel : 2 ≤ fuel) :
    ∃ n, sendChunk path start length fuel r s =
      (.done (), { s with io := { said (download (piece (content s.io path) start length)) s.io with tick := n } }) := by
  have hconsult : streams.call (consult fun h t => h.seekable t path) r s = (.done true, ticked s) := by
    have hanswer : (consult fun h t => h.seekable t path : Handler Bool) r s.io =
        (.done true, { s.io with tick := s.io.tick + 1 }) := by
      rw [consult_run, hhost.seekable]
    exact onIo_done hanswer
  have hseek : streams.call (sysCall (.seek path start)) r (ticked s) = (.done (), ticked (ticked s)) :=
    call_sysCall (hhost.seeks _ _)
  have hcount : ¬ (length : Int) < 0 := by omega
  obtain ⟨n, back, hread⟩ := readChunk_run path fuel start (List.replicate length 0) (r := r)
    (s := (ticked (ticked s)).io) hreads hlength (by simp) hfuel
  have hcontent : content (ticked (ticked s)).io path = content s.io path := rfl
  rw [hcontent] at hread
  generalize piece (content s.io path) start length = sent at hread
  have hcall : streams.call (readChunk path fuel start (List.replicate length 0) 0 length) r (ticked (ticked s)) =
      (.done (sent ++ back, sent.length), { s with io := { s.io with tick := n } }) := onIo_done hread
  -- the length is reported before the data are written
  have hok := ok_run (s := { s with io := { s.io with tick := n } }) hhost.connected hbroken
    ("TSI_LENGTH ".toList ++ natText sent.length ++ "\nENDOFMESSAGE".toList)
  have hwrite := writeChunk_streams (s := { s with io := said ["TSI_OK".toList,
      "TSI_LENGTH ".toList ++ natText sent.length ++ "\nENDOFMESSAGE".toList] { s.io with tick := n } })
    hhost.connected hbroken sent back hfuel
  rw [said_said] at hwrite
  refine ⟨(said (download sent) { s.io with tick := n }).tick, ?_⟩
  unfold sendChunk
  rw [bind_run_done hconsult, if_pos rfl, bind_run_done hseek, if_neg hcount]
  exact (bind_run_done hcall).trans ((bind_run_done hok).trans hwrite)

theorem getFileChunk_streams (config : Settings) (hhost : Obliging r.host path) {msg rawPath : Str} {start length : Nat}
    (hmsg : GetMessage msg rawPath start length) (hname : rawPath ≠ []) (hpath : expandVariables r.environ rawPath = path)
    (hreads : ReadsFully r.host length) (hlength : 0 < length) (hbroken : s.io.broken = false) (hfuel : 2 ≤ r.fuel) :
    ∃ n, getFileChunk streams msg config r s =
      (.done (), { s with io := { said (download (piece (content s.io path) start length)) s.io with tick := n } }) := by
  obtain ⟨startText, lengthText, hstart, hstart', hlen, hlen', hfile, hgiven, hcount⟩ := hmsg
  have hint : pyIntOpt (extractParameter msg "START".toList) = .ok (start : Int) := by
    rw [extractParameter_of_given (by decide) hgiven hstart]
    exact hstart'
  have hint' : pyIntOpt (extractParameter msg "LENGTH".toList) = .ok (length : Int) := by
    rw [extractParameter_of_given (by decide) hcount hlen]
    exact hlen'
  have hrun : getFileChunk streams msg config r s =
      withFile streams path "rb".toList (sendChunk path start length r.fuel) r s := by
    unfold getFileChunk
    rw [bind_run_done ask_run, extractParameter_of_given (by decide) hfile hname, hint, hint', ← hpath]
    rfl
  obtain ⟨n, hsent⟩ := sendChunk_streams (s := ticked s) hhost start hreads hlength hbroken hfuel
  rw [hrun, withFile_streams (fun t => hhost.opens t _) hhost.closes hsent (by simp)]
  exact ⟨n + 1, rfl⟩

end Files

/-! ## Uploads -/

/-- **Uploads over the standard input.**  The file gets the blocks up to the one with which there are as many bytes
as were announced, each of them whole, so all of them if their number is the one announced; if they end before, the
reply is a failure, and the file has what there was.  No other file is written. -/
theorem one_shot_upload {bss : Bss} {config : Settings} {r : WorkerCtx} {w : Worker} {message path openMode : Str}
    {length : Int} {blocks : List (List UInt8)} (h : Asked config r message (blockInput blocks) w)
    (hcommand : findCommand (initFunctions bss) message = some (putCommand, Io.putFileChunk))
    (hmsg : UploadOf w.environ message path openMode length) (hhost : Obliging r.host path)
    (hfuel : blocks.length < r.fuel) (hblocks : ∀ b ∈ blocks, b.length < r.fuel) :
    ∃ w', process bss config r w = (.done (), w') ∧
      content w'.io path = afterUpload openMode length blocks (content w.io path) ∧
      (length = blocks.flatten.length → content w'.io path =
        (if openMode = "ab".toList then content w.io path else []) ++ blocks.flatten) ∧
      (∀ other, other ≠ path → w'.io.files other = w.io.files other) ∧
      channelText w'.io.calls = unlines (acknowledgement ++ failure (copyEnd length blocks) ++ [endOfMessage]) := by
  let env : HandlerCtx := { host := r.host, environ := w.environ, fuel := r.fuel }
  obtain ⟨s, hput, ⟨n, files, hstate⟩, hbytes, hothers⟩ := putFileChunk_streams (r := env)
    (s := ⟨(entering (blockInput blocks) w).io, blockInput blocks⟩) config hmsg hhost h.broken rfl hfuel hblocks
  have hrun : overStreams (putCommand, Io.putFileChunk) message config env
      ⟨(entering (blockInput blocks) w).io, blockInput blocks⟩ = (copyEnd length blocks, s) := by
    have hother : putCommand ≠ "TSI_GETFILECHUNK".toList := by decide
    rw [overStreams, if_neg hother]
    exact (congrFun (congrFun (if_pos rfl) env) _).trans hput
  have hends : copyEnd length blocks ≠ .hung := by
    unfold copyEnd
    split <;> simp
  have hbroken : s.io.broken = false := by
    rw [hstate]
    exact h.broken
  obtain ⟨w', hprocess, hio, -⟩ := h.process_function hcommand (by decide) hrun hends hbroken
  have hcontent : content w'.io path = afterUpload openMode length blocks (content w.io path) := by
    rw [hio]
    exact hbytes
  refine ⟨w', hprocess, hcontent, ?_, ?_, ?_⟩
  · intro hall
    rw [hcontent, afterUpload, flatten_taken hall]
  · intro other hother
    rw [hio]
    exact hothers other hother
  · have hcalls : w'.io.calls = (acknowledgement ++ failure (copyEnd length blocks) ++ [endOfMessage]).map .message := by
      rw [hio, said, hstate]
      show (w.io.calls ++ _) ++ _ = _
      rw [h.silent, List.nil_append, ← List.map_append, List.append_assoc]
    rw [hcalls, channelText_messages]

/-- The rights of a user who has started the process. -/
def ordinaryCred : Cred :=
  { ruid := 1000, euid := 1000, suid := 1000, rgid := 100, egid := 100, sgid := 100, groups := [100] }

/-- Two bytes are announced, and three come. -/
def streamUploader : Worker :=
  { Worker.fresh (putLines "/tmp/a" "2" ++ blockInput [[7], [8, 9]]) with cred := ordinaryCred }

theorem streamUploader_asked : Asked ownSettings { host := slowHost, fuel := 10 } (putRequest "/tmp/a" "2")
    (blockInput [[7], [8, 9]]) streamUploader where
  own := rfl
  connected _ := rfl
  safeDir _ := rfl
  silent := rfl
  broken := rfl
  childless := rfl
  input := ⟨(putLines "/tmp/a" "2").dropLast, by unfold StreamConnector.Ends; decide, rfl, rfl⟩

theorem one_shot_upload_three :
    ∃ w', process BssNobatch.nobatch ownSettings { host := slowHost, fuel := 10 } streamUploader = (.done (), w') ∧
      content w'.io "/tmp/a".toList = [7, 8, 9] ∧
      (∀ other, other ≠ "/tmp/a".toList → w'.io.files other = none) ∧
      channelText w'.io.calls = "TSI_OK\nENDOFMESSAGE\nENDOFMESSAGE\n".toList := by
  have hmsg : UploadOf streamUploader.environ (putRequest "/tmp/a" "2") "/tmp/a".toList "wb".toList 2 :=
    ⟨"/tmp/a".toList, "600".toList, 0o600, by decide, by decide, by decide, by decide, by decide⟩
  have htext : "TSI_OK\nENDOFMESSAGE\nENDOFMESSAGE\n".toList =
      unlines (acknowledgement ++ failure (copyEnd 2 [[7], [8, 9]]) ++ [endOfMessage]) := by decide
  obtain ⟨w', hprocess, hcontent, -, hothers, hcalls⟩ := one_shot_upload streamUploader_asked findCommand_put_a hmsg
    (slowHost_obliging _) (by decide) (by decide)
  exact ⟨w', hprocess, hcontent, hothers, hcalls.trans htext.symm⟩

/-! ## Downloads -/

/-- The reply that reports so many bytes. -/
def lengthLines (n : Nat) : Str := ["TSI_OK".toList ++ ['\n'], "TSI_LENGTH ".toList ++ natText n ++ ['\n']].flatten

/-- What a client makes of the output of a download: the data of the block if there is one, with the length that was
reported, and nothing but the end of the answer after them. -/
def readReply (output : List Str) : Option (List UInt8) := do
  let (reply, rest) := StreamConnector.readMessage endOfMessage output
  let (data, rest) ← if reply = lengthLines 0 then some ([], rest) else
    match StreamConnector.readData rest with
    | (.ok data, rest) => some (data, rest)
    | (.error _, _) => none
  if reply = lengthLines data.length ∧ rest = [endLine] then some data else none

theorem lengthLines_injective : Function.Injective lengthLines := by
  intro m n h
  have hlines : ∀ k, lengthLines k =
      ("TSI_OK".toList ++ ['\n']) ++ ("TSI_LENGTH ".toList ++ (natText k ++ ['\n'])) := by
    intro k
    show ("TSI_OK".toList ++ ['\n']) ++ ("TSI_LENGTH ".toList ++ natText k ++ ['\n'] ++ []) = _
    rw [List.append_nil, List.append_assoc "TSI_LENGTH ".toList]
  rw [hlines, hlines] at h
  have hdigits := List.append_cancel_left (List.append_cancel_left h)
  exact natText_injective (List.append_cancel_right hdigits)

/-- The lines of a reply are none of them taken for its end. -/
theorem lengthLines_not_end (n : Nat) :
    ∀ line ∈ ["TSI_OK".toList ++ ['\n'], "TSI_LENGTH ".toList ++ natText n ++ ['\n']],
      ¬ StreamConnector.Ends endOfMessage line := by
  have hdigit : 'F' ∉ natText n := not_mem_natText (by decide) n
  have hfixed : 'F' ∈ endOfMessage ∧ 'F' ∉ "TSI_OK".toList ++ ['\n'] ∧ 'F' ∉ "TSI_LENGTH ".toList ∧
      'F' ∉ ['\n'] := by decide
  have hclear : ∀ line, 'F' ∉ line → ¬ StreamConnector.Ends endOfMessage line := by
    rintro line hline ⟨-, hstrip⟩
    exact hline ((strip_sublist line).subset (hstrip ▸ hfixed.1))
  simp only [List.forall_mem_cons]
  refine ⟨hclear _ hfixed.2.1, hclear _ ?_, by simp⟩
  simp only [List.mem_append, not_or]
  exact ⟨⟨hfixed.2.2.1, hdigit⟩, hfixed.2.2.2⟩

/-- A client gets the data back. -/
theorem readReply_download (sent : List UInt8) :
    readReply (pieces '\n' (unlines (download sent ++ [endOfMessage]))) = some sent := by
  let reply := ["TSI_OK".toList, "TSI_LENGTH ".toList ++ natText sent.length]
  let block := if sent = [] then [] else StreamConnector.blockLines sent
  have htext : unlines (download sent ++ [endOfMessage]) =
      stream '\n' (reply ++ [endOfMessage] ++ block ++ [endOfMessage]) ++ [] := by
    have hreported : "\nENDOFMESSAGE".toList = '\n' :: endOfMessage := by decide
    rw [download, hreported]
    simp only [unlines, stream_append, stream_cons, stream_nil, List.append_assoc, List.cons_append, List.nil_append,
      List.append_nil, reply, block]
  have honeLine : ∀ line ∈ reply ++ [endOfMessage] ++ block ++ [endOfMessage], '\n' ∉ line := by
    have hfixed : '\n' ∉ "TSI_OK".toList ∧ '\n' ∉ "TSI_LENGTH ".toList ∧ '\n' ∉ endOfMessage := by decide
    have hreply : ∀ line ∈ reply, '\n' ∉ line := by
      have hdigits : '\n' ∉ natText sent.length := not_mem_natText (by decide) _
      simp only [reply, List.forall_mem_cons, List.mem_append, not_or]
      exact ⟨hfixed.1, ⟨hfixed.2.1, hdigits⟩, by simp⟩
    have hend : ∀ line ∈ [endOfMessage], '\n' ∉ line := List.forall_mem_singleton.mpr hfixed.2.2
    have hblock : ∀ line ∈ block, '\n' ∉ line := by
      show ∀ line ∈ if sent = [] then [] else StreamConnector.blockLines sent, '\n' ∉ line
      split
      · simp
      · exact StreamConnector.newline_blockLines sent
    simp only [List.forall_mem_append]
    exact ⟨⟨⟨hreply, hend⟩, hblock⟩, hend⟩
  have hlines : pieces '\n' (unlines (download sent ++ [endOfMessage])) =
      reply.map (· ++ ['\n']) ++ endLine :: (block.map (· ++ ['\n']) ++ [endLine]) := by
    rw [htext, pieces_stream_append honeLine, pieces_nil]
    simp [endLine]
  have hread : StreamConnector.readMessage endOfMessage (pieces '\n' (unlines (download sent ++ [endOfMessage]))) =
      (lengthLines sent.length, block.map (· ++ ['\n']) ++ [endLine]) := by
    rw [hlines]
    exact StreamConnector.readMessage_ends (lengthLines_not_end sent.length) ends_endLine _
  unfold readReply
  rw [hread]
  by_cases hnone : sent = []
  · subst hnone
    simp [block]
  · have hother : lengthLines sent.length ≠ lengthLines 0 := by
      intro heq
      exact hnone (List.eq_nil_of_length_eq_zero (lengthLines_injective heq))
    have hblock : block = StreamConnector.blockLines sent := if_neg hnone
    simp only [hother, hblock, StreamConnector.readData_block]
    simp

/-- **Downloads over the standard output.**  A client that reads the output gets the piece of the file it has asked
for.  No file is written, and what comes after the request is not read. -/
theorem one_shot_download {bss : Bss} {config : Settings} {r : WorkerCtx} {w : Worker} {message rawPath path : Str}
    {start length : Nat} {rest : List Str} (h : Asked config r message rest w)
    (hcommand : findCommand (initFunctions bss) message = some ("TSI_GETFILECHUNK".toList, Io.getFileChunk))
    (hmsg : GetMessage message rawPath start length) (hname : rawPath ≠ [])
    (hpath : expandVariables w.environ rawPath = path) (hhost : Obliging r.host path) (hreads : ReadsFully r.host length)
    (hlength : 0 < length) (hfuel : 2 ≤ r.fuel) :
    ∃ w', process bss config r w = (.done (), w') ∧
      readReply (pieces '\n' (channelText w'.io.calls)) = some (piece (content w.io path) start length) ∧
      w'.io.files = w.io.files ∧ w'.controlIn = rest := by
  let env : HandlerCtx := { host := r.host, environ := w.environ, fuel := r.fuel }
  obtain ⟨n, hget⟩ := getFileChunk_streams (r := env) (s := ⟨(entering rest w).io, rest⟩) config hhost hmsg hname hpath
    hreads hlength h.broken hfuel
  have hrun : overStreams ("TSI_GETFILECHUNK".toList, Io.getFileChunk) message config env
      ⟨(entering rest w).io, rest⟩ = _ := (congrFun (congrFun (if_pos rfl) env) _).trans hget
  obtain ⟨w', hprocess, hio, hinput⟩ := h.process_function hcommand (by decide) hrun (by simp) h.broken
  refine ⟨w', hprocess, ?_, ?_, hinput⟩
  · have hcalls : w'.io.calls = (download (piece (content w.io path) start length) ++ [endOfMessage]).map .message := by
      rw [hio]
      show (w.io.calls ++ _) ++ _ = _
      rw [h.silent, List.nil_append, ← List.map_append]
      rfl
    rw [hcalls, channelText_messages, readReply_download]
  · rw [hio]
    rfl

/-- A file of three bytes, and a request for all of it. -/
def streamDownloader : Worker :=
  { Worker.fresh (pieces '\n' getThree ++ [endLine]) with io := threeBytes, cred := ordinaryCred }

theorem one_shot_download_three :
    ∃ w', process BssNobatch.nobatch ownSettings { host := slowHost, fuel := 10 } streamDownloader = (.done (), w') ∧
      readReply (pieces '\n' (channelText w'.io.calls)) = some [7, 8, 9] ∧
      w'.io.files = threeBytes.files ∧ w'.controlIn = [] := by
  have hasked : Asked ownSettings { host := slowHost, fuel := 10 } getThree [] streamDownloader :=
    { own := rfl, connected := fun _ => rfl, safeDir := fun _ => rfl, silent := rfl, broken := rfl, childless := rfl
      input := ⟨pieces '\n' getThree, by unfold StreamConnector.Ends; decide, flatten_pieces _, rfl⟩ }
  have hcommand : findCommand (initFunctions BssNobatch.nobatch) getThree =
      some ("TSI_GETFILECHUNK".toList, Io.getFileChunk) := by
    have hmem : ("TSI_GETFILECHUNK".toList, Io.getFileChunk) ∈ initFunctions BssNobatch.nobatch :=
      List.mem_of_getElem? (show (initFunctions BssNobatch.nobatch)[4]? = some _ from rfl)
    exact (findCommand_iff_lines BssNobatch.nobatch hmem (by decide)).mpr (by decide)
  have hreads : ReadsFully slowHost 3 := fun _ => ⟨_, rfl, by decide⟩
  have hpath : expandVariables streamDownloader.environ "/tmp/data".toList = "/tmp/data".toList := by decide
  exact one_shot_download hasked hcommand getThree_asks (by decide) hpath (slowHost_obliging _) hreads (by decide)
    (by decide)

end UnicoreTsi.OneShot
