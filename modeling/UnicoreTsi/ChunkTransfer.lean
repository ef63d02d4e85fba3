/-
# UnicoreTsi.ChunkTransfer — a file uploaded in chunks and downloaded in chunks.

A client uploads a file as one chunk that overwrites and further chunks that append, and downloads it by
asking for pieces until it is told that nothing is left.  However the bytes are split and however much each
read and write moves, the file is the concatenation of the chunks and the pieces put together are the file
(`chunks_round_trip`).
-/
import UnicoreTsi.Chunks
import UnicoreTsi.Numbers
import UnicoreTsi.UserCache

set_option autoImplicit false

namespace UnicoreTsi.Io

open UnicoreTsi.Text UnicoreTsi.Effects UnicoreTsi.Utils UnicoreTsi.Connector

/-! ## The host -/

/-- A host on which nothing fails that a transfer of the file `path` does.  Raw writes may be partial, the
data channel hands out what it likes, and only the mode change may be refused. -/
structure Obliging (host : Host) (path : Str) : Prop where
  opens : ∀ t mode, host.sysCall t (.open path mode) = none
  seeks : ∀ t offset, host.sysCall t (.seek path offset) = none
  closes : ∀ t, host.sysCall t (.close path) = none
  chmods : ∀ t mode e, host.sysCall t (.chmod path mode) = some e → e.isOSError = true
  seekable : ∀ t, host.seekable t path = true
  connected : ∀ t, host.channelGone t = false
  fileWrites : ∀ t, ∃ n, host.fileWrite t = .ok n
  dataWrites : ∀ t, ∃ written, host.dataWrite t = .ok written ∧ ∀ n ∈ written, 1 ≤ n

/-! ## Uploading -/

/-- A message that uploads `chunk` to `path`. -/
def PutMessage (msg path action : Str) (chunk : List UInt8) : Prop :=
  ∃ mode bits length, ' ' ∉ mode ∧ pyInt 8 mode = .ok bits ∧ length ≠ [] ∧
    pyInt 10 length = .ok (chunk.length : Int) ∧
    givenValue msg "FILE".toList = some (path ++ ' ' :: mode) ∧
    givenValue msg "FILESACTION".toList = some action ∧
    givenValue msg "LENGTH".toList = some length

/-- What an upload leaves: the file, and nothing on the data channel. -/
structure Stored (path : Str) (bytes : List UInt8) (s s' : HandlerState) : Prop where
  content : content s' path = bytes
  dataIn : s'.dataIn = []
  broken : s'.broken = s.broken
  dataOut : s'.dataOut = s.dataOut

section Upload

variable {path : Str} {r : HandlerCtx} {s : HandlerState} {config : Settings}

theorem setMode_done (hhost : Obliging r.host path) {mode : Str} {bits : Int}
    (hmode : pyInt 8 mode = .ok bits) :
    setMode path mode r s = (.done (), { s with tick := s.tick + 1 }) := by
  have hbits : (do
      let bits ← ofExcept (pyInt 8 mode)
      sysCall (.chmod path bits) : Handler Unit) = sysCall (.chmod path bits) := by
    rw [hmode]
    rfl
  unfold setMode
  rw [hbits, handle, sysCall_run]
  cases hchmod : r.host.sysCall s.tick (.chmod path bits) with
  | none => rfl
  | some e =>
      dsimp only
      rw [if_pos (hhost.chmods _ _ _ hchmod)]
      rfl

/-- With a host that takes every write the copy loop can neither fail nor run out of fuel. -/
theorem copyBlocks_done (hhost : Obliging r.host path) {chunk : List UInt8} (hfuel : chunk.length < r.fuel)
    (hthere : s.dataIn = chunk) :
    ∃ s', copyBlocks path r.fuel r.fuel chunk.length r s = (.done (), s') ∧ Copies s s' ∧ s'.dataIn = [] ∧
      content s' path = content s path ++ chunk := by
  have hcopied := copyBlocks_copied path r.fuel r.fuel chunk.length r s (by rw [hthere]; rfl)
  revert hcopied
  rcases copyBlocks path r.fuel r.fuel chunk.length r s with ⟨⟨⟩ | e | _, s'⟩
  · rintro ⟨hcopies, hnone, -, hcontent⟩
    exact ⟨s', rfl, hcopies, hnone, by rw [hcontent, hthere]⟩
  · rintro ⟨-, -, hfails⟩
    exact absurd hhost.fileWrites hfails
  · rintro (h | h)
    · rw [Int.toNat_natCast] at h
      omega
    · rw [Int.toNat_natCast] at h
      omega

/-- One upload writes its chunk, after what the file held if it appends. -/
theorem putFileChunk_stores (config : Settings) (hhost : Obliging r.host path) (hpath : '$' ∉ path) {msg action : Str}
    {chunk : List UInt8} (haction : action ≠ []) (hmsg : PutMessage msg path action chunk)
    (hupload : s.upload = chunk) (hempty : s.dataIn = []) (hbroken : s.broken = false)
    (hfuel : chunk.length < r.fuel) :
    ∃ s', putFileChunk msg config r s = (.done (), s') ∧
      Stored path ((if action = "3".toList then content s path else []) ++ chunk) s s' := by
  obtain ⟨mode, bits, length, hblank, hbits, hnonempty, hlength, hfile, hgiven, hcount⟩ := hmsg
  have hsplit : splitLastSpace (extractParameter msg "FILE".toList) = .ok (path, mode) := by
    rw [extractParameter_of_given (by decide) hfile (by simp)]
    exact splitLastSpace_append hblank
  have hint : pyIntOpt (extractParameter msg "LENGTH".toList) = .ok (chunk.length : Int) := by
    rw [extractParameter_of_given (by decide) hcount hnonempty]
    exact hlength
  have hopenMode : openModeOf (extractParameter msg "FILESACTION".toList) =
      if action = "3".toList then "ab".toList else "wb".toList := by
    rw [extractParameter_of_given (by decide) hgiven haction]
    rfl
  rw [putFileChunk_run hsplit hint, hopenMode, expandVariables_of_not_mem r.environ hpath]
  generalize hmode : (if action = "3".toList then "ab".toList else "wb".toList) = openMode
  let s₁ : HandlerState := { s with tick := s.tick + 1 }
  let s₂ := receiving path openMode s₁
  have hthere : s₂.dataIn = chunk := by
    show s.dataIn ++ s.upload = chunk
    rw [hempty, hupload, List.nil_append]
  have hdone := copyBlocks_done hhost hfuel hthere
  obtain ⟨s₃, hrun, ⟨n, files, dataIn, hcopies⟩, hnone, hcontent⟩ := hdone
  have hbody : receive path openMode r.fuel chunk.length r s₁ = (.done (), s₃) := by
    rw [receive_run path openMode r.fuel chunk.length r s₁ hbroken (hhost.connected _)]
    exact hrun
  have hwith : withFile path openMode (receive path openMode r.fuel chunk.length) r s =
      (.done (), { s₃ with tick := s₃.tick + 1 }) := by
    rw [withFile_opened (hhost.opens _ _), hbody, afterBody, hhost.closes]
  have hbefore : content s₂ path = if action = "3".toList then content s path else [] := by
    have hab : openMode = "ab".toList ↔ action = "3".toList := by
      rw [← hmode]
      split
      · exact iff_of_true rfl ‹_›
      · exact iff_of_false (by decide) ‹_›
    rw [content_receiving]
    simp only [hab]
    rfl
  refine ⟨_, by rw [bind_run_done hwith, setMode_done hhost hbits], ?_, ?_, ?_, ?_⟩
  · show content s₃ path = _
    rw [hcontent, hbefore]
  · exact hnone
  · show s₃.broken = s.broken
    rw [hcopies]
    rfl
  · show s₃.dataOut = s.dataOut
    rw [hcopies]
    rfl

/-- The client sends its chunks one after the other; each is ready when its request is acknowledged. -/
def putChunks (config : Settings) : List (Str × List UInt8) → Handler Unit
  | [] => pure ()
  | (msg, chunk) :: rest => do
      modify fun s => { s with upload := chunk }
      putFileChunk msg config
      putChunks config rest

/-- Appending chunks. -/
theorem putChunks_appends (config : Settings) (hhost : Obliging r.host path) (hpath : '$' ∉ path)
    (puts : List (Str × List UInt8)) (hmsgs : ∀ p ∈ puts, PutMessage p.1 path "3".toList p.2)
    (hempty : s.dataIn = []) (hbroken : s.broken = false) (hfuel : ∀ p ∈ puts, p.2.length < r.fuel) :
    ∃ s', putChunks config puts r s = (.done (), s') ∧
      Stored path (content s path ++ (puts.map Prod.snd).flatten) s s' := by
  induction puts generalizing s with
  | nil => exact ⟨s, rfl, by simp, hempty, rfl, rfl⟩
  | cons put puts ih =>
      obtain ⟨msg, chunk⟩ := put
      rw [List.forall_mem_cons] at hmsgs hfuel
      obtain ⟨s₁, hrun, hstored⟩ := putFileChunk_stores config
        (s := { s with upload := chunk }) hhost hpath (by decide) hmsgs.1 rfl hempty hbroken hfuel.1
      obtain ⟨s₂, hrest, hrested⟩ := ih hmsgs.2 hstored.dataIn (hstored.broken.trans hbroken) hfuel.2
      refine ⟨s₂, ?_, ?_, hrested.dataIn, hrested.broken.trans hstored.broken,
        hrested.dataOut.trans hstored.dataOut⟩
      · unfold putChunks
        rw [bind_run_done (modify_run _), bind_run_done hrun, hrest]
      · rw [hrested.content, hstored.content, if_pos rfl, List.append_assoc]
        rfl

end Upload

/-! ## Downloading -/

/-- A message that asks for `length` bytes of `path` from `start` on. -/
def GetMessage (msg path : Str) (start length : Nat) : Prop :=
  ∃ startText lengthText, startText ≠ [] ∧ pyInt 10 startText = .ok (start : Int) ∧ lengthText ≠ [] ∧
    pyInt 10 lengthText = .ok (length : Int) ∧
    givenValue msg "FILE".toList = some path ∧
    givenValue msg "START".toList = some startText ∧
    givenValue msg "LENGTH".toList = some lengthText

/-- The reply that reports `n` bytes. -/
def lengthReply (n : Nat) : ConnCall :=
  .ok (some ("TSI_LENGTH ".toList ++ natText n ++ "\nENDOFMESSAGE".toList))

/-- The piece of a file a request is for. -/
def piece (bytes : List UInt8) (start length : Nat) : List UInt8 := (bytes.drop start).take length

/-- A raw read returns as many bytes as are available, up to a buffer of the given size. -/
def ReadsFully (host : Host) (size : Nat) : Prop := ∀ t, ∃ n, host.fileRead t = .ok n ∧ size ≤ n

section Download

variable {path : Str} {r : HandlerCtx} {s : HandlerState} {config : Settings}

theorem readInto_run {pos size : Nat} (hreads : ReadsFully r.host size) (hsize : 0 < size) :
    readInto path pos size r s =
      (.done (piece (content s path) pos size), { s with tick := s.tick + 1 }) := by
  obtain ⟨n, hn, hle⟩ := hreads s.tick
  unfold readInto
  rw [bind_run, attempt_run, hn]
  have hall : min size (max 1 n) = size := by omega
  show (Outcome.done ((content s path).drop pos |>.take (min size (max 1 n))), _) = _
  rw [hall]
  rfl

/-- The read loop fills the front of the buffer with the piece that is asked for. -/
theorem readChunk_run (path : Str) (fuel pos : Nat) (buf : List UInt8) {length : Nat} (hreads : ReadsFully r.host length)
    (hlength : 0 < length) (hbuf : buf.length = length) (hfuel : 2 ≤ fuel) :
    ∃ n back, readChunk path fuel pos buf 0 length r s =
      (.done (piece (content s path) pos length ++ back, (piece (content s path) pos length).length),
        { s with tick := n }) := by
  obtain ⟨fuel, rfl⟩ : ∃ k, fuel = k + 2 := ⟨fuel - 2, by omega⟩
  generalize hdata : piece (content s path) pos length = data
  have hfits : data.length ≤ length := by
    rw [← hdata]
    exact List.length_take_le _ _
  have hpos : (length : Int) > 0 := by omega
  have hread : readInto path pos buf.length r s = (.done data, { s with tick := s.tick + 1 }) := by
    rw [hbuf, readInto_run hreads hlength, hdata]
  unfold readChunk
  rw [if_pos hpos, bind_run_done hread]
  by_cases hnone : data = []
  · rw [if_pos hnone, hnone]
    exact ⟨s.tick + 1, buf, rfl⟩
  · rw [if_neg hnone]
    -- the buffer is full, or the file has ended and the next read returns nothing
    let buf' := data ++ buf.drop data.length
    have hbuf' : buf'.length = length := by
      show (data ++ buf.drop data.length).length = length
      rw [List.length_append, List.length_drop]
      omega
    show ∃ n back, readChunk path (fuel + 1) (pos + data.length) buf' (0 + data.length)
      (length - data.length) r { s with tick := s.tick + 1 } = _
    rw [Nat.zero_add]
    unfold readChunk
    by_cases hleft : (length : Int) - data.length > 0
    · have hend : piece (content { s with tick := s.tick + 1 } path) (pos + data.length) length = [] := by
        have hshort : (content s path).length ≤ pos + data.length := by
          rw [← hdata, piece, List.length_take, List.length_drop] at hleft ⊢
          omega
        show ((content s path).drop (pos + data.length)).take length = []
        rw [List.drop_eq_nil_of_le hshort, List.take_nil]
      rw [if_pos hleft, hbuf', bind_run_done (readInto_run hreads hlength), hend]
      exact ⟨_, _, rfl⟩
    · rw [if_neg hleft]
      exact ⟨_, _, rfl⟩

/-- A write to the data channel succeeds and takes at least one byte. -/
def TakesWrites (host : Host) : Prop :=
  ∀ t, ∃ written, host.dataWrite t = .ok written ∧ ∀ n ∈ written, 1 ≤ n

theorem writeData_run (hwrites : TakesWrites r.host) {data : List UInt8} (hdata : data ≠ []) :
    ∃ n, 1 ≤ n ∧ n ≤ data.length ∧ writeData data r s =
      (.done n, { s with tick := s.tick + 1, dataOut := s.dataOut ++ data.take n }) := by
  obtain ⟨written, hwritten, hpos⟩ := hwrites s.tick
  have hlength : 1 ≤ data.length := List.length_pos_iff.mpr hdata
  unfold writeData
  rw [bind_run, attempt_run, hwritten]
  cases written with
  | none => exact ⟨data.length, hlength, le_refl _, rfl⟩
  | some n => exact ⟨min n data.length, le_min (hpos n rfl) hlength, min_le_right _ _, rfl⟩

/-- The write loop sends what was read, in pieces of any size. -/
theorem writeChunk_run (hwrites : TakesWrites r.host) (buf : List UInt8) (total fuel offset : Nat)
    (htotal : total ≤ buf.length) (hoffset : offset ≤ total) (hfuel : total - offset < fuel) :
    ∃ n, writeChunk buf total fuel offset ((total : Int) - offset) r s =
      (.done (), { s with tick := n, dataOut := s.dataOut ++ (buf.take total).drop offset }) := by
  induction fuel generalizing offset s with
  | zero => omega
  | succ fuel ih =>
      have hlength : ((buf.take total).drop offset).length = total - offset := by
        rw [List.length_drop, List.length_take]
        omega
      unfold writeChunk
      by_cases hleft : (total : Int) - offset > 0
      · have hdata : (buf.take total).drop offset ≠ [] := by
          rw [← List.length_pos_iff, hlength]
          omega
        obtain ⟨n, hpos, hle, hrun⟩ := writeData_run (s := s) hwrites hdata
        rw [hlength] at hle
        rw [if_pos hleft, bind_run_done hrun]
        obtain ⟨m, hrest⟩ := ih (s := { s with
            tick := s.tick + 1
            dataOut := s.dataOut ++ ((buf.take total).drop offset).take n }) (offset + n)
          (by omega) (by omega)
        have hmust : (total : Int) - offset - n = (total : Int) - (offset + n : Nat) := by omega
        rw [hmust, hrest]
        refine ⟨m, ?_⟩
        rw [← List.drop_drop, List.append_assoc, List.take_append_drop]
      · have hnone : (buf.take total).drop offset = [] := by
          rw [← List.length_eq_zero_iff, hlength]
          omega
        rw [if_neg hleft, hnone, List.append_nil]
        exact ⟨s.tick, rfl⟩

/-- The body of the `with` statement of `get_file_chunk`. -/
def sendChunk (path : Str) (start length : Int) (fuel : Nat) : Handler Unit := do
  let seekable ← consult fun h t => h.seekable t path
  if seekable then
    sysCall (.seek path start)
  if length < 0 then
    raise (valueError "negative count")
  let pos := if seekable then start.toNat else 0
  let (buf, total) ← readChunk path fuel pos (List.replicate length.toNat 0) 0 length
  ok (some ("TSI_LENGTH ".toList ++ natText total ++ "\nENDOFMESSAGE".toList))
  writeChunk buf total fuel 0 total

theorem getFileChunk_run {msg : Str} {start length : Int} {rawPath : Str}
    (hfile : extractParameter msg "FILE".toList = some rawPath)
    (hstart : pyIntOpt (extractParameter msg "START".toList) = .ok start)
    (hlength : pyIntOpt (extractParameter msg "LENGTH".toList) = .ok length) :
    getFileChunk msg config r s =
      withFile (expandVariables r.environ rawPath) "rb".toList
        (sendChunk (expandVariables r.environ rawPath) start length r.fuel) r s := by
  unfold getFileChunk
  rw [bind_run_done ask_run, hfile, hstart, hlength]
  rfl

/-- What a message that asks for a piece of a file makes the code do. -/
theorem getFileChunk_message {msg rawPath : Str} {start length : Nat} (hmsg : GetMessage msg rawPath start length)
    (hname : rawPath ≠ []) :
    getFileChunk msg config r s =
      withFile (expandVariables r.environ rawPath) "rb".toList
        (sendChunk (expandVariables r.environ rawPath) start length r.fuel) r s := by
  obtain ⟨startText, lengthText, hstart, hstart', hlen, hlen', hfile, hgiven, hcount⟩ := hmsg
  have hint : pyIntOpt (extractParameter msg "START".toList) = .ok (start : Int) := by
    rw [extractParameter_of_given (by decide) hgiven hstart]
    exact hstart'
  have hint' : pyIntOpt (extractParameter msg "LENGTH".toList) = .ok (length : Int) := by
    rw [extractParameter_of_given (by decide) hcount hlen]
    exact hlen'
  exact getFileChunk_run (extractParameter_of_given (by decide) hfile hname) hint hint'

/-- The state after a request for a piece of a file. -/
def sending (sent : List UInt8) (n : Nat) (s : HandlerState) : HandlerState :=
  { s with tick := n, calls := s.calls ++ [lengthReply sent.length], dataOut := s.dataOut ++ sent }

theorem send_lengthReply (hconnected : ∀ t, r.host.channelGone t = false) (hbroken : s.broken = false)
    (n : Nat) : send (lengthReply n) r s =
      (.done (), { s with tick := s.tick + 1, calls := s.calls ++ [lengthReply n] }) := by
  have hnotack : lengthReply n ≠ .ok (some "ENDOFMESSAGE".toList) := by
    intro h
    injection h with h
    have hhead : some 'T' = some 'E' := congrArg List.head? (Option.some.inj h)
    exact absurd hhead (by decide)
  exact send_connected (hconnected _) hbroken hnotack

/-- What `sendChunk` does once it is at its place in the file. -/
def sendFrom (path : Str) (start length fuel : Nat) : Handler Unit := do
  let (buf, total) ← readChunk path fuel start (List.replicate length 0) 0 length
  send (lengthReply total)
  writeChunk buf total fuel 0 total

theorem sendChunk_seeks (start length fuel : Nat) (hseekable : ∀ t, r.host.seekable t path = true)
    (hseeks : ∀ t offset, r.host.sysCall t (.seek path offset) = none) :
    sendChunk path start length fuel r s = sendFrom path start length fuel r { s with tick := s.tick + 2 } := by
  have hconsult : (consult fun h t => h.seekable t path : Handler Bool) r s =
      (.done true, { s with tick := s.tick + 1 }) := by
    rw [consult_run, hseekable]
  have hseek : sysCall (.seek path start) r { s with tick := s.tick + 1 } =
      (.done (), { s with tick := s.tick + 2 }) := by
    rw [sysCall_run, hseeks]
  have hcount : ¬(length : Int) < 0 := by omega
  unfold sendChunk
  rw [bind_run_done hconsult, if_pos rfl, bind_run_done hseek, if_neg hcount]
  rfl

theorem sendChunk_run (start : Nat) {length : Nat} (hhost : Obliging r.host path)
    (hreads : ReadsFully r.host length) (hlength : 0 < length) (hbroken : s.broken = false)
    (hfuel : (content s path).length + 2 ≤ r.fuel) :
    ∃ n, sendChunk path start length r.fuel r s =
      (.done (), sending (piece (content s path) start length) n s) := by
  have hread := readChunk_run path r.fuel start (List.replicate length 0) (r := r)
    (s := { s with tick := s.tick + 2 }) hreads hlength (by simp) (by omega)
  obtain ⟨n, back, hread⟩ := hread
  have hcontent : content { s with tick := s.tick + 2 } path = content s path := rfl
  rw [hcontent] at hread
  generalize hsent : piece (content s path) start length = sent at hread
  have hshort : sent.length ≤ (content s path).length := by
    rw [← hsent]
    exact ((List.take_sublist _ _).trans (List.drop_sublist _ _)).length_le
  have hok := send_lengthReply (r := r) (s := { s with tick := n }) hhost.connected hbroken sent.length
  obtain ⟨m, hwrite⟩ := writeChunk_run (r := r)
    (s := { s with tick := n + 1, calls := s.calls ++ [lengthReply sent.length] }) hhost.dataWrites
    (sent ++ back) sent.length r.fuel 0 (by simp) (Nat.zero_le _) (by omega)
  refine ⟨m, ?_⟩
  rw [sendChunk_seeks start length r.fuel hhost.seekable hhost.seeks, sendFrom, bind_run_done hread]
  refine (bind_run_done hok).trans ?_
  have hmust : (sent.length : Int) = sent.length - (0 : Nat) := by omega
  have htake : ((sent ++ back).take sent.length).drop 0 = sent := by simp
  rw [htake] at hwrite
  rw [hmust]
  exact hwrite

/-- A request for a piece of a file reports and sends that piece. -/
theorem getFileChunk_sends (config : Settings) (hhost : Obliging r.host path) (hname : path ≠ [])
    (hpath : '$' ∉ path) {msg : Str} {start length : Nat} (hmsg : GetMessage msg path start length)
    (hreads : ReadsFully r.host length) (hlength : 0 < length) (hbroken : s.broken = false)
    (hfuel : (content s path).length + 2 ≤ r.fuel) :
    ∃ n, getFileChunk msg config r s =
      (.done (), sending (piece (content s path) start length) n s) := by
  rw [getFileChunk_message hmsg hname, expandVariables_of_not_mem r.environ hpath,
    withFile_opened (hhost.opens _ _)]
  obtain ⟨n, hn⟩ := sendChunk_run start (s := { s with tick := s.tick + 1 }) hhost hreads
    hlength hbroken hfuel
  rw [hn, afterBody, hhost.closes]
  exact ⟨n + 1, rfl⟩

end Download

/-! ## A whole download -/

theorem lengthReply_injective : Function.Injective lengthReply := by
  intro m n h
  injection h with h
  have htext := Option.some.inj h
  rw [List.append_assoc, List.append_assoc] at htext
  exact natText_injective (List.append_cancel_right (List.append_cancel_left htext))

/-- One request of a download: the length asked for, the length reported, and the bytes sent. -/
structure Get where
  length : Nat
  reported : Nat
  sent : List UInt8

/-- A client asks for piece after piece of a file, each from where the last reported length has got it,
until it is told that nothing is left. -/
inductive Downloads (config : Settings) (r : HandlerCtx) (path : Str) :
    Nat → HandlerState → List Get → HandlerState → Prop where
  | done {start : Nat} {s : HandlerState} : Downloads config r path start s [] s
  | get {start length n : Nat} {s s₁ s₂ : HandlerState} {msg : Str} {sent : List UInt8} {gets : List Get}
      (hmsg : GetMessage msg path start length) (hlength : 0 < length)
      (hrun : (getFileChunk msg config r s).2 = s₁) (hreport : s₁.calls = s.calls ++ [lengthReply n])
      (hsent : s₁.dataOut = s.dataOut ++ sent)
      (hrest : Downloads config r path (start + n) s₁ gets s₂) :
      Downloads config r path start s (⟨length, n, sent⟩ :: gets) s₂

section Transfer

variable {config : Settings} {r : HandlerCtx} {path : Str}

/-- What a download gets: every report is true, and the pieces are the file from `start` on, all of it when
the last report is 0. -/
theorem downloads_sends (hhost : Obliging r.host path) (hname : path ≠ []) (hpath : '$' ∉ path)
    {start : Nat} {s s' : HandlerState} {gets : List Get}
    (hdownload : Downloads config r path start s gets s') (hbroken : s.broken = false)
    (hfuel : (content s path).length + 2 ≤ r.fuel)
    (hreads : ∀ g ∈ gets, ReadsFully r.host g.length) :
    (∀ g ∈ gets, g.reported = g.sent.length) ∧
      ((gets.getLast?.map Get.reported) = some 0 →
        (gets.map Get.sent).flatten = (content s path).drop start) ∧
      content s' path = content s path ∧ s'.broken = false := by
  induction hdownload with
  | done => exact ⟨by simp, by simp, rfl, hbroken⟩
  | @get start length n s s₁ s₂ msg sent gets hmsg hlength hrun hreport hsent hrest ih =>
      rw [List.forall_mem_cons] at hreads
      obtain ⟨m, hm⟩ := getFileChunk_sends config hhost hname hpath hmsg hreads.1 hlength hbroken hfuel
      rw [hm] at hrun
      generalize hpiece : piece (content s path) start length = data at hrun
      obtain rfl : s₁ = sending data m s := hrun.symm
      obtain rfl : sent = data := (List.append_cancel_left hsent).symm
      obtain rfl : n = sent.length :=
        (lengthReply_injective (List.singleton_inj.mp (List.append_cancel_left hreport))).symm
      obtain ⟨hreports, hall, hkept, hstill⟩ := ih hbroken hfuel hreads.2
      have hsame : content (sending sent m s) path = content s path := rfl
      rw [hsame] at hall hkept
      have hjoined : sent ++ (content s path).drop (start + sent.length) = (content s path).drop start := by
        have hfront : sent = ((content s path).drop start).take sent.length := by
          apply List.prefix_iff_eq_take.mp
          rw [← hpiece]
          exact List.take_prefix _ _
        rw [← List.drop_drop]
        conv => lhs; lhs; rw [hfront]
        exact List.take_append_drop _ _
      refine ⟨?_, ?_, hkept, hstill⟩
      · rw [List.forall_mem_cons]
        exact ⟨rfl, hreports⟩
      · intro hlast
        rw [List.map_cons, List.flatten_cons]
        cases gets with
        | nil =>
            -- nothing is reported although something was asked for: the file ends here
            have hnone : sent.length = 0 := by simpa using hlast
            have hend : (content s path).drop start = [] := by
              have hsent' := List.length_eq_zero_iff.mp hnone
              rw [hsent', piece] at hpiece
              rcases List.take_eq_nil_iff.mp hpiece with hzero | hend
              · omega
              · exact hend
            rw [hend, List.length_eq_zero_iff.mp hnone]
            rfl
        | cons g gets =>
            have hlast' : ((g :: gets).getLast?.map Get.reported) = some 0 := by
              simpa [List.getLast?_cons_cons] using hlast
            rw [hall hlast', hjoined]

/-- **Chunked transfer.**  A file uploaded in chunks holds their concatenation.  Whatever pieces of it are
then asked for, every request is served, every reported length is the number of bytes sent, and once 0 is
reported the bytes sent are the file. -/
theorem chunks_round_trip (config : Settings) (hhost : Obliging r.host path) (hname : path ≠ [])
    (hpath : '$' ∉ path) {bytes : List UInt8} {first : Str × List UInt8} {rest : List (Str × List UInt8)}
    (hbytes : ((first :: rest).map Prod.snd).flatten = bytes)
    (hfirst : PutMessage first.1 path "1".toList first.2)
    (hrest : ∀ p ∈ rest, PutMessage p.1 path "3".toList p.2) {s : HandlerState} (hempty : s.dataIn = [])
    (hbroken : s.broken = false) (hfuel : bytes.length + 2 ≤ r.fuel) :
    ∃ s₁, putChunks config (first :: rest) r s = (.done (), s₁) ∧ content s₁ path = bytes ∧
      ∀ gets s₂, Downloads config r path 0 s₁ gets s₂ → (∀ g ∈ gets, ReadsFully r.host g.length) →
        (∀ g ∈ gets, g.reported = g.sent.length) ∧
        ((gets.getLast?.map Get.reported) = some 0 → (gets.map Get.sent).flatten = bytes) ∧
        ∀ msg start length, GetMessage msg path start length → 0 < length →
          ReadsFully r.host length → ∃ n, getFileChunk msg config r s₂ =
            (.done (), sending (piece bytes start length) n s₂) := by
  obtain ⟨msg, chunk⟩ := first
  have hsize : ∀ p ∈ (msg, chunk) :: rest, p.2.length < r.fuel := by
    intro p hp
    have hmem : p.2 ∈ ((msg, chunk) :: rest).map Prod.snd := List.mem_map_of_mem hp
    have hle := (List.sublist_flatten_of_mem hmem).length_le
    rw [hbytes] at hle
    omega
  rw [List.forall_mem_cons] at hsize
  obtain ⟨s₀, hrun, hstored⟩ := putFileChunk_stores (s := { s with upload := chunk }) config hhost hpath
    (by decide) hfirst rfl hempty hbroken hsize.1
  obtain ⟨s₁, hmore, hall⟩ := putChunks_appends config hhost hpath rest hrest hstored.dataIn
    (hstored.broken.trans hbroken) hsize.2
  have hcontent : content s₁ path = bytes := by
    have hone : ("1".toList : Str) ≠ "3".toList := by decide
    rw [hall.content, hstored.content, if_neg hone, List.nil_append, ← hbytes]
    rfl
  have hbroken₁ : s₁.broken = false := hall.broken.trans (hstored.broken.trans hbroken)
  refine ⟨s₁, ?_, hcontent, ?_⟩
  · unfold putChunks
    rw [bind_run_done (modify_run _), bind_run_done hrun, hmore]
  · intro gets s₂ hdownload hreads
    have hfuel₁ : (content s₁ path).length + 2 ≤ r.fuel := by rw [hcontent]; exact hfuel
    obtain ⟨hreports, hlast, hkept, hstill⟩ :=
      downloads_sends hhost hname hpath hdownload hbroken₁ hfuel₁ hreads
    rw [hcontent] at hlast hkept
    refine ⟨hreports, hlast, ?_⟩
    intro msg start length hmsg hlength hfully
    have hfuel₂ : (content s₂ path).length + 2 ≤ r.fuel := by rw [hkept]; exact hfuel
    obtain ⟨n, hn⟩ := getFileChunk_sends config hhost hname hpath hmsg hfully hlength hstill hfuel₂
    rw [hkept] at hn
    exact ⟨n, hn⟩

end Transfer

/-! ## Three bytes in two chunks -/

/-- A host that moves single bytes wherever it may. -/
def slowHost : Host :=
  { calmHost UserDb.empty.cache with
    dataRead := fun _ => 1
    fileWrite := fun _ => .ok 1
    dataWrite := fun _ => .ok (some 1) }

theorem slowHost_obliging (path : Str) : Obliging slowHost path where
  opens _ _ := rfl
  seeks _ _ := rfl
  closes _ := rfl
  chmods _ _ _ h := nomatch h
  seekable _ := rfl
  connected _ := rfl
  fileWrites _ := ⟨1, rfl⟩
  dataWrites _ := ⟨some 1, rfl, by simp⟩

/-- An upload request for a path with a blank in it. -/
def putMyFile (action length : String) : Str :=
  "#TSI_PUTFILECHUNK\n#TSI_FILE /tmp/my file 600\n#TSI_FILESACTION ".toList ++ action.toList ++
    "\n#TSI_LENGTH ".toList ++ length.toList ++ "\n".toList

theorem chunks_round_trip_slow :
    ∃ s₁, putChunks {} [(putMyFile "1" "2", [7, 8]), (putMyFile "3" "1", [9])]
        { host := slowHost, environ := ⟨none, none, none⟩, fuel := 5 } .fresh = (.done (), s₁) ∧
      content s₁ "/tmp/my file".toList = [7, 8, 9] ∧
      ∀ gets s₂, Downloads {} { host := slowHost, environ := ⟨none, none, none⟩, fuel := 5 }
          "/tmp/my file".toList 0 s₁ gets s₂ → (∀ g ∈ gets, ReadsFully slowHost g.length) →
        (∀ g ∈ gets, g.reported = g.sent.length) ∧
        ((gets.getLast?.map Get.reported) = some 0 → (gets.map Get.sent).flatten = [7, 8, 9]) ∧
        ∀ msg start length, GetMessage msg "/tmp/my file".toList start length → 0 < length →
          ReadsFully slowHost length → ∃ n, getFileChunk msg {}
            { host := slowHost, environ := ⟨none, none, none⟩, fuel := 5 } s₂ =
            (.done (), sending (piece [7, 8, 9] start length) n s₂) := by
  have hfirst : PutMessage (putMyFile "1" "2") "/tmp/my file".toList "1".toList [7, 8] :=
    ⟨"600".toList, 0o600, "2".toList, by decide, by decide, by decide, by decide, by decide, by decide,
      by decide⟩
  have hsecond : PutMessage (putMyFile "3" "1") "/tmp/my file".toList "3".toList [9] :=
    ⟨"600".toList, 0o600, "1".toList, by decide, by decide, by decide, by decide, by decide, by decide,
      by decide⟩
  exact chunks_round_trip {} (slowHost_obliging _) (by decide) (by decide) rfl hfirst
    (by simpa using hsecond) rfl rfl (by decide)

end UnicoreTsi.Io
