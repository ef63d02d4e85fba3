/-
# UnicoreTsi.DataBlocks — data on the text stream of a worker that runs a single request.

Such a worker has no data channel: it writes data as a header line, a line of base 64 and a trailer line between its
messages, and reads it back with the loop for messages, which goes up to the trailer.  No line of base 64 is a
trailer (`encoded_not_end`), so the blocks come back one by one, and the stream stands behind the last one
(`data_blocks_round_trip`).
-/
import UnicoreTsi.Lib.Base64
import UnicoreTsi.MessageStreams
import UnicoreTsi.Utils

set_option autoImplicit false

namespace UnicoreTsi.StreamConnector

open UnicoreTsi.Text UnicoreTsi.Framing UnicoreTsi.Utils

/-! ## Writing -/

/-- `write_message`, as a function of what has been written so far. -/
def writeMessage (message : Option Str) (out : Str) : Str :=
  match message with
  | some m => out ++ m ++ "\n".toList
  | none => out

def dataBegin : Str := "---BEGIN DATA BASE64---".toList

def dataEnd : Str := "---END DATA---".toList

/-- `base64.b64encode`, as the text that `Utils.encode` makes of the bytes: they are ASCII. -/
def b64encode (data : List UInt8) : Str := Base64.encode data

/-- `write_data`: the number of bytes written, and the stream. -/
def writeData (data : List UInt8) (out : Str) : Nat × Str :=
  let out := writeMessage (some dataBegin) out
  let out := writeMessage (some (b64encode data)) out
  let out := writeMessage (some dataEnd) out
  (data.length, out)

/-! ## Reading -/

/-- The errors of `binascii` are `ValueError`s. -/
def binasciiError (s : Str) : Base64.DecodeError → PyExc
  | .oneMore =>
      { kind := .valueError,
        text := "Invalid base64-encoded string: number of data characters (".toList ++
          natText (s.filter fun c => decide (c ∈ Base64.alphabet)).length ++
          ") cannot be 1 more than a multiple of 4".toList }
  | .incorrectPadding => valueError "Incorrect padding"

/-- `base64.b64decode` of a text. -/
def b64decode (s : Str) : Except PyExc (List UInt8) :=
  if Tsi.isAscii s then (Base64.decode s).mapError (binasciiError s)
  else .error (valueError "string argument should contain only ASCII characters")

/-- The data in a block, without its trailer. -/
def decodeBlock (msg : Str) : Except PyExc (List UInt8) :=
  match splitOnce '\n' msg with
  | none => .error (valueError "not enough values to unpack (expected 2, got 1)")
  | some (header, msg) =>
      if "---BEGIN DATA BASE64".toList.isPrefixOf header then b64decode msg
      else .error (valueError "Expected base64 encoded data chunk")

/-- `read_data` over the lines of the stream: what the call returns or raises, and the lines after it. -/
def readData (lines : List Str) : Except PyExc (List UInt8) × List Str :=
  (decodeBlock (readMessage dataEnd lines).1, (readMessage dataEnd lines).2)

/-- So many calls of `read_data`. -/
def readBlocks : Nat → List Str → List (Except PyExc (List UInt8)) × List Str
  | 0, lines => ([], lines)
  | n + 1, lines =>
      let (data, rest) := readData lines
      let (others, rest) := readBlocks n rest
      (data :: others, rest)

/-! ## One block -/

theorem significant_plain {c : Char} (h : Base64.significant c = true) : c ≠ '-' ∧ c ≠ '\n' ∧ c.toNat < 128 := by
  have hall : ∀ c ∈ Base64.alphabet, c ≠ '-' ∧ c ≠ '\n' ∧ c.toNat < 128 := by decide +kernel
  rcases Base64.significant_iff.mp h with hdigit | rfl
  · exact hall c hdigit
  · decide

theorem newline_b64encode (data : List UInt8) : '\n' ∉ b64encode data := by
  intro h
  exact (significant_plain (Base64.mem_encode data _ h)).2.1 rfl

/-- No line of base 64 can be taken for the trailer. -/
theorem encoded_not_end (data : List UInt8) : ¬ Ends dataEnd (b64encode data ++ ['\n']) := by
  rintro ⟨-, hstrip⟩
  -- the trailer has a dash, and base 64 has none
  have hdash : '-' ∈ strip (b64encode data ++ ['\n']) := by
    rw [hstrip]
    decide
  have hmem := (strip_sublist _).subset hdash
  rw [List.mem_append, List.mem_singleton] at hmem
  rcases hmem with hencoded | hnewline
  · exact (significant_plain (Base64.mem_encode data _ hencoded)).1 rfl
  · exact absurd hnewline (by decide)

theorem b64decode_encoded (data : List UInt8) : b64decode (b64encode data ++ ['\n']) = .ok data := by
  have hascii : Tsi.isAscii (b64encode data ++ ['\n']) = true := by
    refine List.all_eq_true.mpr fun c hc => ?_
    rw [List.mem_append, List.mem_singleton] at hc
    rcases hc with hencoded | rfl
    · exact decide_eq_true (significant_plain (Base64.mem_encode data _ hencoded)).2.2
    · decide
  have hdigits : (b64encode data ++ ['\n']).filter Base64.significant = Base64.encode data := by
    have hnewline : ['\n'].filter Base64.significant = [] := by decide +kernel
    rw [List.filter_append, hnewline, List.append_nil, b64encode, Base64.filter_encode]
  rw [b64decode, if_pos hascii, Base64.decode_of_filter hdigits]
  rfl

/-- The lines of a block. -/
def blockLines (data : List UInt8) : List Str := [dataBegin, b64encode data, dataEnd]

theorem newline_blockLines (data : List UInt8) : ∀ l ∈ blockLines data, '\n' ∉ l := by
  have hfixed : '\n' ∉ dataBegin ∧ '\n' ∉ dataEnd := by decide
  simp only [blockLines, List.forall_mem_cons]
  exact ⟨hfixed.1, newline_b64encode data, hfixed.2, nofun⟩

theorem writeData_text (data : List UInt8) (out : Str) :
    writeData data out = (data.length, out ++ unlines (blockLines data)) := by
  simp [writeData, writeMessage, blockLines, unlines, stream]

/-- A call of `read_data` in front of a block. -/
theorem readData_block (data : List UInt8) (rest : List Str) :
    readData ((blockLines data).map (· ++ ['\n']) ++ rest) = (.ok data, rest) := by
  have hinner : ∀ line ∈ [dataBegin ++ ['\n'], b64encode data ++ ['\n']], ¬ Ends dataEnd line := by
    have hbegin : ¬ Ends dataEnd (dataBegin ++ ['\n']) := by
      rintro ⟨-, hstrip⟩
      exact absurd hstrip (by decide)
    simp only [List.forall_mem_cons]
    exact ⟨hbegin, encoded_not_end data, nofun⟩
  have hend : Ends dataEnd (dataEnd ++ ['\n']) := ⟨by decide, by decide⟩
  -- the loop for messages takes the header and the data, and stops at the trailer
  have hmessage : readMessage dataEnd ((blockLines data).map (· ++ ['\n']) ++ rest) =
      (dataBegin ++ '\n' :: (b64encode data ++ ['\n']), rest) := by
    have hread := readMessage_ends hinner hend rest
    simpa [blockLines] using hread
  have hheader : "---BEGIN DATA BASE64".toList.isPrefixOf dataBegin = true := by decide
  rw [readData, hmessage]
  dsimp only
  rw [decodeBlock, splitOnce_append (by decide)]
  dsimp only
  rw [if_pos hheader, b64decode_encoded]

/-! ## A stream of blocks -/

/-- One block after the other. -/
def writeBlocks (blocks : List (List UInt8)) (out : Str) : Str :=
  blocks.foldl (fun out data => (writeData data out).2) out

def writeMessages (messages : List Str) (out : Str) : Str :=
  messages.foldl (fun out message => writeMessage (some message) out) out

theorem writeBlocks_text (blocks : List (List UInt8)) (out : Str) :
    writeBlocks blocks out = out ++ blocks.flatMap fun data => unlines (blockLines data) := by
  induction blocks generalizing out with
  | nil => simp [writeBlocks]
  | cons data blocks ih =>
      have hnext : writeBlocks (data :: blocks) out = writeBlocks blocks (out ++ unlines (blockLines data)) := by
        rw [writeBlocks, List.foldl_cons, writeData_text]
        rfl
      rw [hnext, ih, List.flatMap_cons, List.append_assoc]

theorem readBlocks_written (blocks : List (List UInt8)) (rest : Str) :
    readBlocks blocks.length (pieces '\n' ((blocks.flatMap fun data => unlines (blockLines data)) ++ rest)) =
      (blocks.map .ok, pieces '\n' rest) := by
  induction blocks with
  | nil => rfl
  | cons data blocks ih =>
      rw [List.flatMap_cons, List.append_assoc, unlines, pieces_stream_append (newline_blockLines data),
        List.length_cons, readBlocks, readData_block]
      dsimp only
      rw [ih, List.map_cons]

theorem writeMessages_terminated (messages : List Str) {out : Str} (h : Terminated '\n' out) :
    Terminated '\n' (writeMessages messages out) := by
  induction messages generalizing out with
  | nil => exact h
  | cons message messages ih =>
      exact ih (terminated_append_mark (out ++ message))

/-- **Blocks of data.**  Blocks written after some messages, and whatever follows them: a reader that has read the
lines of the messages gets the data back with one call for each block, and the lines of what follows are left. -/
theorem data_blocks_round_trip (messages : List Str) (blocks : List (List UInt8)) (rest : Str) :
    let start := writeMessages messages []
    let lines := pieces '\n' (writeBlocks blocks start ++ rest)
    lines.take (pieces '\n' start).length = pieces '\n' start ∧
      readBlocks blocks.length (lines.drop (pieces '\n' start).length) = (blocks.map .ok, pieces '\n' rest) := by
  intro start lines
  have hstart : Terminated '\n' start := writeMessages_terminated messages terminated_nil
  -- the messages end with a newline, so no line is made of both parts
  have hlines : lines =
      pieces '\n' start ++ pieces '\n' ((blocks.flatMap fun data => unlines (blockLines data)) ++ rest) := by
    show pieces '\n' (writeBlocks blocks start ++ rest) = _
    rw [writeBlocks_text, List.append_assoc, hstart.pieces_append]
  rw [hlines, List.take_left, List.drop_left]
  exact ⟨rfl, readBlocks_written blocks rest⟩

end UnicoreTsi.StreamConnector
