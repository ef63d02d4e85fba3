/-
# UnicoreTsi.ShortReads — a download whose raw reads bring less than was asked for.

`get_file_chunk` gives `readinto` its whole buffer every time.  So a second read starts over at the front
of the buffer and may read beyond what was asked for, and the loop counts bytes that are no longer there.
The buffer after any sequence of reads is the one of `Lib.Overlay` (`readChunk_overlays`).  If the reads
together go beyond the buffer the write loop never ends (`writeChunk_overrun`), and otherwise the client gets
the right number of bytes, which are the right ones exactly if the reads leave them alone
(`get_file_chunk_iff`).
-/
import UnicoreTsi.ChunkTransfer
import UnicoreTsi.Lib.Overlay

set_option autoImplicit false

namespace UnicoreTsi.Io

open UnicoreTsi.Text UnicoreTsi.Effects UnicoreTsi.Utils UnicoreTsi.Connector UnicoreTsi.Overlay

/-! ## The sizes of the reads -/

/-- How many bytes `readinto` brings into a buffer of the given length when `left` are left in the file. -/
def readSize (host : Host) (t length left : Nat) : Nat :=
  match host.fileRead t with
  | .ok wanted => min (min length (max 1 wanted)) left
  | .error _ => 0

theorem readSize_le (host : Host) (t length left : Nat) :
    readSize host t length left ≤ length ∧ readSize host t length left ≤ left := by
  unfold readSize
  split <;> omega

/-- How many bytes the reads bring, from the one at tick `t` on, until `length` have been counted or a read
brings nothing. -/
def readSizes (host : Host) (length t got left : Nat) : List Nat :=
  if got < length ∧ 0 < readSize host t length left then
    readSize host t length left ::
      readSizes host length (t + 1) (got + readSize host t length left)
        (left - readSize host t length left)
  else []
termination_by left
decreasing_by
  have hle := readSize_le host t length left
  omega

section Sizes

variable {host : Host}

theorem readSizes_sum_le (length t got left : Nat) : (readSizes host length t got left).sum ≤ left := by
  fun_induction readSizes host length t got left with
  | case1 t got left hread ih =>
      have hle := readSize_le host t length left
      rw [List.sum_cons]
      omega
  | case2 t got left hread => exact Nat.zero_le _

theorem readSizes_le (length t got left : Nat) : ∀ n ∈ readSizes host length t got left, n ≤ length := by
  fun_induction readSizes host length t got left with
  | case1 t got left hread ih =>
      rw [List.forall_mem_cons]
      exact ⟨(readSize_le host t length left).1, ih⟩
  | case2 t got left hread => simp

/-- The loop ends because enough has been counted or because the file has been read to its end. -/
theorem readSizes_enough (hreads : ∀ t, ∃ n, host.fileRead t = .ok n) (length t got left : Nat) :
    length ≤ got + (readSizes host length t got left).sum ∨
      (readSizes host length t got left).sum = left := by
  fun_induction readSizes host length t got left with
  | case1 t got left hread ih =>
      have hle := readSize_le host t length left
      rw [List.sum_cons]
      omega
  | case2 t got left hread =>
      rw [List.sum_nil]
      rcases Nat.lt_or_ge got length with hmore | henough
      · -- a read of a file that is not at its end brings something
        obtain ⟨wanted, hwanted⟩ := hreads t
        have hnone : ¬0 < readSize host t length left := fun h => hread ⟨hmore, h⟩
        rw [readSize, hwanted] at hnone
        dsimp only at hnone
        omega
      · exact Or.inl (by omega)

end Sizes

/-! ## The two loops -/

section Loops

variable {path : Str} {r : HandlerCtx} {s : HandlerState}

theorem readInto_size (hreads : ∀ t, ∃ n, r.host.fileRead t = .ok n) (pos size : Nat) :
    readInto path pos size r s =
      (.done (((content s path).drop pos).take
        (readSize r.host s.tick size ((content s path).drop pos).length)), { s with tick := s.tick + 1 }) := by
  obtain ⟨wanted, hwanted⟩ := hreads s.tick
  have htake : ((content s path).drop pos).take (min size (max 1 wanted)) =
      ((content s path).drop pos).take
        (readSize r.host s.tick size ((content s path).drop pos).length) := by
    rw [List.take_eq_take_iff, readSize, hwanted]
    dsimp only
    omega
  unfold readInto
  rw [bind_run, attempt_run, hwanted, ← htake]
  rfl

/-- The read loop writes the file over the front of the buffer, read by read. -/
theorem readChunk_overlays (hreads : ∀ t, ∃ n, r.host.fileRead t = .ok n) {length : Nat} (fuel pos got : Nat)
    (buf : List UInt8) (hbuf : buf.length = length) (hfuel : ((content s path).drop pos).length < fuel) :
    ∃ n, readChunk path fuel pos buf got ((length : Int) - got) r s =
      (.done (overlays buf (readSizes r.host length s.tick got ((content s path).drop pos).length)
          ((content s path).drop pos),
        got + (readSizes r.host length s.tick got ((content s path).drop pos).length).sum),
        { s with tick := n }) := by
  induction fuel generalizing pos got buf s with
  | zero => omega
  | succ fuel ih =>
      unfold readChunk
      rw [readSizes]
      by_cases hmore : (length : Int) - got > 0
      · rw [if_pos hmore, bind_run_done (readInto_size hreads pos buf.length), hbuf]
        have hle := readSize_le r.host s.tick length ((content s path).drop pos).length
        generalize hn : readSize r.host s.tick length ((content s path).drop pos).length = n at hle
        have hlength : (((content s path).drop pos).take n).length = n := by
          rw [List.length_take]
          omega
        by_cases hnone : n = 0
        · have hempty : ((content s path).drop pos).take n = [] := by rw [hnone, List.take_zero]
          rw [if_pos hempty, if_neg (by omega)]
          exact ⟨s.tick + 1, rfl⟩
        · have hsome : ((content s path).drop pos).take n ≠ [] := by
            intro hempty
            rw [hempty] at hlength
            exact hnone hlength.symm
          have hdrop : (content s path).drop (pos + n) = ((content s path).drop pos).drop n := by
            rw [List.drop_drop]
          have hleft : ((content s path).drop (pos + n)).length = ((content s path).drop pos).length - n := by
            rw [hdrop, List.length_drop]
          -- the rest of the loop, with the front of the buffer overwritten
          obtain ⟨m, hrest⟩ := ih (s := { s with tick := s.tick + 1 }) (pos + n) (got + n)
            (overlay buf (((content s path).drop pos).take n))
            (by rw [length_overlay (by omega), hbuf])
            (by
              show ((content s path).drop (pos + n)).length < fuel
              omega)
          rw [if_neg hsome, if_pos ⟨by omega, by omega⟩, overlays_cons, List.sum_cons, hlength]
          refine ⟨m, ?_⟩
          have hcontent : content { s with tick := s.tick + 1 } path = content s path := rfl
          rw [hcontent, hleft, hdrop] at hrest
          have hcount : (length : Int) - got - n = length - (got + n : Nat) := by omega
          rw [hcount, ← Nat.add_assoc]
          rw [overlay, hlength] at hrest
          rw [overlay, hlength]
          exact hrest
      · rw [if_neg hmore, if_neg (by omega)]
        exact ⟨s.tick, rfl⟩

/-- Once everything in the buffer has been sent, what is still to be sent stays the same. -/
theorem writeChunk_overrun (hwrites : TakesWrites r.host) (buf : List UInt8) {total : Nat}
    (htotal : buf.length < total) (fuel offset : Nat) (hoffset : offset ≤ buf.length) :
    (writeChunk buf total fuel offset ((total : Int) - offset) r s).1 = .hung := by
  induction fuel generalizing offset s with
  | zero => rfl
  | succ fuel ih =>
      have hlength : ((buf.take total).drop offset).length = buf.length - offset := by
        rw [List.length_drop, List.length_take]
        omega
      obtain ⟨n, s₁, hle, hrun⟩ : ∃ n s₁, n ≤ ((buf.take total).drop offset).length ∧
          writeData ((buf.take total).drop offset) r s = (.done n, s₁) := by
        obtain ⟨written, hwritten, -⟩ := hwrites s.tick
        unfold writeData
        rw [bind_run, attempt_run, hwritten]
        cases written with
        | none => exact ⟨_, _, le_refl _, rfl⟩
        | some n => exact ⟨_, _, min_le_right _ _, rfl⟩
      have hleft : (total : Int) - offset > 0 := by omega
      have hmust : (total : Int) - offset - n = (total : Int) - (offset + n : Nat) := by omega
      unfold writeChunk
      rw [if_pos hleft, bind_run_done hrun, hmust]
      apply ih
      omega

end Loops

/-! ## A download -/

/-- A host on which nothing fails that a download of `path` does; its reads and writes may be short. -/
structure Readable (host : Host) (path : Str) : Prop where
  opens : ∀ t, host.sysCall t (.open path "rb".toList) = none
  seekable : ∀ t, host.seekable t path = true
  seeks : ∀ t offset, host.sysCall t (.seek path offset) = none
  reads : ∀ t, ∃ n, host.fileRead t = .ok n
  connected : ∀ t, host.channelGone t = false
  writes : TakesWrites host
  closes : ∀ t, host.sysCall t (.close path) = none

/-- Reads of the given sizes do no harm to a download of `length` bytes: together they do not go beyond the
buffer, and every byte ends up at its place. -/
def Harmless (bytes : List UInt8) (length : Nat) (sizes : List Nat) : Prop :=
  sizes.sum ≤ length ∧ ∀ j < sizes.sum, Intact (List.replicate length 0) sizes bytes j

section Download

variable {path : Str} {r : HandlerCtx} {s : HandlerState}

theorem sending_injective {sent sent' : List UInt8} {m n : Nat}
    (h : sending sent m s = sending sent' n s) : sent = sent' :=
  List.append_cancel_left (congrArg HandlerState.dataOut h)

/-- What `sendFrom` sends, unless it never ends. -/
theorem sendFrom_run (hhost : Readable r.host path) (hbroken : s.broken = false) {fuel : Nat}
    (start length : Nat) (hfuel : (content s path).length + 2 ≤ fuel) {bytes buf : List UInt8}
    {sizes : List Nat} (hbytes : (content s path).drop start = bytes)
    (hsizes : readSizes r.host length s.tick 0 bytes.length = sizes)
    (hbuf : overlays (List.replicate length 0) sizes bytes = buf) :
    (sizes.sum ≤ length ∧ ∃ n, sendFrom path start length fuel r s =
        (.done (), sending (buf.take sizes.sum) n s)) ∨
      length < sizes.sum ∧ (sendFrom path start length fuel r s).1 = .hung := by
  have hleft : ((content s path).drop start).length ≤ (content s path).length := by
    rw [List.length_drop]
    omega
  have hfuel' : ((content s path).drop start).length < fuel := by omega
  obtain ⟨n, hread⟩ := readChunk_overlays (s := s) hhost.reads fuel start 0
    (List.replicate length 0) List.length_replicate hfuel'
  have hcount : (length : Int) - (0 : Nat) = length := by omega
  rw [hcount, hbytes, hsizes, hbuf, Nat.zero_add] at hread
  have hlength : buf.length = length := by
    rw [← hbuf, length_overlays, List.length_replicate]
    rw [← hsizes, List.length_replicate]
    exact readSizes_le _ _ _ _
  have hsum : sizes.sum ≤ (content s path).length := by
    rw [← hsizes]
    exact (readSizes_sum_le _ _ _ _).trans (by rw [← hbytes]; exact hleft)
  have hok := send_lengthReply (r := r) (s := { s with tick := n }) hhost.connected hbroken sizes.sum
  have hrun : sendFrom path start length fuel r s = writeChunk buf sizes.sum fuel 0 sizes.sum r
      { s with tick := n + 1, calls := s.calls ++ [lengthReply sizes.sum] } := by
    rw [sendFrom, bind_run_done hread]
    exact bind_run_done hok
  have hall : (sizes.sum : Int) = sizes.sum - (0 : Nat) := by omega
  rw [hrun, hall]
  rcases Nat.lt_or_ge length sizes.sum with hover | hfits
  · exact Or.inr ⟨hover, writeChunk_overrun hhost.writes buf (by omega) fuel 0 (Nat.zero_le _)⟩
  · obtain ⟨m, hwrite⟩ := writeChunk_run (s :=
      { s with tick := n + 1, calls := s.calls ++ [lengthReply sizes.sum] }) hhost.writes buf sizes.sum fuel 0
      (by omega) (Nat.zero_le _) (by omega)
    have htaken : (buf.take sizes.sum).length = sizes.sum := by
      rw [List.length_take]
      omega
    refine Or.inl ⟨hfits, m, ?_⟩
    rw [hwrite, List.drop_zero, sending, htaken]

theorem sendFrom_iff (hhost : Readable r.host path) (hbroken : s.broken = false) {fuel : Nat}
    (start length : Nat) (hfuel : (content s path).length + 2 ≤ fuel) :
    (∃ n, sendFrom path start length fuel r s =
        (.done (), sending (piece (content s path) start length) n s)) ↔
      Harmless ((content s path).drop start) length
        (readSizes r.host length s.tick 0 ((content s path).drop start).length) := by
  have hrun := sendFrom_run hhost hbroken start length hfuel rfl rfl rfl
  have hsum := @readSizes_sum_le r.host length s.tick 0
    ((content s path).drop start).length
  have henough := readSizes_enough hhost.reads length s.tick 0
    ((content s path).drop start).length
  rw [piece]
  generalize (content s path).drop start = bytes at hrun hsum henough ⊢
  generalize readSizes r.host length s.tick 0 bytes.length = sizes at hrun hsum henough ⊢
  rcases hrun with ⟨hfits, m, hrun⟩ | ⟨hover, hhung⟩
  · have hpiece : bytes.take length = bytes.take sizes.sum := by
      rw [List.take_eq_take_iff]
      omega
    rw [hpiece, Harmless, ← take_overlays_iff hsum]
    constructor
    · rintro ⟨n, hn⟩
      exact ⟨hfits, sending_injective (congrArg Prod.snd (hrun.symm.trans hn))⟩
    · rintro ⟨-, hsame⟩
      rw [← hsame]
      exact ⟨m, hrun⟩
  · constructor
    · rintro ⟨n, hn⟩
      rw [hn] at hhung
      cases hhung
    · rintro ⟨hfits, -⟩
      omega

/-- Closing the file afterwards takes one more answer. -/
theorem afterBody_sending {host : Host} (hcloses : ∀ t, host.sysCall t (.close path) = none)
    (o : Outcome PyExc Unit × HandlerState) (sent : List UInt8) :
    (∃ n, afterBody host path o = (.done (), sending sent n s)) ↔ ∃ n, o = (.done (), sending sent n s) := by
  rcases o with ⟨⟨⟩ | e | _, s₁⟩
  · rw [afterBody, hcloses]
    constructor
    · rintro ⟨n, hn⟩
      have hstate : { s₁ with tick := s₁.tick + 1 } = sending sent n s := congrArg Prod.snd hn
      refine ⟨s₁.tick, congrArg (Prod.mk _) ?_⟩
      calc s₁ = { { s₁ with tick := s₁.tick + 1 } with tick := s₁.tick } := rfl
        _ = { sending sent n s with tick := s₁.tick } := by rw [hstate]
        _ = sending sent s₁.tick s := rfl
    · rintro ⟨n, hn⟩
      obtain rfl : s₁ = sending sent n s := congrArg Prod.snd hn
      exact ⟨n + 1, rfl⟩
  · rw [afterBody, hcloses]
    constructor
    · rintro ⟨_, ⟨⟩⟩
    · rintro ⟨_, ⟨⟩⟩
  · constructor
    · rintro ⟨_, ⟨⟩⟩
    · rintro ⟨_, ⟨⟩⟩

/-- **Short reads.**  A request for a piece of a file ends, reports the length of that piece and sends it if
and only if the reads it takes do it no harm. -/
theorem get_file_chunk_iff (config : Settings) {msg rawPath : Str} {start length : Nat}
    (hpath : expandVariables r.environ rawPath = path) (hname : rawPath ≠ [])
    (hmsg : GetMessage msg rawPath start length) (hhost : Readable r.host path) (hbroken : s.broken = false)
    (hfuel : (content s path).length + 2 ≤ r.fuel) :
    (∃ n, getFileChunk msg config r s = (.done (), sending (piece (content s path) start length) n s)) ↔
      Harmless ((content s path).drop start) length
        (readSizes r.host length (s.tick + 3) 0 ((content s path).drop start).length) := by
  have hsends := sendFrom_iff (s := { s with tick := s.tick + 3 }) hhost hbroken start length hfuel
  rw [getFileChunk_message hmsg hname, hpath, withFile_opened (hhost.opens _),
    sendChunk_seeks start length r.fuel hhost.seekable hhost.seeks, afterBody_sending hhost.closes]
  exact hsends

end Download

/-! ## Three bytes in two reads -/

/-- A host whose raw reads bring at most two bytes. -/
def twoByteHost : Host := { calmHost UserDb.empty.cache with fileRead := fun _ => .ok 2 }

theorem twoByteHost_readable (path : Str) : Readable twoByteHost path where
  opens _ := rfl
  seekable _ := rfl
  seeks _ _ := rfl
  reads _ := ⟨2, rfl⟩
  connected _ := rfl
  writes _ := ⟨none, rfl, by simp⟩
  closes _ := rfl

def twoByteCtx : HandlerCtx := { host := twoByteHost, environ := ⟨none, none, none⟩, fuel := 5 }

/-- A file of three bytes. -/
def threeBytes : HandlerState :=
  { HandlerState.fresh with files := fun p => if p = "/tmp/data".toList then some [7, 8, 9] else none }

/-- A request for all of it. -/
def getThree : Str := "#TSI_GETFILECHUNK\n#TSI_FILE /tmp/data\n#TSI_START 0\n#TSI_LENGTH 3\n".toList

theorem getThree_asks : GetMessage getThree "/tmp/data".toList 0 3 :=
  ⟨"0".toList, "3".toList, by decide, by decide, by decide, by decide, by decide, by decide, by decide⟩

theorem get_file_chunk_iff_three :
    (∃ n, getFileChunk getThree {} twoByteCtx threeBytes =
        (.done (), sending (piece (content threeBytes "/tmp/data".toList) 0 3) n threeBytes)) ↔
      Harmless ((content threeBytes "/tmp/data".toList).drop 0) 3
        (readSizes twoByteHost 3 3 0 ((content threeBytes "/tmp/data".toList).drop 0).length) :=
  get_file_chunk_iff {} (by decide) (by decide) getThree_asks (twoByteHost_readable _) rfl (by decide)

/-- The second read puts the last byte where the first one was. -/
theorem get_file_chunk_garbles :
    ¬∀ (config : Settings) (r : HandlerCtx) (s : HandlerState) (msg rawPath path : Str) (start length : Nat),
      expandVariables r.environ rawPath = path → rawPath ≠ [] → GetMessage msg rawPath start length →
      Readable r.host path → s.broken = false → (content s path).length + 2 ≤ r.fuel →
      ∃ n, getFileChunk msg config r s = (.done (), sending (piece (content s path) start length) n s) := by
  intro h
  obtain ⟨n, hn⟩ := h {} twoByteCtx threeBytes getThree _ _ 0 3 rfl (by decide) getThree_asks
    (twoByteHost_readable _) rfl (by decide)
  have hsent : (getFileChunk getThree {} twoByteCtx threeBytes).2.dataOut = [9, 8, 0] := by
    decide +kernel
  rw [hn] at hsent
  have hpiece : piece (content threeBytes (expandVariables twoByteCtx.environ "/tmp/data".toList)) 0 3 =
    [9, 8, 0] := hsent
  exact absurd hpiece (by decide)

end UnicoreTsi.Io
