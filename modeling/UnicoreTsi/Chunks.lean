/-
# UnicoreTsi.Chunks — the copy loops of the file chunk functions.

One lemma for each loop of `put_file_chunk` and `get_file_chunk`: what it has moved when it ends.  The raw
writes of a block may be partial, and a read of the data channel may hand out less than is there, so the
loops are described by the host's answers from the tick at which they start: `rawWrites` follows the writes
of one block, and `Drains` says when the copy loop takes everything it was announced off the data channel.
-/
import UnicoreTsi.Io
import UnicoreTsi.Parameters

set_option autoImplicit false

namespace UnicoreTsi.Io

open UnicoreTsi.Text UnicoreTsi.Effects UnicoreTsi.Utils UnicoreTsi.Connector

/-- The bytes of a file; one that does not exist has none. -/
def content (s : HandlerState) (path : Str) : List UInt8 := (s.files path).getD []

theorem content_append (s : HandlerState) (path : Str) (data : List UInt8) (n : Nat) :
    content { s with
      tick := n
      files := fun p => if p = path then some ((s.files path).getD [] ++ data) else s.files p } path =
      content s path ++ data := by
  simp [content]

/-- Only answers of the host have been taken and files written. -/
def Stores (s s' : HandlerState) : Prop := ∃ n files, s' = { s with tick := n, files := files }

instance : Std.Refl Stores := ⟨fun s => ⟨s.tick, s.files, rfl⟩⟩

instance : IsTrans HandlerState Stores := ⟨by
  rintro _ _ _ ⟨_, _, rfl⟩ ⟨n, files, rfl⟩
  exact ⟨n, files, rfl⟩⟩

/-! ## Open files -/

/-- A file that does not open. -/
theorem withFile_closed {α : Type} {path mode : Str} {body : Handler α} {r : HandlerCtx}
    {s : HandlerState} {e : PyExc} (hopen : r.host.sysCall s.tick (.open path mode) = some e) :
    withFile path mode body r s = (.raised e, { s with tick := s.tick + 1 }) := by
  unfold withFile
  rw [bind_run, sysCall_run, hopen]

/-- How a `with` statement ends after its body has ended. -/
def afterBody {α : Type} (host : Host) (path : Str) :
    Outcome PyExc α × HandlerState → Outcome PyExc α × HandlerState
  | (.done a, s) =>
      match host.sysCall s.tick (.close path) with
      | none => (.done a, { s with tick := s.tick + 1 })
      | some e => (.raised e, { s with tick := s.tick + 1 })
  | (.raised e, s) =>
      match host.sysCall s.tick (.close path) with
      | none => (.raised e, { s with tick := s.tick + 1 })
      | some e' => (.raised e', { s with tick := s.tick + 1 })
  | (.hung, s) => (.hung, s)

/-- A file that opens is closed however the body ends. -/
theorem withFile_opened {α : Type} {path mode : Str} {body : Handler α} {r : HandlerCtx}
    {s : HandlerState} (hopen : r.host.sysCall s.tick (.open path mode) = none) :
    withFile path mode body r s = afterBody r.host path (body r { s with tick := s.tick + 1 }) := by
  unfold withFile
  rw [bind_run, sysCall_run, hopen]
  show (handle body _ >>= fun a => sysCall (.close path) >>= fun _ => pure a) r
    { s with tick := s.tick + 1 } = _
  rw [bind_run, handle]
  rcases body r { s with tick := s.tick + 1 } with ⟨a | e | _, s'⟩
  · show (sysCall (.close path) >>= fun _ => pure a) r s' = _
    rw [bind_run, sysCall_run, afterBody]
    cases r.host.sysCall s'.tick (.close path) <;> rfl
  · dsimp only
    rw [bind_run, sysCall_run, afterBody]
    cases r.host.sysCall s'.tick (.close path) <;> rfl
  · rfl

theorem afterBody_ticks {α : Type} (host : Host) (path : Str) (o : Outcome PyExc α × HandlerState) :
    Ticks o.2 (afterBody host path o).2 := by
  rcases o with ⟨a | e | _, s⟩
  · dsimp only [afterBody]
    split <;> exact ⟨s.tick + 1, rfl⟩
  · dsimp only [afterBody]
    split <;> exact ⟨s.tick + 1, rfl⟩
  · exact refl_of Ticks s

theorem afterBody_hung {α : Type} {host : Host} {path : Str} {o : Outcome PyExc α × HandlerState}
    (h : o.1 = .hung) : (afterBody host path o).1 = .hung := by
  rcases o with ⟨a | e | _, s⟩
  · cases h
  · cases h
  · rfl

/-! ## Writing one block -/

/-- The tick at which a block of `left` bytes has been written from tick `t` on; none when one of its raw
writes fails. -/
def rawWrites (host : Host) : Nat → Nat → Nat → Option Nat
  | 0, t, _ => some t
  | fuel + 1, t, left =>
      if left = 0 then some t
      else
        match host.fileWrite t with
        | .error _ => none
        | .ok wanted => rawWrites host fuel (t + 1) (left - max 1 (min wanted left))

/-- How `writeBlock` ends. -/
def BlockWritten (path : Str) (host : Host) (fuel : Nat) (block : List UInt8) (s : HandlerState) :
    Outcome PyExc Unit × HandlerState → Prop
  | (.done (), s') => Stores s s' ∧ rawWrites host fuel s.tick block.length = some s'.tick ∧
      content s' path = content s path ++ block
  | (.raised _, s') => Stores s s' ∧ rawWrites host fuel s.tick block.length = none
  | (.hung, _) => fuel ≤ block.length

theorem writeBlock_written (path : Str) (fuel : Nat) (block : List UInt8) (r : HandlerCtx)
    (s : HandlerState) : BlockWritten path r.host fuel block s (writeBlock path fuel block r s) := by
  induction fuel generalizing block s with
  | zero => exact Nat.zero_le _
  | succ fuel ih =>
      unfold writeBlock
      by_cases hblock : block = []
      · rw [if_pos hblock, hblock]
        refine ⟨refl_of Stores s, ?_, ?_⟩
        · simp [rawWrites]
        · simp
      · have hlength : block.length ≠ 0 := by simpa using hblock
        rw [if_neg hblock, bind_run, attempt_run]
        cases hwrite : r.host.fileWrite s.tick with
        | error e =>
            refine ⟨⟨s.tick + 1, s.files, rfl⟩, ?_⟩
            simp [rawWrites, hlength, hwrite]
        | ok wanted =>
            -- the first part is in the file, the rest is the induction hypothesis
            let n := max 1 (min wanted block.length)
            have hstep : rawWrites r.host (fuel + 1) s.tick block.length =
                rawWrites r.host fuel (s.tick + 1) (block.drop n).length := by
              simp [rawWrites, hlength, hwrite, n]
            let s₁ : HandlerState := { s with
              tick := s.tick + 1
              files := fun p =>
                if p = path then some ((s.files path).getD [] ++ block.take n) else s.files p }
            have hstored : Stores s s₁ := ⟨_, _, rfl⟩
            have hrest := ih (block.drop n) s₁
            show BlockWritten path r.host (fuel + 1) block s (writeBlock path fuel (block.drop n) r s₁)
            revert hrest
            rcases writeBlock path fuel (block.drop n) r s₁ with ⟨⟨⟩ | e | _, s'⟩
            · rintro ⟨hstores, hwrites, hcontent⟩
              refine ⟨trans_of Stores hstored hstores, hstep.trans hwrites, ?_⟩
              rw [hcontent, content_append, List.append_assoc, List.take_append_drop]
            · rintro ⟨hstores, hwrites⟩
              exact ⟨trans_of Stores hstored hstores, hstep.trans hwrites⟩
            · intro hfuel
              have hfuel' : fuel ≤ (block.drop n).length := hfuel
              have hn : 1 ≤ n := Nat.le_max_left _ _
              show fuel + 1 ≤ block.length
              rw [List.length_drop] at hfuel'
              omega

/-- A block gets written when no raw write fails. -/
theorem rawWrites_isSome {host : Host} (hwrite : ∀ t, ∃ n, host.fileWrite t = .ok n) (fuel t left : Nat) :
    (rawWrites host fuel t left).isSome := by
  induction fuel generalizing t left with
  | zero => rfl
  | succ fuel ih =>
      obtain ⟨n, hn⟩ := hwrite t
      rw [rawWrites, hn]
      split
      · rfl
      · exact ih _ _

/-! ## The copy loop -/

/-- The state in which the loop writes a block that it has read. -/
def afterRead (limit : Nat) (s : HandlerState) : HandlerState :=
  { s with tick := s.tick + 1, dataIn := s.dataIn.drop limit }

/-- One iteration of the copy loop that reads a block with this limit. -/
inductive CopyRound (path : Str) (blockFuel fuel : Nat) (remaining : Int) (r : HandlerCtx) (s : HandlerState)
    (limit : Nat) : Outcome PyExc Unit × HandlerState → Prop where
  /-- The block is in the file, and the loop goes on. -/
  | stored {s' : HandlerState} (hstores : Stores (afterRead limit s) s')
      (hwrites : rawWrites r.host blockFuel (s.tick + 1) (s.dataIn.take limit).length = some s'.tick)
      (hcontent : content s' path = content s path ++ s.dataIn.take limit) :
      CopyRound path blockFuel fuel remaining r s limit
        (copyBlocks path blockFuel fuel (remaining - (s.dataIn.take limit).length) r s')
  /-- One of the raw writes fails. -/
  | failed {e : PyExc} {s' : HandlerState} (hstores : Stores (afterRead limit s) s')
      (hwrites : rawWrites r.host blockFuel (s.tick + 1) (s.dataIn.take limit).length = none) :
      CopyRound path blockFuel fuel remaining r s limit (.raised e, s')
  | stuck {s' : HandlerState} (hfuel : blockFuel ≤ (s.dataIn.take limit).length) :
      CopyRound path blockFuel fuel remaining r s limit (.hung, s')

theorem copyBlocks_round (path : Str) (blockFuel fuel : Nat) {remaining : Int} (hpos : remaining > 0)
    (r : HandlerCtx) (s : HandlerState) :
    CopyRound path blockFuel fuel remaining r s (readLimit r.host s.tick remaining.toNat)
      (copyBlocks path blockFuel (fuel + 1) remaining r s) := by
  rw [copyBlocks, if_pos hpos, bind_run_done (readData_run _ _ _)]
  generalize readLimit r.host s.tick remaining.toNat = limit
  have hblock := writeBlock_written path blockFuel (s.dataIn.take limit) r (afterRead limit s)
  show CopyRound path blockFuel fuel remaining r s limit
    ((writeBlock path blockFuel (s.dataIn.take limit) >>= fun _ =>
      copyBlocks path blockFuel fuel (remaining - (s.dataIn.take limit).length)) r (afterRead limit s))
  rw [bind_run]
  revert hblock
  rcases writeBlock path blockFuel (s.dataIn.take limit) r (afterRead limit s) with ⟨⟨⟩ | e | _, s'⟩
  · rintro ⟨hstores, hwrites, hcontent⟩
    exact .stored hstores hwrites hcontent
  · rintro ⟨hstores, hwrites⟩
    exact .failed hstores hwrites
  · exact .stuck

theorem copyBlocks_end (path : Str) (blockFuel fuel : Nat) {remaining : Int} (hend : ¬ remaining > 0)
    (r : HandlerCtx) (s : HandlerState) :
    copyBlocks path blockFuel (fuel + 1) remaining r s = (.done (), s) := by
  rw [copyBlocks, if_neg hend]
  rfl

/-- The copy loop, announced `remaining` bytes and started at tick `t`, takes them all off the data channel: a
raw write fails, if at all, after the last of them has been read. -/
def Drains (host : Host) (blockFuel : Nat) : Nat → Nat → Nat → Prop
  | 0, _, _ => True
  | fuel + 1, t, remaining =>
      readLimit host t remaining = remaining ∨
        ∃ t', rawWrites host blockFuel (t + 1) (readLimit host t remaining) = some t' ∧
          Drains host blockFuel fuel t' (remaining - readLimit host t remaining)

/-- After a block that has been written. -/
theorem drains_written {host : Host} {blockFuel t t' remaining : Nat} (fuel : Nat)
    (hwrites : rawWrites host blockFuel (t + 1) (readLimit host t remaining) = some t') :
    Drains host blockFuel (fuel + 1) t remaining ↔
      Drains host blockFuel fuel t' (remaining - readLimit host t remaining) := by
  rw [Drains, hwrites]
  constructor
  · rintro (hall | ⟨t'', ht'', hdrains⟩)
    · -- nothing is left to be read
      rw [hall, Nat.sub_self]
      cases fuel with
      | zero => trivial
      | succ fuel => exact Or.inl (Nat.le_zero.mp (readLimit_le _ _ 0))
    · obtain rfl := Option.some.inj ht''
      exact hdrains
  · exact fun hdrains => Or.inr ⟨t', rfl, hdrains⟩

/-- A block that is not written has to be the last one. -/
theorem drains_failed {host : Host} {blockFuel t remaining : Nat} (fuel : Nat)
    (hwrites : rawWrites host blockFuel (t + 1) (readLimit host t remaining) = none) :
    Drains host blockFuel (fuel + 1) t remaining ↔ readLimit host t remaining = remaining := by
  rw [Drains, hwrites]
  constructor
  · rintro (hall | ⟨t', ht', -⟩)
    · exact hall
    · cases ht'
  · exact Or.inl

/-- Only answers of the host have been taken, files written and the data channel read. -/
def Copies (s s' : HandlerState) : Prop :=
  ∃ n files dataIn, s' = { s with tick := n, files := files, dataIn := dataIn }

instance : Std.Refl Copies := ⟨fun s => ⟨s.tick, s.files, s.dataIn, rfl⟩⟩

instance : IsTrans HandlerState Copies := ⟨by
  rintro _ _ _ ⟨_, _, _, rfl⟩ ⟨n, files, dataIn, rfl⟩
  exact ⟨n, files, dataIn, rfl⟩⟩

theorem Stores.copies {s s' : HandlerState} (h : Stores s s') : Copies s s' := by
  obtain ⟨n, files, rfl⟩ := h
  exact ⟨n, files, s.dataIn, rfl⟩

theorem Stores.dataIn {s s' : HandlerState} (h : Stores s s') : s'.dataIn = s.dataIn := by
  obtain ⟨n, files, rfl⟩ := h
  rfl

/-- How `copyBlocks` ends when as many bytes are there as it was announced. -/
def BlocksCopied (path : Str) (host : Host) (blockFuel fuel remaining : Nat) (s : HandlerState) :
    Outcome PyExc Unit × HandlerState → Prop
  | (.done (), s') => Copies s s' ∧ s'.dataIn = [] ∧ Drains host blockFuel fuel s.tick remaining ∧
      content s' path = content s path ++ s.dataIn
  | (.raised _, s') => Copies s s' ∧ (s'.dataIn = [] ↔ Drains host blockFuel fuel s.tick remaining) ∧
      ¬ ∀ t, ∃ n, host.fileWrite t = .ok n
  | (.hung, _) => fuel ≤ remaining ∨ blockFuel ≤ remaining

theorem afterRead_copies (limit : Nat) (s : HandlerState) : Copies s (afterRead limit s) := ⟨_, s.files, _, rfl⟩

/-- What the loop does after its first block is what the whole loop does. -/
theorem BlocksCopied.after_block {path : Str} {host : Host} {blockFuel fuel remaining : Nat} {s s' : HandlerState}
    (hpos : 0 < remaining) (hstores : Stores (afterRead (readLimit host s.tick remaining) s) s')
    (hwrites : rawWrites host blockFuel (s.tick + 1) (readLimit host s.tick remaining) = some s'.tick)
    (hcontent : content s' path = content s path ++ s.dataIn.take (readLimit host s.tick remaining))
    {result : Outcome PyExc Unit × HandlerState}
    (hrest : BlocksCopied path host blockFuel fuel (remaining - readLimit host s.tick remaining) s' result) :
    BlocksCopied path host blockFuel (fuel + 1) remaining s result := by
  have hdrains := drains_written fuel hwrites
  have hlimit := readLimit_pos host s.tick hpos
  have hle := readLimit_le host s.tick remaining
  generalize readLimit host s.tick remaining = n at *
  have hcopied := trans_of Copies (afterRead_copies n s) hstores.copies
  have hleft : s'.dataIn = s.dataIn.drop n := hstores.dataIn
  rcases result with ⟨⟨⟩ | e | _, s''⟩
  · obtain ⟨hcopies, hempty, hfinal, hbytes⟩ := hrest
    refine ⟨trans_of Copies hcopied hcopies, hempty, hdrains.mpr hfinal, ?_⟩
    rw [hbytes, hcontent, hleft, List.append_assoc, List.take_append_drop]
  · obtain ⟨hcopies, hempty, hfails⟩ := hrest
    exact ⟨trans_of Copies hcopied hcopies, hempty.trans hdrains.symm, hfails⟩
  · have hfuel : fuel ≤ remaining - n ∨ blockFuel ≤ remaining - n := hrest
    show fuel + 1 ≤ remaining ∨ blockFuel ≤ remaining
    omega

/-- The bytes of a block that is not written are read, and those after it stay on the channel. -/
theorem BlocksCopied.of_failed {path : Str} {host : Host} {blockFuel fuel remaining : Nat} {s s' : HandlerState}
    (hthere : s.dataIn.length = remaining)
    (hstores : Stores (afterRead (readLimit host s.tick remaining) s) s')
    (hwrites : rawWrites host blockFuel (s.tick + 1) (readLimit host s.tick remaining) = none) (e : PyExc) :
    BlocksCopied path host blockFuel (fuel + 1) remaining s (.raised e, s') := by
  refine ⟨trans_of Copies (afterRead_copies _ s) hstores.copies, ?_, ?_⟩
  · have hle := readLimit_le host s.tick remaining
    have hrest : s'.dataIn.length = remaining - readLimit host s.tick remaining := by
      rw [hstores.dataIn, afterRead, List.length_drop, hthere]
    rw [drains_failed fuel hwrites, ← List.length_eq_zero_iff, hrest]
    omega
  · intro hall
    have hsome := rawWrites_isSome hall blockFuel (s.tick + 1) (readLimit host s.tick remaining)
    rw [hwrites] at hsome
    cases hsome

theorem copyBlocks_copied (path : Str) (blockFuel fuel : Nat) (remaining : Int) (r : HandlerCtx)
    (s : HandlerState) (hthere : s.dataIn.length = remaining.toNat) :
    BlocksCopied path r.host blockFuel fuel remaining.toNat s
      (copyBlocks path blockFuel fuel remaining r s) := by
  induction fuel generalizing remaining s with
  | zero => exact Or.inl (Nat.zero_le _)
  | succ fuel ih =>
      by_cases hpos : remaining > 0
      · have hround := copyBlocks_round path blockFuel fuel hpos r s
        have hle := readLimit_le r.host s.tick remaining.toNat
        have hlength : (s.dataIn.take (readLimit r.host s.tick remaining.toNat)).length =
            readLimit r.host s.tick remaining.toNat := by
          rw [List.length_take, hthere]
          omega
        generalize copyBlocks path blockFuel (fuel + 1) remaining r s = result at hround ⊢
        cases hround with
        | @stored s' hstores hwrites hcontent =>
            have hleft : (remaining - (readLimit r.host s.tick remaining.toNat : Nat)).toNat =
                remaining.toNat - readLimit r.host s.tick remaining.toNat := by omega
            rw [hlength] at hwrites ⊢
            have hthere' : s'.dataIn.length = remaining.toNat - readLimit r.host s.tick remaining.toNat := by
              rw [hstores.dataIn, afterRead, List.length_drop, hthere]
            have hrest := ih (remaining - (readLimit r.host s.tick remaining.toNat : Nat)) s' (hthere'.trans hleft.symm)
            rw [hleft] at hrest
            exact BlocksCopied.after_block (by omega) hstores hwrites hcontent hrest
        | failed hstores hwrites =>
            rw [hlength] at hwrites
            exact BlocksCopied.of_failed hthere hstores hwrites _
        | stuck hfuel =>
            rw [hlength] at hfuel
            exact Or.inr (hfuel.trans hle)
      · have hzero : remaining.toNat = 0 := by omega
        rw [copyBlocks_end path blockFuel fuel hpos, hzero]
        rw [hzero] at hthere
        have hempty : s.dataIn = [] := List.length_eq_zero_iff.mp hthere
        refine ⟨refl_of Copies s, hempty, Or.inl (Nat.le_zero.mp (readLimit_le _ _ 0)), ?_⟩
        rw [hempty, List.append_nil]

/-! ## An upload -/

/-- How the path is opened for an upload with the given `TSI_FILESACTION`. -/
def openModeOf (action : Option Str) : Str :=
  if action.getD "1".toList = "3".toList then "ab".toList else "wb".toList

/-- Acknowledge an upload and copy it into the open file. -/
def receive (path openMode : Str) (fuel : Nat) (length : Int) : Handler Unit := do
  openForWriting path openMode
  ok (some "ENDOFMESSAGE".toList)
  copyBlocks path fuel fuel length

/-- The mode change after an upload; an `OSError` is ignored. -/
def setMode (path mode : Str) : Handler Unit :=
  handle
    (do
      let bits ← ofExcept (pyInt 8 mode)
      sysCall (.chmod path bits))
    fun e => if e.isOSError then pure () else raise e

theorem setMode_ticks (path mode : Str) : Within Ticks (setMode path mode) := by
  refine within_handle (within_bind (within_ofExcept _) fun _ => sysCall_ticks _) fun e => ?_
  split
  · exact within_pure _
  · exact within_raise _

/-- A mode has no blank in it, so that the path may. -/
theorem splitLastSpace_append {path mode : Str} (hmode : ' ' ∉ mode) :
    splitLastSpace (some (path ++ ' ' :: mode)) = .ok (path, mode) := by
  have hreverse : (path ++ ' ' :: mode).reverse = mode.reverse ++ ' ' :: path.reverse := by simp
  have hmode' : ' ' ∉ mode.reverse := by simpa using hmode
  simp only [splitLastSpace, hreverse, splitOnce_append hmode', List.reverse_reverse]

/-- Without a `$` there is no variable to expand. -/
theorem replace_of_head_not_mem {c : Char} {pat new s : Str} (hs : c ∉ s) :
    replace (c :: pat) new s = s := by
  unfold replace
  induction s with
  | nil => rfl
  | cons d s ih =>
      have hd : c ≠ d := fun h => hs (by simp [h])
      have hprefix : (c :: pat).isPrefixOf (d :: s) = false := by simp [List.isPrefixOf, hd]
      rw [replaceFrom, hprefix, ih fun h => hs (List.mem_cons_of_mem d h)]
      rfl

theorem expandVariables_of_not_mem (environ : Environ) {path : Str} (hpath : '$' ∉ path) :
    expandVariables environ path = path := by
  have hhome : "$HOME".toList = '$' :: "HOME".toList := by decide
  have hlogname : "$LOGNAME".toList = '$' :: "LOGNAME".toList := by decide
  have huser : "$USER".toList = '$' :: "USER".toList := by decide
  simp only [expandVariables, hhome, hlogname, huser, replace_of_head_not_mem hpath]

/-- An upload request that can be read. -/
theorem putFileChunk_run {msg : Str} {config : Settings} {r : HandlerCtx} {s : HandlerState}
    {rawPath mode : Str} {length : Int}
    (hfile : splitLastSpace (extractParameter msg "FILE".toList) = .ok (rawPath, mode))
    (hlength : pyIntOpt (extractParameter msg "LENGTH".toList) = .ok length) :
    putFileChunk msg config r s =
      (withFile (expandVariables r.environ rawPath)
          (openModeOf (extractParameter msg "FILESACTION".toList))
          (receive (expandVariables r.environ rawPath)
            (openModeOf (extractParameter msg "FILESACTION".toList)) r.fuel length) >>= fun _ =>
        setMode (expandVariables r.environ rawPath) mode) r s := by
  unfold putFileChunk
  rw [bind_run_done ask_run, hfile]
  show (ofExcept (pyIntOpt (extractParameter msg "LENGTH".toList)) >>= fun _ => _) r s = _
  rw [hlength]
  rfl

/-- The state after the file has been opened for an upload. -/
def opened (path openMode : Str) (s : HandlerState) : HandlerState :=
  { s with
    files := fun p =>
      if p = path then some (if openMode = "ab".toList then (s.files path).getD [] else [])
      else s.files p }

theorem openForWriting_run (path openMode : Str) (r : HandlerCtx) (s : HandlerState) :
    openForWriting path openMode r s = (.done (), opened path openMode s) := rfl

/-- The state in which the copy loop starts. -/
def receiving (path openMode : Str) (s : HandlerState) : HandlerState :=
  { opened path openMode s with
    tick := s.tick + 1
    calls := s.calls ++ [.ok (some "ENDOFMESSAGE".toList)]
    dataIn := s.dataIn ++ s.upload
    upload := [] }

theorem content_receiving (path openMode : Str) (s : HandlerState) :
    content (receiving path openMode s) path = if openMode = "ab".toList then content s path else [] := by
  simp [content, receiving, opened]

theorem receive_run (path openMode : Str) (fuel : Nat) (length : Int) (r : HandlerCtx)
    (s : HandlerState) (hbroken : s.broken = false) (hgone : r.host.channelGone s.tick = false) :
    receive path openMode fuel length r s =
      copyBlocks path fuel fuel length r (receiving path openMode s) := by
  have hsend : ok (some "ENDOFMESSAGE".toList) r (opened path openMode s) =
      (.done (), receiving path openMode s) := by
    show send _ r (opened path openMode s) = _
    have hchannel : ((opened path openMode s).broken || r.host.channelGone (opened path openMode s).tick) =
        false := by
      show (s.broken || r.host.channelGone s.tick) = false
      rw [hbroken, hgone]
      rfl
    rw [send_run, hchannel]
    rfl
  unfold receive
  rw [bind_run_done (openForWriting_run path openMode r s), bind_run_done hsend]

theorem receive_run_broken (path openMode : Str) (fuel : Nat) (length : Int) (r : HandlerCtx)
    (s : HandlerState) (hchannel : ¬(s.broken = false ∧ r.host.channelGone s.tick = false)) :
    receive path openMode fuel length r s = (.raised brokenPipe, { opened path openMode s with
      tick := s.tick + 1
      calls := s.calls ++ [.ok (some "ENDOFMESSAGE".toList)]
      broken := true }) := by
  have hgone : (s.broken || r.host.channelGone s.tick) = true := by
    cases hb : s.broken
    · cases hg : r.host.channelGone s.tick
      · exact absurd ⟨hb, hg⟩ hchannel
      · rfl
    · rfl
  have hsend : ok (some "ENDOFMESSAGE".toList) r (opened path openMode s) =
      (.raised brokenPipe, { opened path openMode s with
        tick := s.tick + 1
        calls := s.calls ++ [.ok (some "ENDOFMESSAGE".toList)]
        broken := true }) := by
    show send _ r (opened path openMode s) = _
    rw [send_run]
    exact if_pos hgone
  unfold receive
  rw [bind_run_done (openForWriting_run path openMode r s), bind_run_raised hsend]

/-- Without a control channel nothing is read. -/
theorem receive_broken (path openMode : Str) (fuel : Nat) (length : Int) (r : HandlerCtx)
    (s : HandlerState) (hchannel : ¬(s.broken = false ∧ r.host.channelGone s.tick = false)) :
    (receive path openMode fuel length r s).2.dataIn = s.dataIn := by
  rw [receive_run_broken path openMode fuel length r s hchannel]
  rfl

end UnicoreTsi.Io
