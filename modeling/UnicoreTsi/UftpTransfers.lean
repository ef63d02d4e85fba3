/-
# UnicoreTsi.UftpTransfers — the transfer of a part of a file.

What a transfer in the mode `PARTIAL` does to its target, however it ends, is to write the beginning of the part it
was asked for in its place, and the whole part if it ends with exit code 0 (`main_fetches`, `main_stores`).  What is
relied on about the server is `HonoursRanges`.
-/
import UnicoreTsi.UftpClient

set_option autoImplicit false

namespace UnicoreTsi.UftpClient

open UnicoreTsi.Text UnicoreTsi.Effects UnicoreTsi.Utils UnicoreTsi.Shell UnicoreTsi.Uftp UnicoreTsi.Patch

/-! ## What is relied on about the server -/

/-- What a byte range, or a restart marker, leaves of a file. -/
def requested (range : Option (Int × Int)) (rest : Option Int) (d : List UInt8) : List UInt8 :=
  match range, rest with
  | some (offset, length), _ => (d.drop offset.toNat).take length.toNat
  | none, some offset => d.drop offset.toNat
  | none, none => d

/-- What storing data makes of a file: a byte range says where it goes and, unless it is negative, how much. -/
def stored (range : Option (Int × Int)) (old data : List UInt8) : List UInt8 :=
  match range with
  | some (offset, length) => patch 0 old offset.toNat (if length < 0 then data else data.take length.toNat)
  | none => data

section Server

variable {σ : Type}

/-- One file of two has had `data` written at place `pos`; the others are the same. -/
structure Patched (files files' : Str → Option (List UInt8)) (path : Str) (pos : Nat) (data : List UInt8) : Prop where
  file : (files' path).getD [] = patch 0 ((files path).getD []) pos data
  others : ∀ p, p ≠ path → files' p = files p

theorem Patched.rfl {files : Str → Option (List UInt8)} {path : Str} {pos : Nat} : Patched files files path pos [] where
  file := by rw [patch_nil]
  others := fun _ _ => Eq.refl _

/-- The server keeps the files `remote`, and `range` is the byte range that applies to the next transfer of the
session.  A transfer that breaks off has moved the beginning of what it would have moved. -/
structure HonoursRanges (ftp : Ftp σ) (remote : σ → Str → Option (List UInt8)) (range : σ → Option (Int × Int)) :
    Prop where
  connect_remote : ∀ host port s, remote (ftp.connect host port s).2 = remote s
  connect_range : ∀ host port s, range (ftp.connect host port s).2 = none
  login_remote : ∀ user passwd s, remote (ftp.login user passwd s).2 = remote s
  login_range : ∀ user passwd s, range (ftp.login user passwd s).2 = range s
  quit_remote : ∀ s, remote (ftp.quit s).2 = remote s
  rang_remote : ∀ offset length s, remote (ftp.sendcmd (rangCommand offset length) s).2 = remote s
  rang_accepted : ∀ offset length s reply, (ftp.sendcmd (rangCommand offset length) s).1 = .ok reply →
    "350".toList <+: reply → range (ftp.sendcmd (rangCommand offset length) s).2 = some (offset, length)
  retr_remote : ∀ path rest s, remote (ftp.retrbinary (retrCommand path) rest s).2 = remote s
  retr_blocks : ∀ path rest s d, remote s path = some d →
    (ftp.retrbinary (retrCommand path) rest s).1.1.flatten <+: requested (range s) rest d
  retr_complete : ∀ path rest s d reply, remote s path = some d →
    (ftp.retrbinary (retrCommand path) rest s).1.2 = .ok reply →
      (ftp.retrbinary (retrCommand path) rest s).1.1.flatten = requested (range s) rest d
  stor_others : ∀ path data s p, p ≠ path → remote (ftp.storbinary (storCommand path) data s).2 p = remote s p
  stor_stored : ∀ path data s, ∃ n,
    remote (ftp.storbinary (storCommand path) data s).2 path =
        some (stored (range s) ((remote s path).getD []) (data.take n)) ∨
      n = 0 ∧ remote (ftp.storbinary (storCommand path) data s).2 path = remote s path
  stor_complete : ∀ path data s reply, (ftp.storbinary (storCommand path) data s).1 = .ok reply →
    remote (ftp.storbinary (storCommand path) data s).2 path =
      some (stored (range s) ((remote s path).getD []) data)

end Server

/-! ## Steps that leave both sides alone -/

section Aside

variable {σ : Type} {remote : σ → Str → Option (List UInt8)}

/-- Neither a file nor what is on its way to one has changed. -/
structure Aside (remote : σ → Str → Option (List UInt8)) (s s' : ClientState σ) : Prop where
  server : remote s'.server = remote s.server
  files : s'.files = s.files
  pos : s'.pos = s.pos
  buffered : s'.buffered = s.buffered

instance : Std.Refl (Aside remote) := ⟨fun _ => ⟨rfl, rfl, rfl, rfl⟩⟩

instance : IsTrans (ClientState σ) (Aside remote) := ⟨fun _ _ _ h h' =>
  ⟨h'.server.trans h.server, h'.files.trans h.files, h'.pos.trans h.pos, h'.buffered.trans h.buffered⟩⟩

theorem printLine_aside (line : Str) : Within (Aside remote) (printLine line) :=
  within_modify fun _ => ⟨rfl, rfl, rfl, rfl⟩

theorem logReply_aside (reply : Str) : Within (Aside remote) (logReply reply) := printLine_aside _

theorem answer_aside {α : Type} (f : ClientCtx → Nat → α) : Within (Aside remote) (answer f : Client σ α) :=
  fun _ _ => ⟨rfl, rfl, rfl, rfl⟩

theorem fileCall_aside (c : SysCall) : Within (Aside remote) (fileCall c) := by
  unfold fileCall
  refine within_bind (answer_aside _) ?_
  rintro (_ | e)
  · exact within_pure ()
  · exact within_raise e

theorem within_onlyIf {R : ClientState σ → ClientState σ → Prop} [Std.Refl R] {condition : Prop} [Decidable condition]
    {x : Client σ Unit} (hx : Within R x) : Within R (onlyIf condition x) := by
  unfold onlyIf
  split
  · exact hx
  · exact within_pure ()

/-- A call of the session that does not touch the files of the server. -/
theorem session_aside {α : Type} {call : σ → α × σ} (h : ∀ s, remote (call s).2 = remote s) :
    Within (Aside remote) (session call) := fun _ _ => ⟨h _, rfl, rfl, rfl⟩

variable {ftp : Ftp σ} {range : σ → Option (Int × Int)}

theorem openSession_aside (hserver : HonoursRanges ftp remote range) (host : Str) (port : Int) (secret : Str) :
    Within (Aside remote) (openSession ftp host port secret) := by
  unfold openSession
  refine within_bind (session_aside (hserver.connect_remote host port)) fun welcome => ?_
  refine within_bind (within_ofExcept _) fun welcome => ?_
  refine within_bind (logReply_aside _) fun _ => ?_
  refine within_bind (session_aside (hserver.login_remote _ _)) fun reply => ?_
  exact within_bind (within_ofExcept _) fun _ => logReply_aside _

theorem setRange_aside (hserver : HonoursRanges ftp remote range) (offset length : Int) :
    Within (Aside remote) (setRange ftp offset length) := by
  have hsend : Within (Aside remote) (sendcmd ftp (rangCommand offset length)) :=
    within_bind (session_aside (hserver.rang_remote offset length)) fun _ => within_ofExcept _
  unfold setRange
  refine within_bind hsend fun reply => ?_
  exact within_bind (within_onlyIf (within_raise _)) fun _ => logReply_aside _

theorem quitQuietly_aside (hserver : HonoursRanges ftp remote range) : Within (Aside remote) (quitQuietly ftp) :=
  within_handle (within_bind (session_aside hserver.quit_remote) fun _ => within_ofExcept _) fun _ => within_pure ()

end Aside

/-! ## Bytes on their way to the disk -/

section Landing

variable {σ : Type} {remote : σ → Str → Option (List UInt8)} {s₀ : ClientState σ} {path : Str} {pos : Nat}

/-- Of the data written since `s₀`, a beginning has reached the disk and the rest is buffered. -/
def Landing (remote : σ → Str → Option (List UInt8)) (s₀ : ClientState σ) (path : Str) (pos : Nat)
    (data : List UInt8) (s : ClientState σ) : Prop :=
  ∃ landed, data = landed ++ s.buffered ∧ remote s.server = remote s₀.server ∧
    Patched s₀.files s.files path pos landed ∧ s.pos = pos + landed.length

theorem Landing.aside {data : List UInt8} {s s' : ClientState σ} (h : Landing remote s₀ path pos data s)
    (haside : Aside remote s s') : Landing remote s₀ path pos data s' := by
  obtain ⟨landed, hdata, hserver, hfiles, hpos⟩ := h
  refine ⟨landed, ?_, haside.server.trans hserver, ?_, haside.pos.trans hpos⟩
  · rw [hdata, haside.buffered]
  · rw [haside.files]
    exact hfiles

theorem Patched.trans {files files' files'' : Str → Option (List UInt8)} {data more : List UInt8}
    (h : Patched files files' path pos data) (h' : Patched files' files'' path (pos + data.length) more) :
    Patched files files'' path pos (data ++ more) where
  file := by rw [h'.file, h.file, patch_append]
  others := fun p hp => (h'.others p hp).trans (h.others p hp)

theorem toDisk_patched (path : Str) (n : Nat) (s : ClientState σ) :
    Patched s.files (toDisk path n s).files path s.pos (s.buffered.take n) where
  file := by
    show (Function.update s.files path _ path).getD [] = _
    rw [Function.update_self, Option.getD_some, content]
  others := fun _ hp => Function.update_of_ne hp _ _

theorem toDisk_landing {data : List UInt8} {s : ClientState σ} (h : Landing remote s₀ path pos data s) (n : Nat) :
    Landing remote s₀ path pos data (toDisk path n s) := by
  obtain ⟨landed, hdata, hserver, hfiles, hpos⟩ := h
  have hmore := toDisk_patched path n s
  rw [hpos] at hmore
  refine ⟨landed ++ s.buffered.take n, ?_, hserver, hfiles.trans hmore, ?_⟩
  · show data = _ ++ s.buffered.drop n
    rw [List.append_assoc, List.take_append_drop, hdata]
  · show s.pos + _ = _
    rw [hpos, List.length_append, Nat.add_assoc]

theorem writeBlock_state (block : List UInt8) (r : ClientCtx) (s : ClientState σ) :
    (writeBlock path block r s).2 =
      toDisk path (r.flush s.tick).1 { s with buffered := s.buffered ++ block, tick := s.tick + 1 } := by
  unfold writeBlock
  rw [bind_run_done (modify_run _), bind_run_done (answer_run _ _ _)]
  rcases r.flush s.tick with ⟨n, _ | e⟩ <;> rfl

theorem writeBlock_landing {data : List UInt8} {s : ClientState σ} (h : Landing remote s₀ path pos data s)
    (block : List UInt8) (r : ClientCtx) :
    Landing remote s₀ path pos (data ++ block) (writeBlock path block r s).2 := by
  obtain ⟨landed, hdata, hserver, hfiles, hpos⟩ := h
  have hmore : Landing remote s₀ path pos (data ++ block)
      { s with buffered := s.buffered ++ block, tick := s.tick + 1 } := by
    refine ⟨landed, ?_, hserver, hfiles, hpos⟩
    rw [hdata, List.append_assoc]
  rw [writeBlock_state]
  exact toDisk_landing hmore _

/-- What has been moved when a part of the transfer has ended: a beginning of it, and all if it ended well. -/
def Moved {α : Type} (whole : List UInt8) (P : List UInt8 → ClientState σ → Prop)
    (res : Outcome PyExc α × ClientState σ) : Prop :=
  ∃ data, data <+: whole ∧ P data res.2 ∧ ∀ a, res.1 = .done a → data = whole

theorem moved_stop {α : Type} {whole : List UInt8} {P : List UInt8 → ClientState σ → Prop} {o : Outcome PyExc α}
    {s : ClientState σ} (h : P [] s) (ho : ∀ a, o ≠ .done a) : Moved whole P (o, s) :=
  ⟨[], List.nil_prefix, h, fun a ha => absurd ha (ho a)⟩

theorem eachBlock_landing (blocks : List (List UInt8)) {data : List UInt8} {s : ClientState σ}
    (h : Landing remote s₀ path pos data s) (r : ClientCtx) :
    Moved blocks.flatten (fun more => Landing remote s₀ path pos (data ++ more))
      (eachBlock (writeBlock path) blocks r s) := by
  induction blocks generalizing data s with
  | nil =>
      refine ⟨[], List.nil_prefix, ?_, fun _ _ => rfl⟩
      show Landing remote s₀ path pos (data ++ []) s
      rw [List.append_nil]
      exact h
  | cons block rest ih =>
      have hblock := writeBlock_landing h block r
      rw [eachBlock]
      apply bind_cases
      · intro o ho
        refine ⟨block, ?_, hblock, fun a ha => absurd ha (ho a)⟩
        rw [List.flatten_cons]
        exact List.prefix_append _ _
      · intro _ t hrun
        rw [hrun] at hblock
        obtain ⟨more, hmore, hland, hall⟩ := ih hblock
        refine ⟨block ++ more, ?_, ?_, ?_⟩
        · rw [List.flatten_cons, List.prefix_append_right_inj]
          exact hmore
        · show Landing remote s₀ path pos (data ++ (block ++ more)) _
          rw [← List.append_assoc]
          exact hland
        · intro a ha
          rw [hall a ha, List.flatten_cons]

/-- Steps that touch neither side do not change what has been moved. -/
theorem Moved.then_aside {α β : Type} (remote : σ → Str → Option (List UInt8)) {whole : List UInt8}
    {P : List UInt8 → ClientState σ → Prop} {x : Client σ α} {f : α → Client σ β} {r : ClientCtx} {s : ClientState σ} (hx : Moved whole P (x r s))
    (hP : ∀ data t t', P data t → Aside remote t t' → P data t') (hf : ∀ a, Within (Aside remote) (f a)) :
    Moved whole P ((x >>= f) r s) := by
  obtain ⟨data, hdata, hmoved, hall⟩ := hx
  apply bind_cases
  · intro o ho
    exact ⟨data, hdata, hmoved, fun b hb => absurd hb (ho b)⟩
  · intro a t hrun
    rw [hrun] at hmoved hall
    exact ⟨data, hdata, hP _ _ _ hmoved (hf a r t), fun _ _ => hall a rfl⟩

variable {ftp : Ftp σ} {range : σ → Option (Int × Int)}

theorem retrbinary_moved (hserver : HonoursRanges ftp remote range) {file : Str} {d : List UInt8}
    (hd : remote s₀.server file = some d) {s : ClientState σ} (h : Landing remote s₀ path pos [] s)
    (rest : Option Int) (r : ClientCtx) :
    Moved (requested (range s.server) rest d) (Landing remote s₀ path pos)
      (retrbinary ftp (retrCommand file) (writeBlock path) rest r s) := by
  have hfile : remote s.server file = some d := by
    obtain ⟨_, -, hsame, -⟩ := h
    rw [hsame]
    exact hd
  have hblocks := hserver.retr_blocks file rest s.server d hfile
  have hcomplete := hserver.retr_complete file rest s.server d
  have haside := session_aside (hserver.retr_remote file rest) r s
  rw [session_run] at haside
  unfold retrbinary
  rw [bind_run_done (session_run _ r s)]
  revert hblocks hcomplete haside
  rcases ftp.retrbinary (retrCommand file) rest s.server with ⟨⟨blocks, reply⟩, server⟩
  intro hblocks hcomplete haside
  obtain ⟨data, hdata, hland, hall⟩ := eachBlock_landing blocks (h.aside haside) r
  apply bind_cases
  · intro o ho
    exact ⟨data, hdata.trans hblocks, hland, fun a ha => absurd ha (ho a)⟩
  · intro _ t hrun
    rw [hrun] at hland hall
    refine ⟨data, hdata.trans hblocks, ?_, ?_⟩
    · cases reply with
      | ok _ => exact hland
      | error _ => exact hland
    · intro a ha
      cases reply with
      | ok text => exact (hall _ rfl).trans (hcomplete text hfile rfl)
      | error e => cases ha

end Landing

/-! ## Opening, preparing, closing -/

section Files

variable {σ : Type} {remote : σ → Str → Option (List UInt8)}

/-- Nothing has been written, and nothing is on its way. -/
structure Unwritten (remote : σ → Str → Option (List UInt8)) (s s' : ClientState σ) : Prop where
  server : remote s'.server = remote s.server
  files : s'.files = s.files
  buffered : s'.buffered = s.buffered

instance : Std.Refl (Unwritten remote) := ⟨fun _ => ⟨rfl, rfl, rfl⟩⟩

instance : IsTrans (ClientState σ) (Unwritten remote) := ⟨fun _ _ _ h h' =>
  ⟨h'.server.trans h.server, h'.files.trans h.files, h'.buffered.trans h.buffered⟩⟩

theorem Aside.unwritten {s s' : ClientState σ} (h : Aside remote s s') : Unwritten remote s s' :=
  ⟨h.server, h.files, h.buffered⟩

theorem seek_unwritten (path : Str) (offset : Int) : Within (Unwritten remote) (seek path offset) := by
  unfold seek
  refine within_bind (within_mono (fun _ _ => Aside.unwritten) (fileCall_aside _)) fun _ => ?_
  exact within_bind (within_onlyIf (within_raise _)) fun _ => within_modify fun _ => ⟨rfl, rfl, rfl⟩

theorem onlyIf_eq_done {condition : Prop} [Decidable condition] {x : Client σ Unit} {r : ClientCtx} {s t : ClientState σ} :
    onlyIf condition x r s = (.done (), t) ↔ condition ∧ x r s = (.done (), t) ∨ ¬ condition ∧ t = s := by
  unfold onlyIf
  split
  · simp [*]
  · simp [*, eq_comm]

theorem onlyIf_raise_eq_done {condition : Prop} [Decidable condition] {e : PyExc} {r : ClientCtx}
    {s t : ClientState σ} : onlyIf condition (raise e) r s = (.done (), t) ↔ ¬ condition ∧ t = s := by
  rw [onlyIf_eq_done]
  simp

theorem fileCall_done {c : SysCall} {r : ClientCtx} {s t : ClientState σ} (h : fileCall c r s = (.done (), t)) :
    t = { s with tick := s.tick + 1 } := by
  unfold fileCall at h
  rw [bind_run_done (answer_run _ _ _)] at h
  rcases hcall : r.fileCall s.tick c with _ | e
  · rw [hcall] at h
    exact (congrArg Prod.snd h).symm
  · rw [hcall] at h
    cases h

theorem seek_done {path : Str} {offset : Int} {r : ClientCtx} {s t : ClientState σ}
    (h : seek path offset r s = (.done (), t)) : t.pos = offset.toNat ∧ t.server = s.server := by
  unfold seek at h
  obtain ⟨_, s₁, hcall, h₁⟩ := bind_eq_done.mp h
  obtain ⟨_, s₂, hcheck, h₂⟩ := bind_eq_done.mp h₁
  obtain ⟨-, rfl⟩ := onlyIf_raise_eq_done.mp hcheck
  obtain rfl := fileCall_done hcall
  obtain rfl := congrArg Prod.snd h₂
  exact ⟨rfl, rfl⟩

theorem prepareFetch_unwritten {ftp : Ftp σ} {range : σ → Option (Int × Int)} (hserver : HonoursRanges ftp remote range)
    (c : ClientParameters) (partially : Bool) : Within (Unwritten remote) (prepareFetch ftp c partially) := by
  unfold prepareFetch
  refine within_onlyIf (within_bind (within_onlyIf (seek_unwritten _ _)) fun _ => within_onlyIf ?_)
  exact within_mono (fun _ _ => Aside.unwritten) (setRange_aside hserver _ _)

theorem setRange_done {ftp : Ftp σ} {range : σ → Option (Int × Int)} (hserver : HonoursRanges ftp remote range)
    {offset length : Int} {r : ClientCtx} {s t : ClientState σ} (h : setRange ftp offset length r s = (.done (), t)) :
    range t.server = some (offset, length) := by
  unfold setRange sendcmd at h
  obtain ⟨reply, s₁, hsend, h₁⟩ := bind_eq_done.mp h
  obtain ⟨_, s₂, hcheck, h₂⟩ := bind_eq_done.mp h₁
  obtain ⟨haccepted, rfl⟩ := onlyIf_raise_eq_done.mp hcheck
  rw [bind_run_done (session_run _ _ _)] at hsend
  obtain ⟨hreply, rfl⟩ := ofExcept_eq_done.mp hsend
  obtain rfl := congrArg Prod.snd h₂
  exact hserver.rang_accepted _ _ _ _ hreply (not_not.mp haccepted)

/-- The part of a file that is asked for. -/
def wanted (c : ClientParameters) (d : List UInt8) : List UInt8 :=
  if c.length > -1 then (d.drop c.offset.toNat).take c.length.toNat else d.drop c.offset.toNat

/-- After the preparations the data that comes belongs at the current position, and it is the part asked for. -/
theorem prepareFetch_done {ftp : Ftp σ} {range : σ → Option (Int × Int)} (hserver : HonoursRanges ftp remote range)
    {c : ClientParameters} {r : ClientCtx} {s t : ClientState σ} (hoffset : 0 ≤ c.offset) (hpos : s.pos = 0)
    (hrange : range s.server = none) (h : prepareFetch ftp c true r s = (.done (), t)) (d : List UInt8) :
    t.pos = c.offset.toNat ∧
      requested (range t.server) (if c.length > -1 then none else some c.offset) d = wanted c d := by
  unfold prepareFetch at h
  rcases onlyIf_eq_done.mp h with ⟨-, hinner⟩ | ⟨hwhole, rfl⟩
  · obtain ⟨_, s₁, hseek, hset⟩ := bind_eq_done.mp hinner
    rcases onlyIf_eq_done.mp hseek with ⟨-, hseek⟩ | ⟨hno, -⟩
    · obtain ⟨hplace, hsession⟩ := seek_done hseek
      rcases onlyIf_eq_done.mp hset with ⟨hlength, hset⟩ | ⟨hlength, rfl⟩
      · have hsame := (setRange_aside hserver c.offset c.length r s₁).pos
        rw [hset] at hsame
        refine ⟨hsame.trans hplace, ?_⟩
        rw [setRange_done hserver hset, if_pos hlength, wanted, if_pos hlength]
        rfl
      · refine ⟨hplace, ?_⟩
        rw [hsession, hrange, wanted, if_neg hlength, if_neg hlength]
        rfl
    · exact absurd rfl hno
  · -- neither an offset nor a length: the whole file
    have hzero : c.offset = 0 := by omega
    have hlength : ¬ c.length > -1 := by omega
    refine ⟨by rw [hpos, hzero]; rfl, ?_⟩
    rw [hrange, wanted, if_neg hlength, if_neg hlength]
    rfl

variable {s₀ : ClientState σ} {path : Str} {pos : Nat}

/-- What a transfer that has been closed has written. -/
def Written (remote : σ → Str → Option (List UInt8)) (s₀ : ClientState σ) (path : Str) (pos : Nat)
    (data : List UInt8) (s : ClientState σ) : Prop :=
  remote s.server = remote s₀.server ∧ Patched s₀.files s.files path pos data

/-- Data on its way to the disk; where it would go matters only if there is any. -/
def Held (remote : σ → Str → Option (List UInt8)) (s₀ : ClientState σ) (path : Str) (pos : Nat)
    (data : List UInt8) (s : ClientState σ) : Prop :=
  ∃ place, (data ≠ [] → place = pos) ∧ Landing remote s₀ path place data s

theorem Patched.of_nil {files files' : Str → Option (List UInt8)} {place : Nat}
    (h : Patched files files' path place []) : Patched files files' path pos [] where
  file := by rw [h.file, patch_nil, patch_nil]
  others := h.others

/-- Nothing is held at the start of a transfer. -/
theorem Written.held {s : ClientState σ} (h : Written remote s₀ path pos [] s) (hbuffered : s.buffered = []) :
    Landing remote s₀ path s.pos [] s :=
  ⟨[], by rw [hbuffered]; rfl, h.1, h.2.of_nil, rfl⟩

theorem Unwritten.written {s s' : ClientState σ} (h : Unwritten remote s s') (hs : Written remote s₀ path pos [] s) :
    Written remote s₀ path pos [] s' := by
  refine ⟨h.server.trans hs.1, ?_⟩
  rw [h.files]
  exact hs.2

variable {ftp : Ftp σ} {range : σ → Option (Int × Int)} {d : List UInt8}

theorem fetch_moved (hserver : HonoursRanges ftp remote range) {c : ClientParameters} (hoffset : 0 ≤ c.offset)
    (hd : remote s₀.server c.remotePath = some d) {s : ClientState σ}
    (hs : Written remote s₀ c.localPath c.offset.toNat [] s) (hpos : s.pos = 0) (hbuffered : s.buffered = [])
    (hrange : range s.server = none) (r : ClientCtx) :
    Moved (wanted c d) (Held remote s₀ c.localPath c.offset.toNat) (fetch ftp c true r s) := by
  have hprepare := prepareFetch_unwritten hserver c true r s
  have hstart : Landing remote s₀ c.localPath (prepareFetch ftp c true r s).2.pos [] (prepareFetch ftp c true r s).2 :=
    (hprepare.written hs).held (hprepare.buffered.trans hbuffered)
  unfold fetch
  apply bind_cases
  · intro o ho
    exact moved_stop ⟨_, fun h => absurd rfl h, hstart⟩ ho
  · intro _ t hrun
    rw [hrun] at hstart
    obtain ⟨hplace, hpart⟩ := prepareFetch_done hserver hoffset hpos hrange hrun d
    rw [hplace] at hstart
    have hmoved := retrbinary_moved hserver hd hstart (if c.length > -1 then none else some c.offset) r
    rw [hpart] at hmoved
    refine Moved.then_aside remote ?_ ?_ fun reply =>
      within_bind (logReply_aside reply) fun _ => quitQuietly_aside hserver
    · obtain ⟨data, hdata, hland, hall⟩ := hmoved
      exact ⟨data, hdata, ⟨_, fun _ => rfl, hland⟩, hall⟩
    · rintro data t t' ⟨place, hplace, hland⟩ haside
      exact ⟨place, hplace, hland.aside haside⟩

/-- What is on disk of data that is on its way there. -/
theorem Held.landed {data : List UInt8} {s : ClientState σ} (h : Held remote s₀ path pos data s) :
    ∃ landed, data = landed ++ s.buffered ∧ Written remote s₀ path pos landed s := by
  obtain ⟨place, hplace, landed, hdata, hsame, hfiles, -⟩ := h
  refine ⟨landed, hdata, hsame, ?_⟩
  rcases eq_or_ne landed [] with rfl | hne
  · exact hfiles.of_nil
  · have hdata' : data ≠ [] := by
      rintro rfl
      exact hne (List.append_eq_nil_iff.mp hdata.symm).1
    rw [hplace hdata'] at hfiles
    exact hfiles

theorem closeFile_moved {data : List UInt8} {s : ClientState σ} (h : Held remote s₀ path pos data s) (r : ClientCtx) :
    Moved data (Written remote s₀ path pos) (closeFile path r s) := by
  have hdisk : ∀ n, Held remote s₀ path pos data (toDisk path n { s with tick := s.tick + 1 }) := by
    obtain ⟨place, hplace, hland⟩ := h
    intro n
    exact ⟨place, hplace, toDisk_landing (hland.aside ⟨rfl, rfl, rfl, rfl⟩) n⟩
  unfold closeFile
  rw [bind_run_done (answer_run _ _ _)]
  rcases r.flush s.tick with ⟨n, _ | e⟩
  · obtain ⟨landed, hdata, hfile⟩ := (hdisk s.buffered.length).landed
    have hall : data = landed ++ s.buffered.drop s.buffered.length := hdata
    rw [List.drop_length, List.append_nil] at hall
    subst hall
    exact ⟨data, List.prefix_refl _, hfile, fun _ _ => rfl⟩
  · obtain ⟨landed, hdata, hfile⟩ := (hdisk n).landed
    exact ⟨landed, ⟨_, hdata.symm⟩, hfile, fun a ha => by cases ha⟩

/-- The files of both sides are as they were. -/
structure Untouched (remote : σ → Str → Option (List UInt8)) (s s' : ClientState σ) : Prop where
  server : remote s'.server = remote s.server
  files : s'.files = s.files

instance : Std.Refl (Untouched remote) := ⟨fun _ => ⟨rfl, rfl⟩⟩

instance : IsTrans (ClientState σ) (Untouched remote) := ⟨fun _ _ _ h h' =>
  ⟨h'.server.trans h.server, h'.files.trans h.files⟩⟩

theorem Aside.untouched {s s' : ClientState σ} (h : Aside remote s s') : Untouched remote s s' := ⟨h.server, h.files⟩

theorem Untouched.written {s s' : ClientState σ} (h : Untouched remote s s') (hs : Written remote s₀ path pos [] s) :
    Written remote s₀ path pos [] s' := by
  refine ⟨h.server.trans hs.1, ?_⟩
  rw [h.files]
  exact hs.2

/-- Opening a file for reading, or for writing into it, changes nothing. -/
theorem openFile_untouched (path : Str) {mode : Str} (hmode : mode ≠ "wb".toList) :
    Within (Untouched remote) (openFile path mode : Client σ Unit) := by
  have hwrite : Within (Untouched remote) (onlyIf (mode = "wb".toList) (modify (setContent path [])) : Client σ Unit) := by
    rw [onlyIf, if_neg hmode]
    exact within_pure ()
  unfold openFile
  refine within_bind (within_mono (fun _ _ => Aside.untouched) (fileCall_aside _)) fun _ => ?_
  refine within_bind within_get fun _ => within_bind hwrite fun _ => ?_
  exact within_bind (within_onlyIf (within_raise _)) fun _ => within_modify fun _ => ⟨rfl, rfl⟩

theorem openFile_done {mode : Str} {r : ClientCtx} {s t : ClientState σ} (hmode : mode ≠ "wb".toList)
    (h : openFile path mode r s = (.done (), t)) :
    t.pos = 0 ∧ t.buffered = [] ∧ t.server = s.server ∧ (t.files path).isSome := by
  unfold openFile at h
  obtain ⟨_, s₁, hcall, h₁⟩ := bind_eq_done.mp h
  obtain rfl := fileCall_done hcall
  rw [bind_run_done get_run] at h₁
  obtain ⟨_, s₂, hwrite, h₂⟩ := bind_eq_done.mp h₁
  obtain ⟨_, s₃, hcheck, h₃⟩ := bind_eq_done.mp h₂
  rcases onlyIf_eq_done.mp hwrite with ⟨hwb, -⟩ | ⟨-, rfl⟩
  · exact absurd hwb hmode
  · obtain ⟨hthere, rfl⟩ := onlyIf_raise_eq_done.mp hcheck
    obtain rfl := congrArg Prod.snd h₃
    refine ⟨rfl, rfl, rfl, ?_⟩
    have hsome : s.files path ≠ none := fun hnone => hthere ⟨hmode, hnone⟩
    exact Option.isSome_iff_ne_none.mpr hsome

/-- Whatever comes before a `raise`, the sequence does not return. -/
theorem then_raise {α : Type} (x : Client σ Unit) (e : PyExc) (r : ClientCtx) (s : ClientState σ) :
    ∃ o : Outcome PyExc α, (∀ a, o ≠ .done a) ∧ (x >>= fun _ => raise e) r s = (o, (x r s).2) := by
  rw [bind_run]
  rcases x r s with ⟨a | e' | _, t⟩
  · exact ⟨.raised e, by simp, rfl⟩
  · exact ⟨.raised e', by simp, rfl⟩
  · exact ⟨.hung, by simp, rfl⟩

/-- What the body of a `with` statement has moved, once the file is closed: `P` says what holds while it is open,
`Q` what holds without it. -/
theorem withFile_moved {α : Type} {mode : Str} {body : Client σ α} {whole : List UInt8} {r : ClientCtx}
    {s : ClientState σ} {P Q : List UInt8 → ClientState σ → Prop} (hopen : Q [] (openFile path mode r s).2)
    (hbody : ∀ t, openFile path mode r s = (.done (), t) → Moved whole P (body r t))
    (hclose : ∀ data t, P data t → Moved data Q (closeFile path r t))
    (hheld : ∀ data t, P data t → ∃ landed, landed <+: data ∧ Q landed t) :
    Moved whole Q (withFile path mode body r s) := by
  unfold withFile
  apply bind_cases
  · intro o ho
    exact moved_stop hopen ho
  · intro _ t hrunopen
    obtain ⟨data, hdata, hopened, hall⟩ := hbody t hrunopen
    rcases hrun : body r t with ⟨a | e | _, t'⟩
    · rw [hrun] at hopened hall
      rw [bind_run_done (handle_run_done hrun)]
      obtain ⟨written, hwritten, hfile, hfull⟩ := hclose data t' hopened
      apply bind_cases
      · intro o ho
        exact ⟨written, hwritten.trans hdata, hfile, fun a ha => absurd ha (ho a)⟩
      · intro _ t'' hclosed
        rw [hclosed] at hfile hfull
        refine ⟨written, hwritten.trans hdata, hfile, fun _ _ => ?_⟩
        rw [hfull _ rfl, hall a rfl]
    · -- the file is closed, and then the exception goes on
      rw [hrun] at hopened
      obtain ⟨written, hwritten, hfile, -⟩ := hclose data t' hopened
      obtain ⟨o, ho, hraise⟩ := then_raise (closeFile path) e r t'
      have hhandled := (handle_run_raised (h := fun e => closeFile path >>= fun _ => raise e) hrun).trans hraise
      apply bind_cases
      · intro o' ho'
        rw [hhandled]
        exact ⟨written, hwritten.trans hdata, hfile, fun a ha => absurd ha (ho' a)⟩
      · intro a t'' hdone
        rw [hhandled] at hdone
        exact absurd (congrArg Prod.fst hdone) (ho a)
    · rw [hrun] at hopened
      obtain ⟨landed, hlanded, hfile⟩ := hheld data t' hopened
      apply bind_cases
      · intro o ho
        rw [handle, hrun]
        exact ⟨landed, hlanded.trans hdata, hfile, fun a ha => absurd ha (ho a)⟩
      · intro a t'' hdone
        rw [handle, hrun] at hdone
        cases hdone

theorem openSession_done (hserver : HonoursRanges ftp remote range) {host secret : Str} {port : Int} {r : ClientCtx}
    {s t : ClientState σ} (h : openSession ftp host port secret r s = (.done (), t)) : range t.server = none := by
  unfold openSession at h
  rw [bind_run_done (session_run _ _ _)] at h
  obtain ⟨welcome, s₁, hwelcome, h₁⟩ := bind_eq_done.mp h
  obtain ⟨-, rfl⟩ := ofExcept_eq_done.mp hwelcome
  obtain ⟨_, s₂, hlog, h₂⟩ := bind_eq_done.mp h₁
  obtain rfl := congrArg Prod.snd hlog
  rw [bind_run_done (session_run _ _ _)] at h₂
  obtain ⟨reply, s₃, hreply, h₃⟩ := bind_eq_done.mp h₂
  obtain ⟨-, rfl⟩ := ofExcept_eq_done.mp hreply
  obtain rfl := congrArg Prod.snd h₃
  show range (ftp.login _ _ (ftp.connect host port s.server).2).2 = none
  rw [hserver.login_range, hserver.connect_range]

theorem Patched.refl_content (files : Str → Option (List UInt8)) :
    Patched files (Function.update files path (some ((files path).getD []))) path pos [] where
  file := by rw [Function.update_self, patch_nil, Option.getD_some]
  others := fun _ hp => Function.update_of_ne hp _ _

theorem touch_written (r : ClientCtx) {s : ClientState σ} (hs : Written remote s₀ path pos [] s) :
    Written remote s₀ path pos [] (touch path r s).2 := by
  have hcall : Aside remote s (fileCall (.open path "a".toList) r s).2 := fileCall_aside _ r s
  unfold touch
  apply bind_post
  · exact hcall.untouched.written hs
  · intro _ t hrun
    rw [hrun] at hcall
    have ht := hcall.untouched.written hs
    refine ⟨ht.1, ?_⟩
    have hcreated := ht.2.trans (Patched.refl_content t.files)
    exact hcreated

theorem touch_done {r : ClientCtx} {s t : ClientState σ} (h : touch path r s = (.done (), t)) : t.server = s.server := by
  unfold touch at h
  obtain ⟨_, s₁, hcall, h₁⟩ := bind_eq_done.mp h
  obtain rfl := fileCall_done hcall
  obtain rfl := congrArg Prod.snd h₁
  rfl

/-- Steps before the transfer. -/
theorem moved_after {α β : Type} {whole : List UInt8} {Q : List UInt8 → ClientState σ → Prop} {x : Client σ α}
    {f : α → Client σ β} {r : ClientCtx} {s : ClientState σ} (hQ : ∀ t t', Untouched remote t t' → Q [] t → Q [] t')
    (hx : Within (Untouched remote) x) (hs : Q [] s)
    (hf : ∀ a t, x r s = (.done a, t) → Q [] t → Moved whole Q (f a r t)) : Moved whole Q ((x >>= f) r s) := by
  have hquiet := hQ _ _ (hx r s) hs
  apply bind_cases
  · intro o ho
    exact moved_stop hquiet ho
  · intro a t hrun
    rw [hrun] at hquiet
    exact hf a t hrun hquiet

theorem getFile_moved (hserver : HonoursRanges ftp remote range) {c : ClientParameters} (hoffset : 0 ≤ c.offset)
    (hd : remote s₀.server c.remotePath = some d) {s : ClientState σ}
    (hs : Written remote s₀ c.localPath c.offset.toNat [] s) (hrange : range s.server = none) (r : ClientCtx) :
    Moved (wanted c d) (Written remote s₀ c.localPath c.offset.toNat) (getFile ftp c true r s) := by
  have hmode : (if true = true then "r+b".toList else "wb".toList) ≠ "wb".toList := by decide
  unfold getFile
  apply moved_after (fun _ _ => Untouched.written) (within_mono (fun _ _ => Aside.untouched) (printLine_aside _)) hs
  intro _ s₁ hprint hs₁
  have htouch : Written remote s₀ c.localPath c.offset.toNat [] (onlyIf (true = true) (touch c.localPath) r s₁).2 :=
    touch_written r hs₁
  apply bind_cases
  · intro o ho
    exact moved_stop htouch ho
  · intro _ s₂ hrun
    rw [hrun] at htouch
    have hopened := (openFile_untouched c.localPath hmode r s₂).written htouch
    refine withFile_moved hopened (fun t hopen => ?_) (fun _ _ hheld => closeFile_moved hheld r) ?_
    case refine_2 =>
      intro data t hheld
      obtain ⟨landed, hlanded, hfile⟩ := hheld.landed
      exact ⟨landed, ⟨_, hlanded.symm⟩, hfile⟩
    obtain ⟨hpos, hbuffered, hsession, -⟩ := openFile_done hmode hopen
    rw [hopen] at hopened
    refine fetch_moved hserver hoffset hd hopened hpos hbuffered ?_ r
    have htouched : s₂.server = s₁.server := touch_done hrun
    have hprinted : s₁.server = s.server := by
      obtain rfl := congrArg Prod.snd hprint
      rfl
    rw [hsession, htouched, hprinted]
    exact hrange

/-- **One download of a part of a file.** -/
theorem main_fetches (hserver : HonoursRanges ftp remote range) {vars : Vars} {c : ClientParameters}
    (hc : mainParameters vars = .ok c) (hget : c.operation = "GET".toList) (hmode : c.writeMode = "PARTIAL".toList)
    (hoffset : 0 ≤ c.offset) (hd : remote s₀.server c.remotePath = some d) (r : ClientCtx) :
    Moved (wanted c d) (Written remote s₀ c.localPath c.offset.toNat) (main ftp vars r s₀) := by
  have hpartial : decide ("PARTIAL".toList = c.writeMode) = true := decide_eq_true hmode.symm
  unfold main
  rw [hc, ofExcept_ok, pure_bind, hpartial, if_pos hget.symm]
  apply moved_after (fun _ _ => Untouched.written) (within_mono (fun _ _ => Aside.untouched) (printLine_aside _))
    ⟨rfl, Patched.rfl⟩
  intro _ s₁ _ hs₁
  apply moved_after (fun _ _ => Untouched.written)
    (within_mono (fun _ _ => Aside.untouched) (openSession_aside hserver _ _ _)) hs₁
  intro _ s₂ hopen hs₂
  refine Moved.then_aside remote (getFile_moved hserver hoffset hd hs₂ (openSession_done hserver hopen) r) ?_
    fun _ => within_pure 0
  intro data t t' ht haside
  refine ⟨haside.server.trans ht.1, ?_⟩
  rw [haside.files]
  exact ht.2

end Files

/-! ## Uploads -/

section Uploads

variable {σ : Type} {remote : σ → Str → Option (List UInt8)} {ftp : Ftp σ} {range : σ → Option (Int × Int)}
variable {s₀ : ClientState σ} {c : ClientParameters}

/-- What an upload has written on the server; the local files have what they had. -/
structure Sent (remote : σ → Str → Option (List UInt8)) (s₀ : ClientState σ) (c : ClientParameters)
    (data : List UInt8) (s : ClientState σ) : Prop where
  server : Patched (remote s₀.server) (remote s.server) c.remotePath c.offset.toNat data
  here : Patched s₀.files s.files c.localPath 0 []

/-- The same while the file is open: nothing is buffered for it. -/
def Sending (remote : σ → Str → Option (List UInt8)) (s₀ : ClientState σ) (c : ClientParameters)
    (data : List UInt8) (s : ClientState σ) : Prop :=
  Sent remote s₀ c data s ∧ s.buffered = []

theorem Sent.untouched {data : List UInt8} {s s' : ClientState σ} (hs : Sent remote s₀ c data s)
    (h : Untouched remote s s') : Sent remote s₀ c data s' := by
  obtain ⟨hserver, hlocal⟩ := hs
  refine ⟨?_, ?_⟩
  · rw [h.server]
    exact hserver
  · rw [h.files]
    exact hlocal

theorem Sending.unwritten {data : List UInt8} {s s' : ClientState σ} (hs : Sending remote s₀ c data s)
    (h : Unwritten remote s s') : Sending remote s₀ c data s' :=
  ⟨hs.1.untouched ⟨h.server, h.files⟩, h.buffered.trans hs.2⟩

/-- Closing the file that was read changes nothing. -/
theorem closeFile_sent {data : List UInt8} {s : ClientState σ} (hs : Sending remote s₀ c data s) (r : ClientCtx) :
    Sent remote s₀ c data (closeFile c.localPath r s).2 := by
  obtain ⟨⟨hserver, hlocal⟩, hbuffered⟩ := hs
  have hdisk : ∀ n, Sent remote s₀ c data (toDisk c.localPath n { s with tick := s.tick + 1 }) := by
    intro n
    have hnothing := toDisk_patched c.localPath n { s with tick := s.tick + 1 }
    have hempty : s.buffered.take n = [] := by rw [hbuffered, List.take_nil]
    refine ⟨hserver, hlocal.trans ?_⟩
    have hsame : Patched s.files _ c.localPath s.pos (s.buffered.take n) := hnothing
    rw [hempty] at hsame
    exact hsame.of_nil
  unfold closeFile
  rw [bind_run_done (answer_run _ _ _)]
  rcases r.flush s.tick with ⟨n, _ | e⟩
  · exact hdisk s.buffered.length
  · exact hdisk n

theorem prepareStore_unwritten (hserver : HonoursRanges ftp remote range) (c : ClientParameters) (partially : Bool) :
    Within (Unwritten remote) (prepareStore ftp c partially) := by
  unfold prepareStore
  refine within_onlyIf (within_bind (seek_unwritten _ _) fun _ => ?_)
  exact within_mono (fun _ _ => Aside.unwritten) (setRange_aside hserver _ _)

theorem prepareStore_done (hserver : HonoursRanges ftp remote range) (hpart : c.offset > 0 ∨ c.length > -1)
    {r : ClientCtx} {s t : ClientState σ} (h : prepareStore ftp c true r s = (.done (), t)) :
    t.pos = c.offset.toNat ∧ range t.server = some (c.offset, c.length) := by
  unfold prepareStore at h
  rcases onlyIf_eq_done.mp h with ⟨-, hinner⟩ | ⟨hno, -⟩
  · obtain ⟨_, s₁, hseek, hset⟩ := bind_eq_done.mp hinner
    obtain ⟨hplace, -⟩ := seek_done hseek
    have hsame := (setRange_aside hserver c.offset c.length r s₁).pos
    have hset' : setRange ftp c.offset c.length r s₁ = (.done (), t) := hset
    rw [hset'] at hsame
    exact ⟨hsame.trans hplace, setRange_done hserver hset'⟩
  · exact absurd hpart hno

/-- What a server that has been told the range stores of the beginning of what the file has from there on. -/
theorem stored_wanted (c : ClientParameters) (old d : List UInt8) (n : Nat) :
    ∃ data, data <+: wanted c d ∧
      stored (some (c.offset, c.length)) old ((d.drop c.offset.toNat).take n) = patch 0 old c.offset.toNat data ∧
      ((d.drop c.offset.toNat).length ≤ n → data = wanted c d) := by
  have hstored : stored (some (c.offset, c.length)) old ((d.drop c.offset.toNat).take n) = patch 0 old c.offset.toNat
      (if c.length < 0 then (d.drop c.offset.toNat).take n
        else ((d.drop c.offset.toNat).take n).take c.length.toNat) := rfl
  rw [hstored, wanted]
  by_cases hlength : c.length > -1
  · have hnonneg : ¬ c.length < 0 := by omega
    rw [if_pos hlength, if_neg hnonneg]
    refine ⟨_, (List.take_prefix n _).take _, rfl, ?_⟩
    intro hn
    rw [List.take_of_length_le hn]
  · have hneg : c.length < 0 := by omega
    rw [if_neg hlength, if_pos hneg]
    exact ⟨_, List.take_prefix n _, rfl, fun hn => List.take_of_length_le hn⟩

/-- What a call of the server to store the first `n` bytes has moved. -/
theorem storbinary_sent (hserver : HonoursRanges ftp remote range) {s : ClientState σ} (hs : Sending remote s₀ c [] s)
    (hrange : range s.server = some (c.offset, c.length)) (d : List UInt8) (n : Nat) :
    ∃ data, data <+: wanted c d ∧
      Sending remote s₀ c data { s with
        server := (ftp.storbinary (storCommand c.remotePath) ((d.drop c.offset.toNat).take n) s.server).2 } ∧
      ∀ reply, (ftp.storbinary (storCommand c.remotePath) ((d.drop c.offset.toNat).take n) s.server).1 = .ok reply →
        (d.drop c.offset.toNat).length ≤ n → data = wanted c d := by
  obtain ⟨⟨hbefore, hlocal⟩, hbuffered⟩ := hs
  have hothers := hserver.stor_others c.remotePath ((d.drop c.offset.toNat).take n) s.server
  have hcomplete := hserver.stor_complete c.remotePath ((d.drop c.offset.toNat).take n) s.server
  obtain ⟨k, hstored⟩ := hserver.stor_stored c.remotePath ((d.drop c.offset.toNat).take n) s.server
  -- nothing had been sent before
  have hold : ((remote s.server c.remotePath).getD []) = ((remote s₀.server c.remotePath).getD []) := by
    rw [hbefore.file, patch_nil]
  rw [hrange, hold] at hcomplete hstored
  have hsent : ∀ data, ((remote (ftp.storbinary (storCommand c.remotePath) ((d.drop c.offset.toNat).take n) s.server).2
      c.remotePath).getD [] = patch 0 ((remote s₀.server c.remotePath).getD []) c.offset.toNat data) →
        Sending remote s₀ c data { s with
          server := (ftp.storbinary (storCommand c.remotePath) ((d.drop c.offset.toNat).take n) s.server).2 } := by
    intro data hfile
    exact ⟨⟨⟨hfile, fun p hp => (hothers p hp).trans (hbefore.others p hp)⟩, hlocal⟩, hbuffered⟩
  rcases hreply : (ftp.storbinary (storCommand c.remotePath) ((d.drop c.offset.toNat).take n) s.server).1 with e | text
  · rcases hstored with hstored | ⟨-, hsame⟩
    · obtain ⟨data, hdata, hpatch, -⟩ := stored_wanted c
        ((remote s₀.server c.remotePath).getD []) d (min k n)
      rw [List.take_take, hpatch] at hstored
      refine ⟨data, hdata, hsent data (by rw [hstored, Option.getD_some]), ?_⟩
      simp
    · refine ⟨[], List.nil_prefix, hsent [] ?_, by simp⟩
      rw [hsame, hold, patch_nil]
  · obtain ⟨data, hdata, hpatch, hall⟩ := stored_wanted c
      ((remote s₀.server c.remotePath).getD []) d n
    have hdone := hcomplete text hreply
    rw [hpatch] at hdone
    exact ⟨data, hdata, hsent data (by rw [hdone, Option.getD_some]), fun _ _ => hall⟩

theorem store_moved (hserver : HonoursRanges ftp remote range) (hpart : c.offset > 0 ∨ c.length > -1)
    {s : ClientState σ} (hs : Sending remote s₀ c [] s) (r : ClientCtx) :
    Moved (wanted c (content s₀ c.localPath)) (Sending remote s₀ c) (store ftp c true r s) := by
  have hprepare := hs.unwritten (prepareStore_unwritten hserver c true r s)
  unfold store
  apply bind_cases
  · intro o ho
    exact moved_stop hprepare ho
  · intro _ t hrun
    rw [hrun] at hprepare
    obtain ⟨hplace, hrange⟩ := prepareStore_done hserver hpart hrun
    have hdata : content t c.localPath = content s₀ c.localPath := by
      rw [content, hprepare.1.here.file, patch_nil, content]
    refine Moved.then_aside remote ?_ (fun data t t' ht haside => ht.unwritten haside.unwritten) fun reply =>
      within_bind (logReply_aside reply) fun _ => quitQuietly_aside hserver
    -- the data is what the file has from the position on
    unfold storbinary
    rw [bind_run_done get_run, hplace, hdata, bind_run_done (answer_run _ _ _)]
    have htick : Sending remote s₀ c [] { t with tick := t.tick + 1 } := hprepare.unwritten ⟨rfl, rfl, rfl⟩
    rcases r.readError t.tick with _ | ⟨n, e⟩
    · obtain ⟨data, hsent, hstate, hall⟩ := storbinary_sent hserver htick hrange (content s₀ c.localPath)
        ((content s₀ c.localPath).drop c.offset.toNat).length
      rw [List.take_length] at hstate hall
      show Moved _ _ ((session (ftp.storbinary _ _) >>= fun reply => ofExcept reply) r _)
      rw [bind_run_done (session_run _ _ _)]
      refine ⟨data, hsent, ?_, ?_⟩
      · rcases (ftp.storbinary (storCommand c.remotePath) ((content s₀ c.localPath).drop c.offset.toNat) t.server).1
          with e | text <;> exact hstate
      · intro text htext
        obtain ⟨hreply, -⟩ := ofExcept_eq_done.mp (Prod.ext htext rfl)
        exact hall text hreply le_rfl
    · obtain ⟨data, hsent, hstate, -⟩ := storbinary_sent hserver htick hrange (content s₀ c.localPath) n
      exact ⟨data, hsent, hstate, fun a ha => by cases ha⟩

/-- **One upload of a part of a file.** -/
theorem main_stores (hserver : HonoursRanges ftp remote range) {vars : Vars} (hc : mainParameters vars = .ok c)
    (hput : c.operation ≠ "GET".toList) (hmode : c.writeMode = "PARTIAL".toList)
    (hpart : c.offset > 0 ∨ c.length > -1) (r : ClientCtx) :
    Moved (wanted c (content s₀ c.localPath)) (Sent remote s₀ c) (main ftp vars r s₀) := by
  have hpartial : decide ("PARTIAL".toList = c.writeMode) = true := decide_eq_true hmode.symm
  have hkept : ∀ t t', Untouched remote t t' → Sent remote s₀ c [] t → Sent remote s₀ c [] t' :=
    fun _ _ h hs => hs.untouched h
  unfold main
  rw [hc, ofExcept_ok, pure_bind, hpartial, if_neg (Ne.symm hput)]
  apply moved_after hkept (within_mono (fun _ _ => Aside.untouched) (printLine_aside _)) ⟨Patched.rfl, Patched.rfl⟩
  intro _ s₁ _ hs₁
  apply moved_after hkept (within_mono (fun _ _ => Aside.untouched) (openSession_aside hserver _ _ _)) hs₁
  intro _ s₂ _ hs₂
  refine Moved.then_aside remote ?_ (fun data t t' ht haside => ht.untouched haside.untouched) fun _ => within_pure 0
  unfold putFile
  apply moved_after hkept (within_mono (fun _ _ => Aside.untouched) (printLine_aside _)) hs₂
  intro _ s₃ _ hs₃
  have hread : "rb".toList ≠ "wb".toList := by decide
  have hopened := hs₃.untouched (openFile_untouched c.localPath hread r s₃)
  refine withFile_moved hopened (fun t hopen => ?_)
    (fun data t hsending => ⟨data, List.prefix_refl _, closeFile_sent hsending r, fun _ _ => rfl⟩)
    fun data t hsending => ⟨data, List.prefix_refl _, hsending.1⟩
  rw [hopen] at hopened
  exact store_moved hserver hpart ⟨hopened, (openFile_done hread hopen).2.1⟩ r

end Uploads

end UnicoreTsi.UftpClient
