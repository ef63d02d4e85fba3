/-
# UnicoreTsi.UftpParts — transfers of parts of a file put the file together.

Transfers in the mode `PARTIAL` may come in any order, overlap, fail half way and be repeated.  The target is complete
as soon as the parts of the transfers that succeeded cover the file: `downloads_assemble` for a local target,
`uploads_assemble` for one on the server.
-/
import UnicoreTsi.UftpTransfers

set_option autoImplicit false

namespace UnicoreTsi.UftpClient

open UnicoreTsi.Text UnicoreTsi.Effects UnicoreTsi.Utils UnicoreTsi.Shell UnicoreTsi.Uftp UnicoreTsi.Patch

/-! ## A server that honours ranges -/

/-- The files of the server and the byte range of the session. -/
structure PlainServer where
  files : Str → Option (List UInt8)
  range : Option (Int × Int)

def permanentError : PyExc := { kind := .exception, text := "550 Failed".toList }

/-- The two numbers of a `RANG` command. -/
def parseRang (cmd : Str) : Option (Int × Int) :=
  match splitOnce ' ' (cmd.drop 5) with
  | none => none
  | some (offset, length) =>
      match pyInt 10 offset, pyInt 10 length with
      | .ok o, .ok l => some (o, l)
      | _, _ => none

theorem parseRang_rangCommand (offset length : Int) : parseRang (rangCommand offset length) = some (offset, length) := by
  have htext : (rangCommand offset length).drop 5 = intText offset ++ ' ' :: intText length := by
    unfold rangCommand
    rw [List.append_assoc, List.append_assoc]
    rfl
  have hsplit : splitOnce ' ' (intText offset ++ ' ' :: intText length) = some (intText offset, intText length) :=
    splitOnce_append (not_mem_intText (by decide) offset) _
  simp only [parseRang, htext, hsplit, pyInt_intText]

def plainFtp : Ftp PlainServer where
  connect _ _ s := (.ok "220 Ready".toList, { s with range := none })
  login _ _ s := (.ok "230 Logged in".toList, s)
  sendcmd cmd s :=
    match parseRang cmd with
    | some range => (.ok "350 Range set".toList, { s with range := some range })
    | none => (.error permanentError, s)
  retrbinary cmd rest s :=
    match s.files (cmd.drop 5) with
    | some d => (([requested s.range rest d], .ok "226 Done".toList), s)
    | none => (([], .error permanentError), s)
  storbinary cmd data s :=
    (.ok "226 Done".toList, { s with
      files := Function.update s.files (cmd.drop 5) (some (stored s.range ((s.files (cmd.drop 5)).getD []) data)) })
  quit s := (.ok (), s)

theorem plainFtp_honoursRanges : HonoursRanges plainFtp PlainServer.files PlainServer.range where
  connect_remote _ _ _ := rfl
  connect_range _ _ _ := rfl
  login_remote _ _ _ := rfl
  login_range _ _ _ := rfl
  quit_remote _ := rfl
  rang_remote offset length s := by simp [plainFtp, parseRang_rangCommand]
  rang_accepted offset length s reply := by simp [plainFtp, parseRang_rangCommand]
  retr_remote path rest s := by
    unfold plainFtp
    dsimp only
    split <;> rfl
  retr_blocks path rest s d hd := by
    have hfile : s.files ((retrCommand path).drop 5) = some d := hd
    simp [plainFtp, hfile]
  retr_complete path rest s d reply hd _ := by
    have hfile : s.files ((retrCommand path).drop 5) = some d := hd
    simp [plainFtp, hfile]
  stor_others path data s p hp := Function.update_of_ne hp _ _
  stor_stored path data s := by
    refine ⟨data.length, Or.inl ?_⟩
    rw [List.take_length]
    exact Function.update_self _ _ _
  stor_complete path data s reply _ := Function.update_self _ _ _

/-- Nothing fails, and what is written stays in the buffer until the file is closed. -/
def calmClient : ClientCtx where
  fileCall _ _ := none
  flush _ := (0, none)
  readError _ := none

def partEnv (operation offset length : String) : Vars := fun name =>
  [("UFTP_HOST".toList, "localhost".toList), ("UFTP_PORT".toList, "2121".toList),
    ("UFTP_SECRET".toList, "secret".toList), ("UFTP_REMOTE_FILE".toList, "there".toList),
    ("UFTP_LOCAL_FILE".toList, "here".toList), ("UFTP_OPERATION".toList, operation.toList),
    ("UFTP_WRITE_MODE".toList, "PARTIAL".toList), ("UFTP_OFFSET".toList, offset.toList),
    ("UFTP_LENGTH".toList, length.toList)].lookup name

def partParameters (operation : String) (offset length : Int) : ClientParameters where
  host := "localhost".toList
  port := 2121
  secret := "secret".toList
  remotePath := "there".toList
  localPath := "here".toList
  operation := operation.toList
  writeMode := "PARTIAL".toList
  offset := offset
  length := length

/-- A client state with one file on one of the two sides. -/
def clientState (there here : Option (List UInt8)) : ClientState PlainServer where
  tick := 0
  server := { files := fun p => if p = "there".toList then there else none, range := none }
  files := fun p => if p = "here".toList then here else none
  pos := 0
  buffered := []
  output := []

theorem partEnv_get_tail : mainParameters (partEnv "GET" "3" "-1") = .ok (partParameters "GET" 3 (-1)) := by
  decide +kernel

theorem partEnv_get_head : mainParameters (partEnv "GET" "0" "3") = .ok (partParameters "GET" 0 3) := by
  decide +kernel

theorem partEnv_put_tail : mainParameters (partEnv "PUT" "3" "-1") = .ok (partParameters "PUT" 3 (-1)) := by
  decide +kernel

theorem partEnv_put_head : mainParameters (partEnv "PUT" "0" "3") = .ok (partParameters "PUT" 0 3) := by
  decide +kernel

/-! ## Many transfers -/

section Clients

variable {σ : Type} {remote : σ → Str → Option (List UInt8)} {ftp : Ftp σ} {range : σ → Option (Int × Int)}

/-- The place `j` belongs to the part of the file that the client is asked for. -/
def Covers (c : ClientParameters) (j : Nat) : Prop := c.offset ≤ j ∧ (c.length > -1 → j < c.offset + c.length)

/-- The places that the clients are asked for. -/
def asked (envs : List Vars) : Set Nat := { j | ∃ vars ∈ envs, ∃ c, mainParameters vars = .ok c ∧ Covers c j }

/-- The places that the clients which ended with exit code 0 were asked for. -/
def covered (envs : List Vars) (codes : List Int) : Set Nat :=
  { j | ∃ vars c, (vars, 0) ∈ envs.zip codes ∧ mainParameters vars = .ok c ∧ Covers c j }

theorem covered_halves {tail head : Vars} {operation : String}
    (htail : mainParameters tail = .ok (partParameters operation 3 (-1)))
    (hhead : mainParameters head = .ok (partParameters operation 0 3)) (j : Nat) : j ∈ covered [tail, head] [0, 0] := by
  by_cases hj : j < 3
  · refine ⟨_, _, List.mem_cons_of_mem _ (List.mem_singleton.mpr rfl), hhead, ?_, ?_⟩
    · show (0 : Int) ≤ j
      omega
    · show (3 : Int) > -1 → (j : Int) < 0 + 3
      omega
  · refine ⟨_, _, List.mem_cons_self, htail, ?_, ?_⟩
    · show (3 : Int) ≤ j
      omega
    · show (-1 : Int) > -1 → (j : Int) < 3 + -1
      omega

/-- What a number of transfers of parts of `d` make of the file they are written to. -/
structure PutTogether (d old new : List UInt8) (envs : List Vars) (codes : List Int) : Prop where
  transferred : Holds d new (covered envs codes)
  kept : ∀ j < old.length, j ∉ asked envs → new[j]? = old[j]?
  complete : old.length ≤ d.length → (∀ j < d.length, j ∈ covered envs codes) → new = d

/-- The piece that one client has written. -/
def IsPieceOf (d : List UInt8) (run : Vars × Int) (piece : Nat × List UInt8) : Prop :=
  ∃ c, mainParameters run.1 = .ok c ∧ 0 ≤ c.offset ∧ piece.1 = c.offset.toNat ∧ piece.2 <+: wanted c d ∧
    (run.2 = 0 → piece.2 = wanted c d)

theorem wanted_drop (c : ClientParameters) (d : List UInt8) : wanted c d <+: d.drop c.offset.toNat := by
  unfold wanted
  split
  · exact List.take_prefix _ _
  · exact List.prefix_refl _

theorem length_wanted (c : ClientParameters) (d : List UInt8) : (wanted c d).length =
    if c.length > -1 then min c.length.toNat (d.length - c.offset.toNat) else d.length - c.offset.toNat := by
  unfold wanted
  split <;> simp

theorem IsPieceOf.isPiece {d : List UInt8} {run : Vars × Int} {piece : Nat × List UInt8} (h : IsPieceOf d run piece) :
    IsPiece d piece.1 piece.2 := by
  obtain ⟨c, -, -, hplace, hpiece, -⟩ := h
  rw [IsPiece, hplace]
  exact hpiece.trans (wanted_drop c d)

theorem IsPieceOf.covers {d : List UInt8} {run : Vars × Int} {piece : Nat × List UInt8} (h : IsPieceOf d run piece)
    {j : Nat} (hj : j ∈ reach piece.1 piece.2) : ∃ c, mainParameters run.1 = .ok c ∧ Covers c j := by
  obtain ⟨c, hc, hoffset, hplace, hpiece, -⟩ := h
  have hlength := hpiece.length_le
  rw [length_wanted] at hlength
  obtain ⟨hfrom, hto⟩ := hj
  refine ⟨c, hc, by omega, fun hpart => ?_⟩
  rw [if_pos hpart] at hlength
  omega

theorem IsPieceOf.reaches {d : List UInt8} {vars : Vars} {c : ClientParameters} {piece : Nat × List UInt8}
    (h : IsPieceOf d (vars, 0) piece) (hc : mainParameters vars = .ok c) {j : Nat} (hj : Covers c j)
    (hlt : j < d.length) : j ∈ reach piece.1 piece.2 := by
  obtain ⟨c', hc', hoffset, hplace, -, hall⟩ := h
  obtain rfl : c' = c := Except.ok.inj (hc'.symm.trans hc)
  have hlength := length_wanted c' d
  rw [hplace, hall rfl]
  obtain ⟨hfrom, hto⟩ := hj
  refine ⟨by omega, ?_⟩
  by_cases hpart : c'.length > -1
  · have := hto hpart
    rw [hlength, if_pos hpart]
    omega
  · rw [hlength, if_neg hpart]
    omega

/-- The pieces that were written put the file together. -/
theorem putTogether {d old : List UInt8} {envs : List Vars} {codes : List Int}
    {runs : List ((Vars × Int) × (Nat × List UInt8))} (hruns : runs.map Prod.fst = envs.zip codes)
    (h : ∀ run ∈ runs, IsPieceOf d run.1 run.2) :
    PutTogether d old (patches 0 old (runs.map Prod.snd)) envs codes := by
  have hpieces : ∀ p ∈ runs.map Prod.snd, IsPiece d p.1 p.2 := by
    rw [List.forall_mem_map]
    exact fun run hrun => (h run hrun).isPiece
  have hholds : Holds d (patches 0 old (runs.map Prod.snd)) (covered envs codes) := by
    have hnone : Holds d old ∅ := fun j hj => absurd hj (Set.notMem_empty j)
    intro j hj hlt
    obtain ⟨vars, c, hmem, hc, hcovers⟩ := hj
    rw [← hruns] at hmem
    obtain ⟨⟨run, piece⟩, hrun, heq⟩ := List.mem_map.mp hmem
    obtain rfl : run = (vars, 0) := heq
    refine hnone.patches hpieces j (Or.inr ?_) hlt
    exact ⟨piece, List.mem_map.mpr ⟨_, hrun, rfl⟩, (h _ hrun).reaches hc hcovers hlt⟩
  refine ⟨hholds, ?_, fun hlen hall => hholds.eq hall (length_patches_le hlen hpieces)⟩
  intro j hj hnot
  apply getElem?_patches_outside hj
  rw [List.forall_mem_map]
  intro run hrun hreach
  obtain ⟨c, hc, hcovers⟩ := (h run hrun).covers hreach
  have hmem : run.1 ∈ envs.zip codes := by
    rw [← hruns]
    exact List.mem_map.mpr ⟨run, hrun, rfl⟩
  exact hnot ⟨run.1.1, (List.of_mem_zip hmem).1, c, hc, hcovers⟩

/-- Clients one after the other, each of which writes a piece of `d` into the target and keeps what the next one
relies on. -/
theorem clients_pieces (Inv : ClientState σ → Prop) (target : ClientState σ → List UInt8) {d : List UInt8}
    {r : ClientCtx} {envs : List Vars} (hstep : ∀ vars ∈ envs, ∀ s, Inv s → ∃ c, mainParameters vars = .ok c ∧
      0 ≤ c.offset ∧ Moved (wanted c d) (fun data s' => Inv s' ∧ target s' = patch 0 (target s) c.offset.toNat data)
        (main ftp vars r s))
    {codes : List Int} {s s' : ClientState σ} (hs : Inv s) (hrun : clients ftp envs r s = (.done codes, s')) :
    Inv s' ∧ ∃ runs : List ((Vars × Int) × (Nat × List UInt8)), runs.map Prod.fst = envs.zip codes ∧
      (∀ run ∈ runs, IsPieceOf d run.1 run.2) ∧ target s' = patches 0 (target s) (runs.map Prod.snd) := by
  induction envs generalizing codes s with
  | nil =>
      obtain ⟨hcodes, rfl⟩ := Prod.mk.inj hrun
      obtain rfl := Outcome.done.inj hcodes
      exact ⟨hs, [], rfl, by simp, rfl⟩
  | cons vars rest ih =>
      rw [List.forall_mem_cons] at hstep
      obtain ⟨code, s₁, hcode, h₁⟩ := bind_eq_done.mp hrun
      obtain ⟨later, s₂, hlater, h₂⟩ := bind_eq_done.mp h₁
      obtain ⟨hcodes, rfl⟩ := Prod.mk.inj h₂
      obtain rfl := Outcome.done.inj hcodes
      obtain ⟨c, hc, hoffset, data, hdata, ⟨hinv, htarget⟩, hall⟩ := hstep.1 s hs
      -- the exit code is 0 only if `main` returned
      have hend : (main ftp vars r s).2 = s₁ ∧ (code = 0 → data = wanted c d) := by
        unfold exitCode handle at hcode
        rcases hmain : main ftp vars r s with ⟨a | e | _, t⟩
        · rw [hmain] at hcode hall
          exact ⟨congrArg Prod.snd hcode, fun _ => hall a rfl⟩
        · rw [hmain] at hcode
          obtain ⟨hone, rfl⟩ := Prod.mk.inj hcode
          obtain rfl := Outcome.done.inj hone
          exact ⟨rfl, fun hzero => absurd hzero (by decide)⟩
        · rw [hmain] at hcode
          cases hcode
      rw [hend.1] at hinv htarget
      obtain ⟨hinv', runs, hruns, hpieces, hfinal⟩ := ih hstep.2 hinv hlater
      refine ⟨hinv', ((vars, code), (c.offset.toNat, data)) :: runs, ?_, ?_, ?_⟩
      · rw [List.map_cons, hruns, List.zip_cons_cons]
      · rw [List.forall_mem_cons]
        exact ⟨⟨c, hc, hoffset, rfl, hdata, hend.2⟩, hpieces⟩
      · rw [List.map_cons, patches_cons, ← htarget]
        exact hfinal

/-- The client is asked to fetch a part of the file on the server. -/
structure FetchesPart (remoteFile localFile : Str) (c : ClientParameters) : Prop where
  operation : c.operation = "GET".toList
  mode : c.writeMode = "PARTIAL".toList
  there : c.remotePath = remoteFile
  here : c.localPath = localFile
  offset : 0 ≤ c.offset

/-- The client is asked to put a part of the local file on the server. -/
structure StoresPart (remoteFile localFile : Str) (c : ClientParameters) : Prop where
  operation : c.operation ≠ "GET".toList
  mode : c.writeMode = "PARTIAL".toList
  there : c.remotePath = remoteFile
  here : c.localPath = localFile
  offset : 0 ≤ c.offset
  part : c.offset > 0 ∨ c.length > -1

variable {remoteFile localFile : Str} {envs : List Vars} {codes : List Int} {r : ClientCtx} {s s' : ClientState σ}

/-- **Downloads in parts.**  Whatever the order of the parts, whether they overlap, and whichever of the transfers
break off: the local file has the bytes of the remote one wherever a transfer that succeeded was to put them, what
no transfer was asked for is as it was, and nothing else changes on either side. -/
theorem downloads_assemble (hserver : HonoursRanges ftp remote range) {d : List UInt8}
    (hd : remote s.server remoteFile = some d)
    (hasks : ∀ vars ∈ envs, ∃ c, mainParameters vars = .ok c ∧ FetchesPart remoteFile localFile c)
    (hrun : clients ftp envs r s = (.done codes, s')) :
    PutTogether d (content s localFile) (content s' localFile) envs codes ∧ remote s'.server = remote s.server ∧
      ∀ p, p ≠ localFile → s'.files p = s.files p := by
  let Inv : ClientState σ → Prop := fun t =>
    remote t.server = remote s.server ∧ ∀ p, p ≠ localFile → t.files p = s.files p
  have hstep : ∀ vars ∈ envs, ∀ t, Inv t → ∃ c, mainParameters vars = .ok c ∧ 0 ≤ c.offset ∧
      Moved (wanted c d) (fun data t' => Inv t' ∧ content t' localFile = patch 0 (content t localFile) c.offset.toNat data)
        (main ftp vars r t) := by
    intro vars hvars t ht
    obtain ⟨c, hc, hop, hmode, rfl, rfl, hoffset⟩ := hasks vars hvars
    have hfile : remote t.server c.remotePath = some d := by
      rw [ht.1]
      exact hd
    obtain ⟨data, hdata, hwritten, hall⟩ := main_fetches hserver hc hop hmode hoffset hfile r
    refine ⟨c, hc, hoffset, data, hdata, ⟨⟨hwritten.1.trans ht.1, ?_⟩, hwritten.2.file⟩, hall⟩
    exact fun p hp => (hwritten.2.others p hp).trans (ht.2 p hp)
  obtain ⟨hinv, runs, hruns, hpieces, hfinal⟩ := clients_pieces Inv (fun t => content t localFile) hstep
    ⟨rfl, fun _ _ => rfl⟩ hrun
  refine ⟨?_, hinv⟩
  rw [hfinal]
  exact putTogether hruns hpieces

/-- A file fetched in two parts, the second one first. -/
theorem downloads_assemble_halves :
    content (clients plainFtp [partEnv "GET" "3" "-1", partEnv "GET" "0" "3"] calmClient
      (clientState (some [1, 2, 3, 4, 5]) (some [9]))).2 "here".toList = [1, 2, 3, 4, 5] := by
  have hcodes : (clients plainFtp [partEnv "GET" "3" "-1", partEnv "GET" "0" "3"] calmClient
      (clientState (some [1, 2, 3, 4, 5]) (some [9]))).1 = .done [0, 0] := by decide +kernel
  have hasks : ∀ vars ∈ [partEnv "GET" "3" "-1", partEnv "GET" "0" "3"], ∃ c, mainParameters vars = .ok c ∧
      FetchesPart "there".toList "here".toList c := by
    intro vars hvars
    rcases List.mem_pair.mp hvars with rfl | rfl
    · exact ⟨_, partEnv_get_tail, rfl, rfl, rfl, rfl, by decide⟩
    · exact ⟨_, partEnv_get_head, rfl, rfl, rfl, rfl, by decide⟩
  have hd : (clientState (some [1, 2, 3, 4, 5]) (some [9])).server.files "there".toList = some [1, 2, 3, 4, 5] := by
    simp [clientState]
  have hold : content (clientState (some [1, 2, 3, 4, 5]) (some [9])) "here".toList = [9] := by
    simp [content, clientState]
  rcases hrun : clients plainFtp [partEnv "GET" "3" "-1", partEnv "GET" "0" "3"] calmClient
      (clientState (some [1, 2, 3, 4, 5]) (some [9])) with ⟨o, s'⟩
  rw [hrun] at hcodes
  obtain rfl : o = .done [0, 0] := hcodes
  have hall := (downloads_assemble plainFtp_honoursRanges hd hasks hrun).1.complete
  rw [hold] at hall
  exact hall (by decide) fun j _ => covered_halves partEnv_get_tail partEnv_get_head j

/-- **Uploads in parts.**  The same for the file on the server. -/
theorem uploads_assemble (hserver : HonoursRanges ftp remote range)
    (hasks : ∀ vars ∈ envs, ∃ c, mainParameters vars = .ok c ∧ StoresPart remoteFile localFile c)
    (hrun : clients ftp envs r s = (.done codes, s')) :
    PutTogether (content s localFile) ((remote s.server remoteFile).getD []) ((remote s'.server remoteFile).getD [])
        envs codes ∧
      (∀ p, p ≠ remoteFile → remote s'.server p = remote s.server p) ∧ ∀ p, content s' p = content s p := by
  let Inv : ClientState σ → Prop := fun t =>
    (∀ p, p ≠ remoteFile → remote t.server p = remote s.server p) ∧ ∀ p, content t p = content s p
  have hstep : ∀ vars ∈ envs, ∀ t, Inv t → ∃ c, mainParameters vars = .ok c ∧ 0 ≤ c.offset ∧
      Moved (wanted c (content s localFile)) (fun data t' => Inv t' ∧ (remote t'.server remoteFile).getD [] =
        patch 0 ((remote t.server remoteFile).getD []) c.offset.toNat data) (main ftp vars r t) := by
    intro vars hvars t ht
    obtain ⟨c, hc, hop, hmode, rfl, rfl, hoffset, hpart⟩ := hasks vars hvars
    have hmoved : Moved (wanted c (content t c.localPath)) (Sent remote t c) (main ftp vars r t) :=
      main_stores hserver hc hop hmode hpart r
    rw [ht.2 c.localPath] at hmoved
    obtain ⟨data, hdata, hsent, hall⟩ := hmoved
    refine ⟨c, hc, hoffset, data, hdata, ⟨⟨?_, ?_⟩, hsent.server.file⟩, hall⟩
    · exact fun p hp => (hsent.server.others p hp).trans (ht.1 p hp)
    · intro p
      rcases eq_or_ne p c.localPath with rfl | hp
      · have hsame := hsent.here.file
        rw [patch_nil] at hsame
        exact hsame.trans (ht.2 _)
      · have hother : content (main ftp vars r t).2 p = content t p := by
          rw [content, hsent.here.others p hp, content]
        exact hother.trans (ht.2 p)
  obtain ⟨hinv, runs, hruns, hpieces, hfinal⟩ := clients_pieces Inv
    (fun t => (remote t.server remoteFile).getD []) hstep ⟨fun _ _ => rfl, fun _ => rfl⟩ hrun
  refine ⟨?_, hinv⟩
  rw [hfinal]
  exact putTogether hruns hpieces

/-- A file sent in two parts, the second one first. -/
theorem uploads_assemble_halves :
    ((clients plainFtp [partEnv "PUT" "3" "-1", partEnv "PUT" "0" "3"] calmClient
      (clientState none (some [1, 2, 3, 4, 5]))).2.server.files "there".toList).getD [] = [1, 2, 3, 4, 5] := by
  have hcodes : (clients plainFtp [partEnv "PUT" "3" "-1", partEnv "PUT" "0" "3"] calmClient
      (clientState none (some [1, 2, 3, 4, 5]))).1 = .done [0, 0] := by decide +kernel
  have hasks : ∀ vars ∈ [partEnv "PUT" "3" "-1", partEnv "PUT" "0" "3"], ∃ c, mainParameters vars = .ok c ∧
      StoresPart "there".toList "here".toList c := by
    intro vars hvars
    rcases List.mem_pair.mp hvars with rfl | rfl
    · exact ⟨_, partEnv_put_tail, by decide, rfl, rfl, rfl, by decide, by decide⟩
    · exact ⟨_, partEnv_put_head, by decide, rfl, rfl, rfl, by decide, by decide⟩
  have hdata : content (clientState none (some [1, 2, 3, 4, 5])) "here".toList = [1, 2, 3, 4, 5] := by
    simp [content, clientState]
  have hold : ((clientState none (some [1, 2, 3, 4, 5])).server.files "there".toList).getD [] = [] := by
    simp [clientState]
  rcases hrun : clients plainFtp [partEnv "PUT" "3" "-1", partEnv "PUT" "0" "3"] calmClient
      (clientState none (some [1, 2, 3, 4, 5])) with ⟨o, s'⟩
  rw [hrun] at hcodes
  obtain rfl : o = .done [0, 0] := hcodes
  have hall := (uploads_assemble plainFtp_honoursRanges hasks hrun).1.complete
  rw [hold, hdata] at hall
  exact hall (by decide) fun j _ => covered_halves partEnv_put_tail partEnv_put_head j

end Clients

end UnicoreTsi.UftpClient
