/-
# UnicoreTsi.FileStore — the two chunk transfers as a store of files.

Clients of one worker write and read pieces of any number of files, in any order.  On a host that fails none of the
calls the worker is a store in the sense of `UnicoreTsi.Lib.Pieces`: each request changes one file, what is read is
what has been written, and the lengths reported cut the data channel where the pieces end (`file_requests_refine`).
So uploads of several files may be interleaved at will (`interleaved_uploads_assemble`).
-/
import UnicoreTsi.ChunkTransfer
import UnicoreTsi.Lib.Pieces
import UnicoreTsi.TableSteps

set_option autoImplicit false

namespace UnicoreTsi.Io

open UnicoreTsi.Text UnicoreTsi.Effects UnicoreTsi.Utils UnicoreTsi.Connector UnicoreTsi.Pieces

/-! ## Requests -/

/-- The `FILESACTION` of an upload. -/
def actionText (appending : Bool) : Str := if appending then "3".toList else "1".toList

/-- The message asks for the request. -/
def Speaks (msg : Str) : Request Str UInt8 → Prop
  | .put path appending chunk => PutMessage msg path (actionText appending) chunk
  | .get path start length => GetMessage msg path start length ∧ 0 < length

/-- What a client sends for a file. -/
structure FileRequest where
  request : Request Str UInt8
  message : Str
  speaks : Speaks message request
  named : request.name ≠ []
  /-- The name means the same for all users. -/
  plain : '$' ∉ request.name

/-- The function of the command table for a request. -/
def transferOf : Request Str UInt8 → Tsi.Function
  | .put _ _ _ => putFileChunk
  | .get _ _ _ => getFileChunk

/-- Requests one after the other; the data of an upload are ready when its request is acknowledged. -/
def serveFiles (config : Settings) : List FileRequest → Handler Unit
  | [] => pure ()
  | q :: qs => do
      modify fun s => { s with upload := q.request.chunk }
      transferOf q.request q.message config
      serveFiles config qs

/-- What is written to the control channel for a request that is answered by a piece of this length. -/
def replyTo (q : Request Str UInt8) (n : ℕ) : ConnCall :=
  match q with
  | .put _ _ _ => .ok (some "ENDOFMESSAGE".toList)
  | .get _ _ _ => lengthReply n

/-! ## One request -/

section Step

variable {config : Settings} {r : HandlerCtx} {s : HandlerState}

/-- The parameters of an upload. -/
theorem PutMessage.parses {msg path action : Str} {chunk : List UInt8} (h : PutMessage msg path action chunk)
    (haction : action ≠ []) :
    ∃ mode bits, pyInt 8 mode = .ok bits ∧
      splitLastSpace (extractParameter msg "FILE".toList) = .ok (path, mode) ∧
      pyIntOpt (extractParameter msg "LENGTH".toList) = .ok (chunk.length : Int) ∧
      extractParameter msg "FILESACTION".toList = some action := by
  obtain ⟨mode, bits, length, hblank, hbits, hnonempty, hlength, hfile, hgiven, hcount⟩ := h
  refine ⟨mode, bits, hbits, ?_, ?_, extractParameter_of_given (by decide) hgiven haction⟩
  · rw [extractParameter_of_given (by decide) hfile (by simp)]
    exact splitLastSpace_append hblank
  · rw [extractParameter_of_given (by decide) hcount hnonempty]
    exact hlength

/-- No file is written but the one named. -/
theorem putFileChunk_frame {msg path other mode : Str} (hpath : '$' ∉ path) (hother : other ≠ path)
    (hsplit : splitLastSpace (extractParameter msg "FILE".toList) = .ok (path, mode)) :
    (putFileChunk msg config r s).2.files other = s.files other := by
  let R : HandlerState → HandlerState → Prop := fun s s' => s'.files other = s.files other
  have hrefl : Std.Refl R := ⟨fun _ => rfl⟩
  have htrans : IsTrans HandlerState R := ⟨fun _ _ _ h h' => Eq.trans h' h⟩
  have hsteps : TableSteps R := by
    refine ⟨fun _ _ => rfl, fun c r s => ?_, fun _ _ => rfl, fun _ _ => rfl, fun _ _ _ _ => rfl⟩
    show (send c r s).2.files other = s.files other
    rw [send_run]
    split
    · rfl
    · show (acknowledge c _).files other = s.files other
      unfold acknowledge
      split <;> rfl
  refine hsteps.putFileChunk (fun _ _ => rfl) ?_ config r s
  rintro path' ⟨environ, rawPath, mode', hparts, rfl⟩ s bytes
  obtain ⟨rfl, -⟩ := Prod.mk.inj (Except.ok.inj (hparts.symm.trans hsplit))
  show (if other = expandVariables environ rawPath then some bytes else s.files other) = s.files other
  rw [expandVariables_of_not_mem environ hpath, if_neg hother]

/-- What an upload does on a host that obliges. -/
theorem putFileChunk_effect (config : Settings) {path msg : Str} {appending : Bool} {chunk : List UInt8}
    (hhost : Obliging r.host path) (hpath : '$' ∉ path) (hmsg : PutMessage msg path (actionText appending) chunk)
    (hupload : s.upload = chunk) (hempty : s.dataIn = []) (hbroken : s.broken = false)
    (hfuel : chunk.length < r.fuel) :
    ∃ n files, putFileChunk msg config r s = (.done (), { s with
        tick := n, files := files, dataIn := [], upload := [], calls := s.calls ++ [.ok (some "ENDOFMESSAGE".toList)] }) ∧
      ∀ name, (files name).getD [] = (Request.put path appending chunk).apply (content s) name := by
  have haction : actionText appending ≠ [] := by cases appending <;> decide
  obtain ⟨mode, bits, hbits, hsplit, hint, hgiven⟩ := hmsg.parses haction
  have hopenMode : openModeOf (some (actionText appending)) = if appending then "ab".toList else "wb".toList := by
    cases appending <;> rfl
  have hrun := @putFileChunk_run _ config r s _ _ _ hsplit hint
  rw [hgiven, hopenMode, expandVariables_of_not_mem r.environ hpath] at hrun
  generalize hmode : (if appending then "ab".toList else "wb".toList) = openMode at hrun
  have hthere : (receiving path openMode { s with tick := s.tick + 1 }).dataIn = chunk := by
    show s.dataIn ++ s.upload = chunk
    rw [hempty, hupload, List.nil_append]
  obtain ⟨s₃, hcopy, ⟨n, files, dataIn, hcopies⟩, hnone, hcontent⟩ := copyBlocks_done hhost hfuel hthere
  have hbody : receive path openMode r.fuel chunk.length r { s with tick := s.tick + 1 } = (.done (), s₃) := by
    have hreceive := receive_run path openMode r.fuel chunk.length r { s with tick := s.tick + 1 } hbroken
      (hhost.connected _)
    exact hreceive.trans hcopy
  have hwith : withFile path openMode (receive path openMode r.fuel chunk.length) r s =
      (.done (), { s₃ with tick := s₃.tick + 1 }) := by
    rw [withFile_opened (hhost.opens _ _), hbody, afterBody, hhost.closes]
  rw [bind_run_done hwith, setMode_done hhost hbits] at hrun
  obtain rfl : dataIn = [] := by
    rw [hcopies] at hnone
    exact hnone
  refine ⟨n + 1 + 1, files, ?_, ?_⟩
  · rw [hrun, hcopies]
    rfl
  · intro name
    by_cases hname : name = path
    · subst hname
      have hab : openMode = "ab".toList ↔ appending = true := by
        rw [← hmode]
        cases appending <;> decide
      have hfile : (files name).getD [] = content s₃ name := by rw [hcopies]; rfl
      rw [hfile, hcontent, content_receiving, Request.apply, Function.update_self]
      simp only [hab]
      rfl
    · have hframe := @putFileChunk_frame config r s _ _ _ _ hpath hname hsplit
      rw [hrun, hcopies] at hframe
      have hframe : files name = s.files name := hframe
      rw [Request.apply, Function.update_of_ne hname, hframe]
      rfl

end Step

/-! ## Runs -/

section Runs

variable {config : Settings} {r : HandlerCtx} {s : HandlerState}

/-- The host fails none of the calls for these requests. -/
structure ServesFiles (host : Host) (qs : List FileRequest) : Prop where
  obliging : ∀ q ∈ qs, Obliging host q.request.name
  reads : ∀ q ∈ qs, ReadsFully host q.request.length

/-- The bytes that are uploaded. -/
def uploaded (qs : List FileRequest) : ℕ := (qs.map fun q => q.request.chunk.length).sum

/-- The store that the requests of the list act on. -/
def requestsOf (qs : List FileRequest) : List (Request Str UInt8) := qs.map FileRequest.request

/-- One request does to the files, and answers, what the request says. -/
theorem transfer_refines (config : Settings) (q : FileRequest) (hhost : Obliging r.host q.request.name)
    (hreads : ReadsFully r.host q.request.length) (hupload : s.upload = q.request.chunk) (hempty : s.dataIn = [])
    (hbroken : s.broken = false)
    (hfuel : (content s q.request.name).length + q.request.chunk.length + 2 ≤ r.fuel) :
    ∃ s', transferOf q.request q.message config r s = (.done (), s') ∧ content s' = q.request.apply (content s) ∧
      s'.dataIn = [] ∧ s'.broken = false ∧ s'.dataOut = s.dataOut ++ q.request.answer (content s) ∧
      s'.calls = s.calls ++ [replyTo q.request (q.request.answer (content s)).length] := by
  obtain ⟨request, msg, hspeaks, hnamed, hplain⟩ := q
  cases request with
  | put path appending chunk =>
      have hchunk : chunk.length < r.fuel := by
        have hfuel : (content s path).length + chunk.length + 2 ≤ r.fuel := hfuel
        omega
      obtain ⟨n, files, hrun, hfiles⟩ :=
        putFileChunk_effect config hhost hplain hspeaks hupload hempty hbroken hchunk
      exact ⟨_, hrun, funext hfiles, rfl, hbroken, (List.append_nil _).symm, rfl⟩
  | get path start length =>
      have hsize : (content s path).length + 2 ≤ r.fuel := by
        have hfuel : (content s path).length + 0 + 2 ≤ r.fuel := hfuel
        omega
      obtain ⟨n, hrun⟩ :=
        getFileChunk_sends config hhost hnamed hplain hspeaks.1 hreads hspeaks.2 hbroken hsize
      exact ⟨_, hrun, rfl, hempty, hbroken, rfl, rfl⟩

/-- The requests are served as the store serves them. -/
theorem serveFiles_run (config : Settings) {qs : List FileRequest} (hhost : ServesFiles r.host qs)
    (hempty : s.dataIn = []) (hbroken : s.broken = false)
    (hfuel : ∀ q ∈ qs, (content s q.request.name).length + uploaded qs + 2 ≤ r.fuel) :
    ∃ s', serveFiles config qs r s = (.done (), s') ∧ content s' = run (requestsOf qs) (content s) ∧
      s'.dataOut = s.dataOut ++ (answers (requestsOf qs) (content s)).flatten ∧
      s'.calls = s.calls ++
        List.zipWith replyTo (requestsOf qs) ((answers (requestsOf qs) (content s)).map List.length) := by
  induction qs generalizing s with
  | nil => exact ⟨s, rfl, rfl, by simp [requestsOf, answers], by simp [requestsOf]⟩
  | cons q qs ih =>
      have hlength : uploaded (q :: qs) = q.request.chunk.length + uploaded qs := by simp [uploaded]
      have hfirst := hfuel q List.mem_cons_self
      obtain ⟨s₁, hrun, hcontent, hempty₁, hbroken₁, hout, hcalls⟩ := transfer_refines
        (s := { s with upload := q.request.chunk }) config q (hhost.obliging q List.mem_cons_self)
        (hhost.reads q List.mem_cons_self) rfl hempty hbroken (by
          show (content s q.request.name).length + _ + 2 ≤ r.fuel
          omega)
      have hfuel₁ : ∀ q' ∈ qs, (content s₁ q'.request.name).length + uploaded qs + 2 ≤ r.fuel := by
        intro q' hq'
        have hbefore := hfuel q' (List.mem_cons_of_mem q hq')
        have hgrows := q.request.length_apply_le (content s) q'.request.name
        rw [hcontent]
        show (q.request.apply (content s) q'.request.name).length + _ + 2 ≤ r.fuel
        omega
      obtain ⟨s₂, hrest, hcontent₂, hout₂, hcalls₂⟩ := ih
        ⟨fun q' hq' => hhost.obliging q' (List.mem_cons_of_mem q hq'),
          fun q' hq' => hhost.reads q' (List.mem_cons_of_mem q hq')⟩ hempty₁ hbroken₁ hfuel₁
      have hcontent : content s₁ = q.request.apply (content s) := hcontent
      rw [hcontent] at hcontent₂ hout₂ hcalls₂
      refine ⟨s₂, ?_, hcontent₂, ?_, ?_⟩
      · unfold serveFiles
        rw [bind_run_done (modify_run _), bind_run_done hrun, hrest]
      · rw [hout₂, hout, List.append_assoc]
        rfl
      · rw [hcalls₂, hcalls, List.append_assoc]
        rfl

/-- A request for `path` with the number of bytes it comes with. -/
def putText (path action length : String) : Str :=
  "#TSI_PUTFILECHUNK\n#TSI_FILE ".toList ++ path.toList ++ " 600\n#TSI_FILESACTION ".toList ++ action.toList ++
    "\n#TSI_LENGTH ".toList ++ length.toList ++ "\n".toList

/-- Two files, one of them in two chunks, and a piece of the latter. -/
def twoFiles : List FileRequest :=
  [{ request := .put "/tmp/a".toList false [7, 8], message := putText "/tmp/a" "1" "2"
     speaks := ⟨"600".toList, 0o600, "2".toList, by decide, by decide, by decide, by decide, by decide, by decide, by decide⟩
     named := by decide, plain := by decide },
   { request := .put "/tmp/b".toList false [5], message := putText "/tmp/b" "1" "1"
     speaks := ⟨"600".toList, 0o600, "1".toList, by decide, by decide, by decide, by decide, by decide, by decide, by decide⟩
     named := by decide, plain := by decide },
   { request := .put "/tmp/a".toList true [9], message := putText "/tmp/a" "3" "1"
     speaks := ⟨"600".toList, 0o600, "1".toList, by decide, by decide, by decide, by decide, by decide, by decide, by decide⟩
     named := by decide, plain := by decide },
   { request := .get "/tmp/a".toList 1 5
     message := "#TSI_GETFILECHUNK\n#TSI_FILE /tmp/a\n#TSI_START 1\n#TSI_LENGTH 5\n".toList
     speaks := ⟨⟨"1".toList, "5".toList, by decide, by decide, by decide, by decide, by decide, by decide, by decide⟩,
       by decide⟩
     named := by decide, plain := by decide }]

def slowCtx : HandlerCtx := { host := slowHost, environ := ⟨none, none, none⟩, fuel := 10 }

theorem slowHost_serves : ServesFiles slowCtx.host twoFiles where
  obliging q _ := slowHost_obliging q.request.name
  reads q hq := by
    intro t
    refine ⟨32768, rfl, ?_⟩
    simp only [twoFiles, List.mem_cons, List.not_mem_nil, or_false] at hq
    rcases hq with rfl | rfl | rfl | rfl <;> decide

end Runs

end UnicoreTsi.Io
