/-
# UnicoreTsi.TableSteps — one pass over the functions of the command table.

Every function of the table is built from a few steps: taking an answer of the host, writing to UNICORE/X, starting a
command, noting a child, writing a script (`TableSteps`).  A relation between states that holds across each of
these steps holds across every function (`table`), and across the two chunk transfers if it also allows what only
they do (`getFileChunk`, `putFileChunk`).
-/
import UnicoreTsi.Tsi
import UnicoreTsi.Variants

set_option autoImplicit false

namespace UnicoreTsi

open UnicoreTsi.Text UnicoreTsi.Effects UnicoreTsi.Utils UnicoreTsi.Connector UnicoreTsi.BssCommon

/-! ## The steps of the functions of the table -/

/-- The scripts a worker writes for itself have names of its own making. -/
def JobFile (name : Str) : Prop :=
  ∃ id, name = "UNICORE_Job_".toList ++ id ∨ name = "bss_submit_".toList ++ id

/-- The file that an upload goes to. -/
def Uploads (msg path : Str) : Prop :=
  ∃ environ rawPath mode, Io.splitLastSpace (extractParameter msg "FILE".toList) = .ok (rawPath, mode) ∧
    path = expandVariables environ rawPath

/-- What a function of the table does to the state of the handlers, one step at a time. -/
structure TableSteps (R : HandlerState → HandlerState → Prop) : Prop where
  tick : ∀ s n, R s { s with tick := n }
  reply : ∀ c, Within R (send c)
  command : ∀ s args, R s { s with commands := s.commands ++ [args] }
  child : ∀ s pid, R s { s with childPids := s.childPids ++ [pid] }
  script : ∀ s name content, JobFile name → R s { s with scripts := s.scripts ++ [(name, content)] }

/-- The functions of a batch system variant keep the relation. -/
structure BssWithin (R : HandlerState → HandlerState → Prop) (bss : Bss) (msg : Str) (config : Settings) : Prop where
  submit : Within R (bss.submit msg config)
  runOnLoginNode : Within R (bss.runOnLoginNode msg config)
  getStatusListing : Within R (bss.getStatusListing msg config)
  getProcessListing : Within R (bss.getProcessListing msg config)
  getJobDetails : Within R (bss.getJobDetails msg config)
  getPartitions : Within R (bss.getPartitions msg config)
  abortJob : Within R (bss.abortJob msg config)
  holdJob : Within R (bss.holdJob msg config)
  resumeJob : Within R (bss.resumeJob msg config)
  getBudget : Within R (bss.getBudget msg config)

namespace TableSteps

variable {R : HandlerState → HandlerState → Prop} (h : TableSteps R)

include h

theorem of_ticks {α : Type} {x : Handler α} (hx : Within Ticks x) : Within R x := by
  refine within_mono ?_ hx
  rintro s _ ⟨n, rfl⟩
  exact h.tick s n

theorem consult {α : Type} (f : Host → Nat → α) : Within R (consult f) := h.of_ticks (consult_ticks f)

theorem attempt {α : Type} (f : Host → Nat → Except PyExc α) : Within R (attempt f) := h.of_ticks (attempt_ticks f)

theorem sysCall (c : SysCall) : Within R (sysCall c) := h.of_ticks (sysCall_ticks c)

theorem ok (message : Option Str) : Within R (ok message) := h.reply _

theorem failed (message : Option Str) : Within R (failed message) := h.reply _

theorem writeMessage (message : Str) : Within R (writeMessage message) := h.reply _

variable [Std.Refl R] [IsTrans HandlerState R]

omit [Std.Refl R] in
theorem addperms (path : Str) (mode : Nat) : Within R (addperms path mode) :=
  within_bind (h.attempt _) fun _ => h.sysCall _

theorem withFile {α : Type} (path mode : Str) {body : Handler α} (hbody : Within R body) :
    Within R (Io.withFile path mode body) := by
  refine within_bind (h.sysCall _) fun _ => ?_
  refine within_bind (within_handle hbody fun e => ?_) fun _ => ?_
  · exact within_bind (h.sysCall _) fun _ => within_raise e
  · exact within_bind (h.sysCall _) fun _ => within_pure _

theorem writeText {path : Str} (hpath : JobFile path) (content : Str) : Within R (Io.writeText path content) :=
  h.withFile _ _ (within_modify fun s => h.script s path content hpath)

theorem runCommand (cmd : Str) (discard keepPid loginShell : Bool) :
    Within R (runCommand cmd discard keepPid loginShell) := by
  refine within_bind (within_modify fun s => h.command s _) fun _ => ?_
  split
  · refine within_bind (h.attempt _) fun pid => ?_
    split
    · exact within_bind (within_modify fun s => h.child s pid) fun _ => within_pure _
    · exact within_pure _
  · refine within_bind (h.attempt _) ?_
    rintro ⟨code, raw⟩
    refine within_bind (within_ofExcept _) fun output => ?_
    split
    · exact within_pure _
    · exact within_pure _

theorem runAndReport (cmd : Str) (loginShell : Bool) : Within R (runAndReport cmd loginShell) := by
  refine within_bind (h.runCommand _ _ _ _) ?_
  rintro ⟨success, output⟩
  dsimp only
  split
  · exact h.ok _
  · exact h.failed _

/-! ## The functions of the module `TSI` -/

omit h in
theorem caught {α : Type} {x : Handler α} (hx : Within R x) : Within R (Tsi.caught x) :=
  within_handle (within_bind hx fun _ => within_pure _) fun _ => within_pure _

theorem readKeyfiles (home : Str) (keyfiles : List Str) (info : Tsi.UserInfo) :
    Within R (Tsi.readKeyfiles home keyfiles info) := by
  induction keyfiles generalizing info with
  | nil => exact within_pure _
  | cons keyfile rest ih =>
      refine within_bind (caught (h.sysCall _)) fun opened => ?_
      rcases opened with e | _
      · exact ih _
      · refine within_bind (caught (h.attempt _)) fun text => ?_
        rcases text with e | text
        · exact ih _
        · exact ih _

theorem queryCommand (what : String) (cmd : Option Str) (add : List Str → Tsi.UserInfo → Tsi.UserInfo)
    (config : Settings) (info : Tsi.UserInfo) : Within R (Tsi.queryCommand what cmd add config info) := by
  cases cmd with
  | none => exact within_pure _
  | some cmd =>
      refine within_bind (caught (h.runCommand _ _ _ _)) ?_
      rintro (e | ⟨_ | _, out⟩) <;> exact within_pure _

theorem getUserInfo (msg : Str) (config : Settings) : Within R (Tsi.getUserInfo msg config) := by
  unfold Tsi.getUserInfo
  split
  · exact h.failed _
  · refine within_bind (h.attempt _) fun home => ?_
    cases home with
    | none => exact within_raise _
    | some home =>
        refine within_bind (h.readKeyfiles _ _ _) fun info => ?_
        refine within_bind (h.queryCommand _ _ _ _ _) fun info => ?_
        exact within_bind (h.queryCommand _ _ _ _ _) fun info => h.ok _

theorem executeScript (msg : Str) (config : Settings) : Within R (Tsi.executeScript msg config) := by
  refine within_bind (h.runCommand _ _ _ _) ?_
  rintro ⟨success, output⟩
  dsimp only
  split
  · exact h.ok _
  · exact h.failed _

/-! ## Listings and free space -/

theorem getInfo (path : Str) : Within R (Io.getInfo path) := by
  refine within_bind (h.attempt _) fun _ => within_bind (h.consult _) fun _ => ?_
  refine within_bind (h.consult _) fun _ => within_bind (h.consult _) fun _ => ?_
  refine within_bind (h.consult _) fun _ => within_bind (h.attempt _) fun _ => ?_
  exact within_bind (h.attempt _) fun _ => within_pure _

theorem listEntries {descend : Str → Handler Unit} (hdescend : ∀ path, Within R (descend path)) (path : Str)
    (recursive : Bool) (entries : List Str) : Within R (Io.listEntries descend path recursive entries) := by
  have hinfo : ∀ path, Within R (Io.writeInfo path) := fun path =>
    within_handle (within_bind (h.getInfo path) fun _ => h.writeMessage _) fun _ => within_pure _
  induction entries with
  | nil => exact within_pure _
  | cons entry rest ih =>
      have hrest := within_bind (hinfo (Io.pathJoin path entry)) fun _ => ih
      unfold Io.listEntries
      dsimp only
      split
      · refine within_bind (h.consult _) fun isdir => ?_
        split
        · exact within_bind (hdescend _) fun _ => within_bind (h.writeMessage _) fun _ => hrest
        · exact hrest
      · exact hrest

theorem listDirectory (depth : Nat) (path : Str) (recursive : Bool) :
    Within R (Io.listDirectory depth path recursive) := by
  induction depth generalizing path with
  | zero => exact within_raise _
  | succ depth ih => exact within_bind (h.attempt _) fun entries => h.listEntries ih _ _ _

theorem ls (msg : Str) (config : Settings) : Within R (Io.ls msg config) := by
  have hlisting : ∀ path single recurse, Within R (Io.listing path single recurse) := by
    intro path single recurse
    refine within_bind within_ask fun r => within_bind (h.consult _) fun isdir => ?_
    split
    · exact h.listDirectory _ _ _
    · exact within_bind (h.getInfo _) fun _ => h.writeMessage _
  have hexists : ∀ path single recurse, Within R (Io.listIfExists path single recurse) := by
    intro path single recurse
    refine within_bind (h.consult _) fun found => ?_
    split
    · refine within_handle (hlisting _ _ _) fun e => ?_
      split
      · exact within_pure _
      · exact within_raise _
    · exact within_pure _
  refine within_bind within_ask fun r => within_bind (within_ofExcept _) fun path => ?_
  dsimp only
  split
  · exact h.failed _
  · refine within_bind (h.ok _) fun _ => within_bind (hexists _ _ _) fun _ => h.writeMessage _

theorem df (msg : Str) (config : Settings) : Within R (Io.df msg config) := by
  refine within_bind within_ask fun r => within_bind (within_ofExcept _) fun path => ?_
  refine within_bind (h.runCommand _ _ _ _) ?_
  rintro ⟨success, result⟩
  dsimp only
  split
  · refine within_bind (h.ok _) fun _ => within_bind (h.writeMessage _) fun _ => ?_
    exact within_bind (h.writeMessage _) fun _ => within_bind (h.writeMessage _) fun _ => h.writeMessage _
  · exact h.failed _

theorem uftp (msg : Str) (config : Settings) : Within R (Uftp.uftp msg config) := by
  refine within_bind within_ask fun r => within_bind (within_ofExcept _) fun cmd => ?_
  refine within_bind (h.runCommand _ _ _ _) ?_
  rintro ⟨success, reply⟩
  dsimp only
  split
  · exact h.ok _
  · exact h.failed _

/-! ## Access control lists -/

theorem checkSupport (path : Option Str) (acl : List (Str × Str)) : Within R (Acl.checkSupport path acl) := by
  refine within_bind (within_ofExcept _) fun path => ?_
  have hrest : Within R (ask >>= fun r => ofExcept (Acl.bestMatch r.host path acl 0 "NONE".toList) : Handler Str) :=
    within_bind within_ask fun r => within_ofExcept _
  dsimp only
  split
  · exact within_bind (h.sysCall _) fun _ => hrest
  · exact hrest

theorem writeLines (lines : List Str) : Within R (Acl.writeLines lines) := by
  induction lines with
  | nil => exact within_pure _
  | cons line rest ih =>
      unfold Acl.writeLines
      dsimp only
      split
      · exact within_bind (h.writeMessage _) fun _ => ih
      · exact ih

theorem getAcl (support : Str) (path : Option Str) (config : Settings) : Within R (Acl.getAcl support path config) := by
  unfold Acl.getAcl
  split
  · refine within_bind (h.runCommand _ _ _ _) ?_
    rintro ⟨success, result⟩
    dsimp only
    split
    · exact within_bind (h.ok _) fun _ => h.writeLines _
    · exact h.failed _
  · split
    · exact within_pure _
    · exact h.failed _

theorem runSetfacl (command : Str) (config : Settings) : Within R (Acl.runSetfacl command config) := by
  refine within_bind (h.runCommand _ _ _ _) ?_
  rintro ⟨success, result⟩
  dsimp only
  split
  · exact h.ok _
  · exact h.failed _

theorem setfaclPosix (path : Str) (op val : Option Str) (config : Settings) :
    Within R (Acl.setfaclPosix path op val config) := by
  refine within_bind (within_ofExcept _) fun isRecursive => within_bind (within_ofExcept _) fun rmAll => ?_
  split
  · exact h.runSetfacl _ _
  · refine within_bind (within_ofExcept _) fun val => within_bind (within_ofExcept _) fun modify => ?_
    refine within_bind (within_ofExcept _) fun rm => ?_
    split
    · exact h.failed _
    · exact within_bind (within_ofExcept _) fun arg => h.runSetfacl _ _

theorem setAcl (support : Str) (path command commandSpec : Option Str) (config : Settings) :
    Within R (Acl.setAcl support path command commandSpec config) := by
  have hreport : ∀ value name, Within R (Acl.reportMissing value name) := by
    intro value name
    unfold Acl.reportMissing
    split
    · exact h.failed _
    · exact within_pure _
  refine within_bind (hreport _ _) fun _ => within_bind (hreport _ _) fun _ => ?_
  split
  · exact h.setfaclPosix _ _ _ _
  · split
    · exact within_pure _
    · exact h.failed _

theorem processAcl (msg : Str) (config : Settings) : Within R (Acl.processAcl msg config) := by
  unfold Acl.processAcl
  dsimp only
  split
  · refine within_bind (h.checkSupport _ _) fun support => ?_
    split
    · exact h.ok _
    · exact h.ok _
  · split
    · exact within_bind (h.checkSupport _ _) fun support => h.getAcl _ _ _
    · split
      · exact within_bind (h.checkSupport _ _) fun support => h.setAcl _ _ _ _ _
      · exact h.failed _

/-! ## The batch system -/

theorem submitCommands (hooks : BssHooks) (msg jobMode : Str) (config : Settings) :
    Within R (BssCommon.submitCommands hooks msg jobMode config) := by
  unfold BssCommon.submitCommands
  split
  · exact within_bind (within_ofExcept _) fun _ => within_pure _
  · split
    · split
      · exact within_bind (h.failed _) fun _ => within_pure _
      · exact within_bind (h.attempt _) fun _ => within_pure _
    · split
      · split
        · exact within_pure _
        · exact within_bind (h.failed _) fun _ => within_pure _
      · exact within_bind (h.failed _) fun _ => within_pure _

theorem runSubmission (msg uspaceDir : Str) (isAlloc : Bool) (cmds : List Str) (config : Settings) :
    Within R (BssCommon.runSubmission msg uspaceDir isAlloc cmds config) := by
  refine within_bind (h.consult _) fun submitId => ?_
  dsimp only
  split
  · exact within_bind (h.writeText ⟨submitId, Or.inl rfl⟩ _) fun _ => h.runCommand _ _ _ _
  · refine within_bind (h.writeText ⟨submitId, Or.inl rfl⟩ _) fun _ => within_bind (h.addperms _ _) fun _ => ?_
    refine within_bind (h.writeText ⟨submitId, Or.inr rfl⟩ _) fun _ => within_bind (h.addperms _ _) fun _ => ?_
    exact within_bind (within_ofExcept _) fun _ => h.runCommand _ _ _ _

theorem submit (hooks : BssHooks) (msg : Str) (config : Settings) : Within R (BssCommon.submit hooks msg config) := by
  refine within_bind within_ask fun r => within_bind (within_ofExcept _) fun uspaceDir => ?_
  refine within_bind (h.sysCall _) fun _ => within_bind (h.submitCommands _ _ _ _) fun cmds => ?_
  cases cmds with
  | none => exact within_pure _
  | some cmds =>
      refine within_bind (h.runSubmission _ _ _ _ _) ?_
      rintro ⟨success, reply⟩
      dsimp only
      split
      · exact h.failed _
      · split
        · exact h.ok _
        · split
          · exact h.ok _
          · exact h.failed _

theorem makeDir (path : Str) : Within R (makeDir path) := by
  refine within_bind (h.consult _) fun found => ?_
  split
  · exact h.sysCall _
  · exact within_pure _

theorem makeOutcomeDir (path : Str) : Within R (makeOutcomeDir path) := by
  refine within_bind (h.consult _) fun found => ?_
  split
  · exact within_bind (h.sysCall _) fun _ => h.addperms _ _
  · exact within_pure _

theorem runOnLoginNode (msg : Str) (config : Settings) : Within R (BssCommon.runOnLoginNode msg config) := by
  refine within_bind within_ask fun r => within_bind (within_ofExcept _) fun uspaceDir => ?_
  refine within_bind (h.sysCall _) fun _ => within_bind (within_ofExcept _) fun outcomeDir => ?_
  refine within_bind (h.makeOutcomeDir _) fun _ => within_bind (h.consult _) fun submitId => ?_
  refine within_bind (h.writeText ⟨submitId, Or.inl rfl⟩ _) fun _ => within_bind (h.addperms _ _) fun _ => ?_
  refine within_bind (h.runCommand _ _ _ _) ?_
  rintro ⟨success, reply⟩
  dsimp only
  split
  · refine within_bind within_get fun s => ?_
    split
    · exact h.ok _
    · exact within_raise _
  · exact h.failed _

theorem getStatusListing (hooks : BssHooks) (msg : Str) (config : Settings) :
    Within R (BssCommon.getStatusListing hooks msg config) := by
  refine within_bind within_ask fun r => within_bind (h.runCommand _ _ _ _) ?_
  rintro ⟨success, output⟩
  dsimp only
  split
  · exact within_bind (within_ofExcept _) fun _ => h.ok _
  · exact h.failed _

theorem getJobDetails (hooks : BssHooks) (msg : Str) (config : Settings) :
    Within R (BssCommon.getJobDetails hooks msg config) := by
  refine within_bind (within_ofExcept _) fun detailsCmd => within_bind (within_ofExcept _) fun cmd => ?_
  refine within_bind (h.runCommand _ _ _ _) ?_
  rintro ⟨success, output⟩
  dsimp only
  split
  · exact within_bind (within_ofExcept _) fun _ => h.ok _
  · exact h.failed _

theorem getPartitions (hooks : BssHooks) (msg : Str) (config : Settings) :
    Within R (BssCommon.getPartitions hooks msg config) := by
  refine within_bind (h.runCommand _ _ _ _) ?_
  rintro ⟨success, output⟩
  dsimp only
  split
  · exact within_bind (within_ofExcept _) fun _ => h.ok _
  · exact h.failed _

theorem controlJob (key : String) (command : Option Str) (msg : Str) (config : Settings) :
    Within R (BssCommon.controlJob key command msg config) := by
  refine within_bind (within_ofExcept _) fun command => within_bind (within_ofExcept _) fun cmd => ?_
  exact h.runAndReport _ _

theorem nobatchSubmit (msg : Str) (config : Settings) : Within R (BssNobatch.submit msg config) := by
  refine within_bind within_ask fun r => within_bind (within_ofExcept _) fun timeoutcmd => ?_
  refine within_bind (within_ofExcept _) fun uspaceDir => within_bind (h.sysCall _) fun _ => ?_
  refine within_bind (within_ofExcept _) fun outcomeDir => within_bind (h.makeDir _) fun _ => ?_
  refine within_bind (h.addperms _ _) fun _ => within_bind (h.consult _) fun pid => ?_
  refine within_bind (h.consult _) fun millis => within_bind (h.writeText ⟨_, Or.inl rfl⟩ _) fun _ => ?_
  refine within_bind (h.addperms _ _) fun _ => within_bind (within_modify fun s => h.command s _) fun _ => ?_
  refine within_bind (h.attempt _) fun child => within_bind (within_modify fun s => h.child s child) fun _ => ?_
  exact h.ok _

/-! ## The chunk transfers -/

theorem getFileChunk (hout : ∀ s data, R s { s with dataOut := s.dataOut ++ data }) (msg : Str) (config : Settings) :
    Within R (Io.getFileChunk msg config) := by
  have hread : ∀ path fuel pos buf total remaining, Within R (Io.readChunk path fuel pos buf total remaining) := by
    intro path fuel
    induction fuel with
    | zero => exact fun _ _ _ _ _ s => refl_of R s
    | succ fuel ih =>
        intro pos buf total remaining
        unfold Io.readChunk
        split
        · refine within_bind (within_bind (h.attempt _) fun _ => within_bind within_get fun _ => within_pure _) fun data => ?_
          split
          · exact within_pure _
          · exact ih _ _ _ _
        · exact within_pure _
  have hwrite : ∀ buf total fuel offset left, Within R (Io.writeChunk buf total fuel offset left) := by
    intro buf total fuel
    induction fuel with
    | zero => exact fun _ _ _ s => refl_of R s
    | succ fuel ih =>
        intro offset left
        unfold Io.writeChunk
        split
        · refine within_bind (within_bind (h.attempt _) fun written => ?_) fun written => ih _ _
          exact within_bind (within_modify fun s => hout s _) fun _ => within_pure _
        · exact within_pure _
  have hsend : ∀ path pos (length : Int) fuel,
      Within R (Io.readChunk path fuel pos (List.replicate length.toNat 0) 0 length >>= fun chunk =>
        Connector.ok (some ("TSI_LENGTH ".toList ++ natText chunk.2 ++ "\nENDOFMESSAGE".toList)) >>= fun _ =>
        Io.writeChunk chunk.1 chunk.2 fuel 0 chunk.2) := by
    intro path pos length fuel
    exact within_bind (hread _ _ _ _ _ _) fun chunk => within_bind (h.ok _) fun _ => hwrite _ _ _ _ _
  refine within_bind within_ask fun r => within_bind (within_ofExcept _) fun path => ?_
  refine within_bind (within_ofExcept _) fun start => within_bind (within_ofExcept _) fun length => ?_
  refine h.withFile _ _ (within_bind (h.consult _) fun seekable => ?_)
  dsimp only
  split
  · refine within_bind (h.sysCall _) fun _ => ?_
    split
    · exact within_bind (within_raise _) fun _ => hsend _ _ _ _
    · exact hsend _ _ _ _
  · split
    · exact within_bind (within_raise _) fun _ => hsend _ _ _ _
    · exact hsend _ _ _ _

theorem putFileChunk (hin : ∀ s data, R s { s with dataIn := data }) {msg : Str}
    (hfile : ∀ path, Uploads msg path → ∀ s bytes,
      R s { s with files := fun p => if p = path then some bytes else s.files p }) (config : Settings) :
    Within R (Io.putFileChunk msg config) := by
  refine within_bind within_ask fun r => within_ofExcept_bind ?_
  rintro ⟨rawPath, mode⟩ hpath
  have hstore := hfile (expandVariables r.environ rawPath) ⟨r.environ, rawPath, mode, hpath, rfl⟩
  have hblock : ∀ fuel block, Within R (Io.writeBlock (expandVariables r.environ rawPath) fuel block) := by
    intro fuel
    induction fuel with
    | zero => exact fun _ _ s => refl_of R s
    | succ fuel ih =>
        intro block
        unfold Io.writeBlock
        split
        · exact within_pure _
        · refine within_bind (h.attempt _) fun wanted => ?_
          exact within_bind (within_modify fun s => hstore s _) fun _ => ih _
  have hcopy : ∀ fuel remaining,
      Within R (Io.copyBlocks (expandVariables r.environ rawPath) r.fuel fuel remaining) := by
    intro fuel
    induction fuel with
    | zero => exact fun _ _ s => refl_of R s
    | succ fuel ih =>
        intro remaining
        unfold Io.copyBlocks
        split
        · refine within_bind (within_bind (h.consult _) fun limit => within_bind within_get fun s => ?_) fun buf => ?_
          · exact within_bind (within_modify fun s => hin s _) fun _ => within_pure _
          · exact within_bind (hblock _ _) fun _ => ih _
        · exact within_pure _
  refine within_bind (within_ofExcept _) fun length => within_bind (h.withFile _ _ ?_) fun _ => ?_
  · refine within_bind (within_modify fun s => hstore s _) fun _ => ?_
    exact within_bind (h.ok _) fun _ => hcopy _ _
  · refine within_handle (within_bind (within_ofExcept _) fun bits => h.sysCall _) fun e => ?_
    split
    · exact within_pure _
    · exact within_raise _

/-! ## The table -/

/-- The functions of a variant are made of these steps. -/
theorem bssFunctions (v : Variant) (msg : Str) (config : Settings) : BssWithin R v.bss msg config := by
  have hbase : ∀ hooks : BssHooks, BssWithin R (base hooks) msg config := fun hooks =>
    { submit := h.submit hooks msg config
      runOnLoginNode := h.runOnLoginNode msg config
      getStatusListing := h.getStatusListing hooks msg config
      getProcessListing := h.runAndReport _ _
      getJobDetails := h.getJobDetails hooks msg config
      getPartitions := h.getPartitions hooks msg config
      abortJob := within_bind (within_ofExcept _) fun _ => h.runAndReport _ _
      holdJob := h.controlJob _ _ msg config
      resumeJob := h.controlJob _ _ msg config
      getBudget := h.ok _ }
  cases v with
  | nobatch =>
      have hnobatch : BssWithin R (base BssNobatch.nobatchHooks) msg config := hbase _
      exact { hnobatch with
        submit := h.nobatchSubmit msg config
        getJobDetails := h.ok _
        holdJob := h.ok _
        resumeJob := h.ok _ }
  | slurm => exact hbase _
  | torque => exact hbase _
  | lsf => exact hbase _

/-- Every function of the table but the two chunk transfers is made of these steps. -/
theorem table (v : Variant) {entry : Str × Tsi.Function} (hentry : entry ∈ Tsi.initFunctions v.bss) :
    entry = ("TSI_GETFILECHUNK".toList, Io.getFileChunk) ∨ entry = ("TSI_PUTFILECHUNK".toList, Io.putFileChunk) ∨
      ∀ msg config, Within R (entry.2 msg config) := by
  have hbss := h.bssFunctions v
  have hreservation : Within R reservationNotSupported := h.failed _
  simp only [Tsi.initFunctions, List.mem_cons, List.not_mem_nil, or_false] at hentry
  rcases hentry with rfl | rfl | rfl | rfl | rfl | rfl | rfl | rfl | rfl | rfl | rfl | rfl | rfl | rfl | rfl | rfl |
    rfl | rfl | rfl | rfl | rfl | rfl | rfl
  case inr.inr.inr.inr.inl => exact Or.inl rfl
  case inr.inr.inr.inr.inr.inl => exact Or.inr (Or.inl rfl)
  all_goals refine Or.inr (Or.inr fun msg config => ?_)
  · exact h.ok _
  · exact within_bind (h.ok _) fun _ => h.writeMessage _
  · exact h.getUserInfo _ _
  · exact h.executeScript _ _
  · exact h.ls _ config
  · exact h.df _ _
  · exact h.uftp _ _
  · exact (hbss msg config).submit
  · exact (hbss msg config).runOnLoginNode
  · exact (hbss msg config).getStatusListing
  · exact (hbss msg config).getProcessListing
  · exact (hbss msg config).getJobDetails
  · exact (hbss msg config).getPartitions
  · exact (hbss msg config).abortJob
  · exact (hbss msg config).holdJob
  · exact (hbss msg config).resumeJob
  · exact (hbss msg config).getBudget
  · exact hreservation
  · exact hreservation
  · exact hreservation
  · exact h.processAcl _ _

end TableSteps

end UnicoreTsi
