/-
# UnicoreTsi.Serving — what the main process does with a sequence of connections.

Two results about every sequence.  Nothing is done for a peer that has not passed both checks
(`acts_only_when_verified`): the checks come first, and a connection they do not accept leaves the state of
the server as it was.  And the loop goes on, or ends on the shutdown command of a verified peer, as long as no
connection is of a kind that raises something other than an `EnvironmentError` where only these are caught
(`serve_goes_on`); `Harmless` lists the kinds.
-/
import UnicoreTsi.Server

set_option autoImplicit false

namespace UnicoreTsi.Server

open UnicoreTsi.Text UnicoreTsi.Effects UnicoreTsi.Utils UnicoreTsi.BssCommon UnicoreTsi.Configuration

/-! ## Verified peers -/

/-- Both checks accept the peer. -/
def Verified (config : ServerConfig) (c : Connection) : Prop :=
  ∃ unicorexHost, c.accept = .ok unicorexHost ∧ verifySubject config c = .ok () ∧
    verifyIp config unicorexHost = .ok ()

section Run

variable {α β : Type} {c : Connection} {s s' : ServerState}

theorem guarded_done {x : ServerM α} {a : α} (h : x c s = (.done a, s')) :
    guarded x c s = (.done (some a), s') :=
  handle_run_done (bind_run_done h)

theorem guarded_caught {x : ServerM α} {e : PyExc} (h : x c s = (.raised e, s')) (he : e.isOSError = true) :
    guarded x c s = (.done none, s') := by
  rw [guarded, handle_run_raised (bind_run_raised h), if_pos he]
  rfl

theorem guarded_raised {x : ServerM α} {e : PyExc} (h : x c s = (.raised e, s')) (he : e.isOSError = false) :
    guarded x c s = (.raised e, s') := by
  rw [guarded, handle_run_raised (bind_run_raised h), he]
  rfl

/-- A check only looks. -/
theorem guarded_check (res : Except PyExc α) (f : Option α → ServerM β) :
    (∃ a, res = .ok a ∧ (guarded (ofExcept res) >>= f) c s = f (some a) c s) ∨
      (∃ e, res = .error e ∧ e.isOSError = true ∧ (guarded (ofExcept res) >>= f) c s = f none c s) ∨
      ∃ e, res = .error e ∧ e.isOSError = false ∧ (guarded (ofExcept res) >>= f) c s = (.raised e, s) := by
  cases res with
  | ok a => exact Or.inl ⟨a, rfl, bind_run_done (guarded_done rfl)⟩
  | error e =>
      cases he : e.isOSError with
      | true => exact Or.inr (Or.inl ⟨e, rfl, he, bind_run_done (guarded_caught rfl he)⟩)
      | false => exact Or.inr (Or.inr ⟨e, rfl, he, bind_run_raised (guarded_raised rfl he)⟩)

theorem handleConnection_verified (h : Verified s.config c) : handleConnection c s = serveVerified c s := by
  obtain ⟨unicorexHost, haccept, hsubject, hip⟩ := h
  rw [handleConnection, bind_run_done ask_run, haccept]
  show (get >>= _) c s = _
  rw [bind_run_done get_run, hsubject, hip, bind_run_done (guarded_done rfl)]
  show (guarded _ >>= _) c s = _
  rw [bind_run_done (guarded_done rfl)]

/-- A connection that is not accepted by both checks leaves everything as it was. -/
theorem handleConnection_unverified (h : ¬ Verified s.config c) : (handleConnection c s).2 = s := by
  rw [handleConnection, bind_run_done ask_run]
  cases haccept : c.accept with
  | error e =>
      dsimp only
      split <;> rfl
  | ok unicorexHost =>
      show ((get >>= _) c s).2 = s
      rw [bind_run_done get_run]
      rcases guarded_check (c := c) (s := s) (verifySubject s.config c) _ with
        ⟨⟨⟩, hsubject, hrun⟩ | ⟨e, -, -, hrun⟩ | ⟨e, -, -, hrun⟩
      · rw [hrun]
        dsimp only
        rcases guarded_check (c := c) (s := s) (verifyIp s.config unicorexHost) _ with
          ⟨⟨⟩, hip, hrun'⟩ | ⟨e, -, -, hrun'⟩ | ⟨e, -, -, hrun'⟩
        · exact absurd ⟨unicorexHost, haccept, hsubject, hip⟩ h
        · rw [hrun']
          rfl
        · rw [hrun']
      · rw [hrun]
        rfl
      · rw [hrun]

end Run

/-! ## What is left unchanged -/

/-- What a callback changes, step by step. -/
structure CallSteps (R : ServerState → ServerState → Prop) : Prop where
  records : ∀ s act, act ≠ .countWorker → R s { s with acts := s.acts ++ [act] }
  attempts : ∀ s, R s { s with attempts := s.attempts + 1 }
  rotates : ∀ s range, R s { s with config := { s.config with portRange := range } }

/-- What an iteration of the loop changes that starts no worker. -/
structure LoopSteps (R : ServerState → ServerState → Prop) : Prop extends CallSteps R where
  sets : ∀ s settings, R s { s with config := { s.config with settings := settings } }

section Steps

variable {R : ServerState → ServerState → Prop} [Std.Refl R] [IsTrans ServerState R]

theorem raising_within (answer : Connection → Option PyExc) : Within R (raising answer) := by
  refine within_bind within_ask fun c => ?_
  cases answer c with
  | none => exact within_pure ()
  | some e => exact within_raise e

theorem guarded_within {α : Type} {x : ServerM α} (hx : Within R x) : Within R (guarded x) := by
  refine within_handle (within_bind hx fun _ => within_pure _) fun e => ?_
  split
  · exact within_pure none
  · exact within_raise e

theorem closeSockets_within (numConns i : Nat) : Within R (closeSockets numConns i) := by
  induction numConns generalizing i with
  | zero => exact within_pure ()
  | succ numConns ih => exact within_bind (raising_within _) fun _ => ih (i + 1)

omit [Std.Refl R] [IsTrans ServerState R] in
theorem record_within (h : CallSteps R) {act : Act} (hact : act ≠ .countWorker) : Within R (record act) :=
  within_modify fun s => h.records s act hact

theorem createConnection_within (h : CallSteps R) (localPort : Int) : Within R (createConnection localPort) := by
  refine within_bind (record_within h (by simp)) fun _ => within_bind within_ask fun c => within_bind within_get fun s => ?_
  exact within_bind (within_modify h.attempts) fun _ => within_pure _

theorem tryPorts_within (h : CallSteps R) (range : PortRange) (attempts : Nat) (localPort : Int) :
    Within R (tryPorts range attempts localPort) := by
  induction attempts generalizing localPort with
  | zero => exact within_raise _
  | succ attempts ih =>
      refine within_bind (createConnection_within h localPort) fun answer => ?_
      cases answer with
      | none =>
          dsimp only
          split
          · exact within_modify fun s => h.rotates s _
          · exact within_pure ()
      | some e =>
          dsimp only
          split
          · exact ih _
          · exact within_raise e

theorem openSockets_within (h : CallSteps R) (sslMode : Bool) (numConns i : Nat) :
    Within R (openSockets sslMode numConns i) := by
  induction numConns generalizing i with
  | zero => exact within_pure ()
  | succ numConns ih =>
      refine within_bind (within_bind within_get fun s => tryPorts_within h _ _ _) fun _ => ?_
      have htune : Within R (do
          raising fun c => c.configureCallback i
          openSockets sslMode numConns (i + 1)) := within_bind (raising_within _) fun _ => ih (i + 1)
      split
      · exact within_bind (raising_within _) fun _ => htune
      · exact htune

theorem callBack_within (h : CallSteps R) (params : Str) (numConns : Nat) : Within R (callBack params numConns) := by
  refine within_bind (raising_within _) fun _ => within_bind within_get fun s => ?_
  split
  · exact within_raise _
  · exact openSockets_within h _ _ _

theorem setSetting_within (h : LoopSteps R) (params : Str) : Within R (setSetting params) := by
  unfold setSetting
  split
  · exact within_raise _
  · refine within_bind (record_within h.toCallSteps (by simp)) fun _ => ?_
    exact within_bind (within_modify fun s => h.sets s _) fun _ => within_pure _

/-- An iteration of the loop, if the start of a worker is covered. -/
theorem serveVerified_within (h : LoopSteps R) (hstart : ∀ params numConns, Within R (startWorker params numConns)) :
    Within R serveVerified := by
  refine within_bind (raising_within _) fun _ => ?_
  have hread : Within R readCommand := by
    refine within_bind (record_within h.toCallSteps (by simp)) fun _ => within_bind within_ask fun c => ?_
    exact within_bind (within_ofExcept _) fun _ => within_bind (within_ofExcept _) fun _ => within_pure _
  refine within_bind (guarded_within hread) fun msg => ?_
  cases msg with
  | none => exact within_pure _
  | some msg =>
      show Within R (handleCommand msg)
      unfold handleCommand
      obtain ⟨cmd, params⟩ := parseCommand msg
      dsimp only
      split
      · exact within_bind (record_within h.toCallSteps (by simp)) fun _ => within_pure _
      · split
        · exact hstart _ _
        · split
          · exact hstart _ _
          · split
            · exact setSetting_within h _
            · exact within_pure _

theorem handleConnection_keeps (h : LoopSteps R) (hstart : ∀ params numConns, Within R (startWorker params numConns))
    (c : Connection) (s : ServerState) : R s (handleConnection c s).2 := by
  by_cases hverified : Verified s.config c
  · rw [handleConnection_verified hverified]
    exact serveVerified_within h hstart c s
  · rw [handleConnection_unverified hverified]
    exact refl_of R s

/-- All the iterations. -/
theorem serve_keeps (h : LoopSteps R) (hstart : ∀ params numConns, Within R (startWorker params numConns))
    (conns : List Connection) (s : ServerState) : R s (serve conns s).2 := by
  induction conns generalizing s with
  | nil => exact refl_of R s
  | cons c conns ih =>
      have hstep := handleConnection_keeps h hstart c s
      rw [serve]
      split
      · rename_i s' hnext
        rw [hnext] at hstep
        exact trans_of R hstep (ih s')
      · exact hstep

end Steps

/-- Only the range of local ports moves on, and what is done is recorded. -/
def CallsBack (s s' : ServerState) : Prop :=
  ∃ portRange acts attempts, s' =
    { config := { s.config with portRange := portRange }, acts := acts, attempts := attempts }

instance : Std.Refl CallsBack := ⟨fun s => ⟨s.config.portRange, s.acts, s.attempts, rfl⟩⟩

instance : IsTrans ServerState CallsBack := ⟨by
  rintro _ _ _ ⟨_, _, _, rfl⟩ ⟨portRange, acts, attempts, rfl⟩
  exact ⟨portRange, acts, attempts, rfl⟩⟩

theorem callBack_callsBack (params : Str) (numConns : Nat) : Within CallsBack (callBack params numConns) := by
  refine callBack_within ⟨?_, ?_, ?_⟩ params numConns
  · intro s act _
    exact ⟨s.config.portRange, s.acts ++ [act], s.attempts, rfl⟩
  · intro s
    exact ⟨s.config.portRange, s.acts, s.attempts + 1, rfl⟩
  · intro s range
    exact ⟨range, s.acts, s.attempts, rfl⟩

/-- What decides who is accepted stays as it is. -/
def SameChecks (s s' : ServerState) : Prop :=
  s'.config.sslMode = s.config.sslMode ∧ s'.config.allowedIps = s.config.allowedIps ∧
    s'.config.allowedDns = s.config.allowedDns

instance : Std.Refl SameChecks := ⟨fun _ => ⟨rfl, rfl, rfl⟩⟩

instance : IsTrans ServerState SameChecks :=
  ⟨fun _ _ _ h h' => ⟨h'.1.trans h.1, h'.2.1.trans h.2.1, h'.2.2.trans h.2.2⟩⟩

theorem sameChecks_steps : LoopSteps SameChecks where
  records _ _ _ := ⟨rfl, rfl, rfl⟩
  attempts _ := ⟨rfl, rfl, rfl⟩
  rotates _ _ := ⟨rfl, rfl, rfl⟩
  sets _ _ := ⟨rfl, rfl, rfl⟩

theorem startWorker_sameChecks (params : Str) (numConns : Nat) : Within SameChecks (startWorker params numConns) := by
  refine within_bind (guarded_within (callBack_within sameChecks_steps.toCallSteps params numConns)) fun called => ?_
  cases called with
  | none => exact within_pure _
  | some _ =>
      refine within_bind within_get fun s => within_bind (within_ofExcept _) fun workerId => ?_
      refine within_bind (record_within sameChecks_steps.toCallSteps (by simp)) fun _ => ?_
      refine within_bind (raising_within _) fun _ => ?_
      refine within_bind (closeSockets_within _ _) fun _ => ?_
      refine within_bind (within_modify fun _ => ⟨rfl, rfl, rfl⟩) fun _ => ?_
      exact within_bind (within_modify fun _ => ⟨rfl, rfl, rfl⟩) fun _ => within_pure _

theorem handleConnection_sameChecks (c : Connection) (s : ServerState) : SameChecks s (handleConnection c s).2 :=
  handleConnection_keeps sameChecks_steps startWorker_sameChecks c s

theorem serve_sameChecks (conns : List Connection) (s : ServerState) : SameChecks s (serve conns s).2 :=
  serve_keeps sameChecks_steps startWorker_sameChecks conns s

/-! ## No effect before verification -/

/-- The server when it starts to listen. -/
def listening (config : ServerConfig) : ServerState := { config := config, acts := [], attempts := 0 }

/-- The address of the peer is one of the allowed ones and, in SSL mode, its certificate is accepted. -/
def Accepted (config : ServerConfig) (allowedIps : List Str) (c : Connection) : Prop :=
  (∃ unicorexHost, c.accept = .ok unicorexHost ∧ unicorexHost ∈ allowedIps) ∧
    (config.sslMode = true → ∃ subject, c.getpeercert = .ok subject ∧ verifyPeer config.allowedDns subject = .ok ())

theorem verified_iff {config : ServerConfig} {allowedIps : List Str} (hips : config.allowedIps = some allowedIps)
    {c : Connection} : Verified config c ↔ Accepted config allowedIps c := by
  have hip : ∀ unicorexHost, verifyIp config unicorexHost = .ok () ↔ unicorexHost ∈ allowedIps := by
    intro unicorexHost
    rw [verifyIp, hips]
    dsimp only
    split
    · rename_i hmem
      exact ⟨fun _ => hmem, fun _ => rfl⟩
    · rename_i hmem
      exact ⟨nofun, fun h => absurd h hmem⟩
  have hsubject : verifySubject config c = .ok () ↔
      (config.sslMode = true → ∃ subject, c.getpeercert = .ok subject ∧
        verifyPeer config.allowedDns subject = .ok ()) := by
    rw [verifySubject]
    split
    · rename_i hssl
      rw [except_bind_eq_ok]
      exact ⟨fun h _ => h, fun h => h hssl⟩
    · rename_i hssl
      exact ⟨fun _ h => absurd h hssl, fun _ => rfl⟩
  unfold Verified Accepted
  rw [← hsubject]
  constructor
  · rintro ⟨unicorexHost, haccept, hs, hv⟩
    exact ⟨⟨unicorexHost, haccept, (hip _).mp hv⟩, hs⟩
  · rintro ⟨⟨unicorexHost, haccept, hmem⟩, hs⟩
    exact ⟨unicorexHost, haccept, hs, (hip _).mpr hmem⟩

/-- **No effect before verification.**  Whatever has come in before, acts happen for accepted peers only, and
the settings change for no other. -/
theorem acts_only_when_verified {config : ServerConfig} {allowedIps : List Str}
    (hips : config.allowedIps = some allowedIps) {conns : List Connection} {s : ServerState}
    (hserved : serve conns (listening config) = (.done .next, s)) (c : Connection) :
    ((handleConnection c s).2.acts ≠ s.acts → Accepted config allowedIps c) ∧
      (¬ Accepted config allowedIps c → (handleConnection c s).2.config = s.config) := by
  have hsame := serve_sameChecks conns (listening config)
  rw [hserved] at hsame
  obtain ⟨hssl, hips', hdns⟩ : s.config.sslMode = config.sslMode ∧ s.config.allowedIps = config.allowedIps ∧
      s.config.allowedDns = config.allowedDns := hsame
  have hverified : Verified s.config c ↔ Accepted config allowedIps c := by
    rw [verified_iff (hips'.trans hips), Accepted, Accepted, hssl, hdns]
  rw [← hverified]
  constructor
  · intro hacts
    by_contra hnot
    exact hacts (congrArg ServerState.acts (handleConnection_unverified hnot))
  · intro hnot
    rw [handleConnection_unverified hnot]

/-- A server that lets one address connect. -/
def localServer : ServerConfig :=
  { sslMode := false, allowedIps := some ["127.0.0.1".toList], allowedDns := [], unicorexPort := none,
    portRange := ⟨24000, 24000, 24001⟩, workerId := .int 1, settings := [] }

/-- A peer that sends a command; nothing goes wrong outside. -/
def peer (unicorexHost msg : Str) : Connection :=
  { accept := .ok unicorexHost, getpeercert := .ok [], configureSocket := none, recv := .ok (encodeUtf8 msg),
    sendall := none, createConnection := fun _ _ => none, setupSsl := fun _ => none,
    configureCallback := fun _ => none, fork := none, close := fun _ => none }

theorem acts_only_when_verified_localServer :
    ∃ s, serve [peer "127.0.0.1".toList "set a b".toList] (listening localServer) = (.done .next, s) ∧
      ((handleConnection (peer "10.0.0.1".toList "set a c".toList) s).2.acts ≠ s.acts →
        Accepted localServer ["127.0.0.1".toList] (peer "10.0.0.1".toList "set a c".toList)) ∧
      (¬ Accepted localServer ["127.0.0.1".toList] (peer "10.0.0.1".toList "set a c".toList) →
        (handleConnection (peer "10.0.0.1".toList "set a c".toList) s).2.config = s.config) := by
  have hserved : serve [peer "127.0.0.1".toList "set a b".toList] (listening localServer) =
      (.done .next, (serve [peer "127.0.0.1".toList "set a b".toList] (listening localServer)).2) :=
    Prod.ext (by decide +kernel) rfl
  exact ⟨_, hserved, acts_only_when_verified rfl hserved (peer "10.0.0.1".toList "set a c".toList)⟩

/-! ## Connections that end the loop -/

/-- An exception that `except EnvironmentError` catches, if any. -/
def Caught {α : Type} (res : Except PyExc α) : Prop := ∀ e, res = .error e → e.isOSError = true

/-- The command of the connection, once it has been read. -/
def Says (c : Connection) (cmd params : Str) : Prop :=
  ∃ bytes text, c.recv = .ok bytes ∧ decode bytes = .ok text ∧ splitOnce ' ' (strip text) = some (cmd, params)

/-- An attempt to connect from a port of the range that finds the port in use. -/
def InUse (range : PortRange) : Option PyExc → Prop
  | none => False
  | some e => range.used = true ∧ e.isOSError = true ∧ e.errno = eaddrinuse

/-- A call of `open_connection` whose first attempt is number `k` ends with its attempt number `j`: the ports
before are in use, and this one is not. -/
structure EndsAt (c : Connection) (range : PortRange) (k j : Nat) : Prop where
  within : j < range.maxAttempts
  before : ∀ i < j, InUse range (c.createConnection (k + i) (range.after^[i] range.next))
  ends : ¬ InUse range (c.createConnection (k + j) (range.after^[j] range.next))

/-- The answer that ends it. -/
def lastAnswer (c : Connection) (range : PortRange) (k j : Nat) : Option PyExc :=
  c.createConnection (k + j) (range.after^[j] range.next)

/-- The range after a call that has connected with attempt number `j`. -/
def PortRange.rotated (range : PortRange) (j : Nat) : PortRange :=
  if range.used then { range with next := range.after (range.after^[j] range.next) } else range

/-- The sockets of a callback, from number `i` on, with a range and a number of attempts made before: none is
refused but by an `EnvironmentError`, and whether all are opened. -/
inductive Opens (c : Connection) (sslMode : Bool) : Nat → Nat → PortRange → Nat → Bool → Prop
  | done (i : Nat) (range : PortRange) (k : Nat) : Opens c sslMode 0 i range k true
  | refused {numConns i : Nat} {range : PortRange} {k j : Nat} {e : PyExc} (hends : EndsAt c range k j)
      (hanswer : lastAnswer c range k j = some e) (he : e.isOSError = true) :
      Opens c sslMode (numConns + 1) i range k false
  | unsecured {numConns i : Nat} {range : PortRange} {k j : Nat} {e : PyExc} (hends : EndsAt c range k j)
      (hanswer : lastAnswer c range k j = none) (hssl : sslMode = true) (hsetup : c.setupSsl i = some e)
      (he : e.isOSError = true) : Opens c sslMode (numConns + 1) i range k false
  | unconfigured {numConns i : Nat} {range : PortRange} {k j : Nat} {e : PyExc} (hends : EndsAt c range k j)
      (hanswer : lastAnswer c range k j = none) (hssl : sslMode = true → c.setupSsl i = none)
      (hconfigure : c.configureCallback i = some e) (he : e.isOSError = true) :
      Opens c sslMode (numConns + 1) i range k false
  | next {numConns i : Nat} {range : PortRange} {k j : Nat} {opened : Bool} (hends : EndsAt c range k j)
      (hanswer : lastAnswer c range k j = none) (hssl : sslMode = true → c.setupSsl i = none)
      (hconfigure : c.configureCallback i = none)
      (hrest : Opens c sslMode numConns (i + 1) (range.rotated j) (k + j + 1) opened) :
      Opens c sslMode (numConns + 1) i range k opened

/-- The number of sockets a command asks for. -/
def socketsOf (cmd : Str) : Option Nat :=
  if cmd = "start-forwarding".toList then some 1
  else if cmd = "newtsiprocess".toList then some 2
  else none

/-- Nothing escapes while a worker is started in the state `s`. -/
def WorkerStarts (s : ServerState) (c : Connection) (numConns : Nat) : Prop :=
  (∀ e, c.sendall = some e → e.isOSError = true) ∧
    (c.sendall = none → ∃ opened, Opens c s.config.sslMode numConns 0 s.config.portRange s.attempts opened ∧
      (opened = true → (∃ n, s.config.workerId = .int n) ∧ c.fork = none ∧ ∀ i < numConns, c.close i = none))

/-- A connection that does not end the loop by an exception, in the state `s`: the handshake succeeds; the
certificate is compared without stumbling; and for a verified peer the socket can be configured, the command
is UTF-8, a `set` has a blank in its parameters, and a worker is started without anything escaping. -/
structure Harmless (s : ServerState) (c : Connection) : Prop where
  accepted : ∃ unicorexHost, c.accept = .ok unicorexHost
  compared : Caught (verifySubject s.config c)
  configured : Verified s.config c → c.configureSocket = none
  received : Verified s.config c → Caught c.recv
  decoded : Verified s.config c → ∀ bytes, c.recv = .ok bytes → ∃ text, decode bytes = .ok text
  set : Verified s.config c → ∀ params, Says c "set".toList params → ' ' ∈ params
  worker : Verified s.config c → ∀ cmd params numConns, Says c cmd params → socketsOf cmd = some numConns →
    WorkerStarts s c numConns

/-! ## Harmless connections -/

section Goes

variable {c : Connection} {s : ServerState}

theorem createConnection_run (localPort : Int) (c : Connection) (s : ServerState) :
    createConnection localPort c s = (.done (c.createConnection s.attempts localPort),
      { s with acts := s.acts ++ [.callback localPort], attempts := s.attempts + 1 }) := rfl

/-- The state after an attempt to connect. -/
def afterAttempt (port : Int) (s : ServerState) : ServerState :=
  { s with acts := s.acts ++ [.callback port], attempts := s.attempts + 1 }

/-- The attempt succeeds: the loop is over, and the next call begins with the next port. -/
theorem tryPorts_connected {port : Int} (hanswer : c.createConnection s.attempts port = none) (range : PortRange)
    (n : Nat) :
    tryPorts range (n + 1) port c s = (.done (), if range.used then
      { afterAttempt port s with
        config := { s.config with portRange := { range with next := range.after port } } }
      else afterAttempt port s) := by
  rw [tryPorts, bind_run_done (createConnection_run port c s), hanswer]
  dsimp only
  split <;> rfl

/-- The port is in use: the loop goes on with the next one. -/
theorem tryPorts_inUse {range : PortRange} {port : Int} (hbusy : InUse range (c.createConnection s.attempts port))
    (n : Nat) : tryPorts range (n + 1) port c s = tryPorts range n (range.after port) c (afterAttempt port s) := by
  rw [tryPorts, bind_run_done (createConnection_run port c s)]
  cases hanswer : c.createConnection s.attempts port with
  | none =>
      rw [hanswer] at hbusy
      exact absurd hbusy id
  | some e =>
      rw [hanswer] at hbusy
      obtain ⟨hused, hos, herrno⟩ := hbusy
      have htaken : (e.isOSError && range.used && decide (e.errno = eaddrinuse)) = true := by
        simp [hused, hos, herrno]
      dsimp only
      rw [if_pos htaken]
      rfl

/-- Anything else that goes wrong ends the loop. -/
theorem tryPorts_failed {range : PortRange} {port : Int} {e : PyExc}
    (hanswer : c.createConnection s.attempts port = some e) (hfree : ¬ InUse range (some e)) (n : Nat) :
    tryPorts range (n + 1) port c s = (.raised e, afterAttempt port s) := by
  have hother : ¬ (e.isOSError && range.used && decide (e.errno = eaddrinuse)) = true := by
    simp only [Bool.and_eq_true, decide_eq_true_eq]
    exact fun h => hfree ⟨h.1.2, h.1.1, h.2⟩
  rw [tryPorts, bind_run_done (createConnection_run port c s), hanswer]
  dsimp only
  rw [if_neg hother]
  rfl

/-- What the attempts of one call leave behind. -/
theorem tryPorts_run {range : PortRange} {j attempts k : Nat} {port : Int} (hk : s.attempts = k)
    (hlt : j < attempts) (hbefore : ∀ i < j, InUse range (c.createConnection (k + i) (range.after^[i] port)))
    (hends : ¬ InUse range (c.createConnection (k + j) (range.after^[j] port))) :
    ∃ s', (tryPorts range attempts port c s = match c.createConnection (k + j) (range.after^[j] port) with
      | none => (.done (), s')
      | some e => (.raised e, s')) ∧
      (c.createConnection (k + j) (range.after^[j] port) = none → s'.attempts = k + j + 1 ∧
        s'.config.portRange =
          if range.used then { range with next := range.after (range.after^[j] port) } else s.config.portRange) := by
  obtain ⟨attempts, rfl⟩ := Nat.exists_eq_succ_of_ne_zero (Nat.ne_zero_of_lt hlt)
  subst hk
  induction j generalizing attempts port s with
  | zero =>
      simp only [Nat.add_zero, Function.iterate_zero, id] at hends ⊢
      cases hanswer : c.createConnection s.attempts port with
      | none =>
          rw [tryPorts_connected hanswer]
          refine ⟨_, rfl, fun _ => ?_⟩
          split <;> exact ⟨rfl, rfl⟩
      | some e =>
          rw [hanswer] at hends
          exact ⟨_, tryPorts_failed hanswer hends attempts, nofun⟩
  | succ j ih =>
      have hfirst : InUse range (c.createConnection s.attempts port) := hbefore 0 (Nat.zero_lt_succ j)
      rw [tryPorts_inUse hfirst]
      obtain ⟨attempts, rfl⟩ := Nat.exists_eq_succ_of_ne_zero (Nat.ne_zero_of_lt (Nat.lt_of_succ_lt_succ hlt))
      -- the attempts that are left start one further on, with the next port
      have hshift : ∀ i, s.attempts + (i + 1) = (afterAttempt port s).attempts + i := fun i => by
        rw [afterAttempt, Nat.add_right_comm, Nat.add_assoc]
      rw [hshift j, Function.iterate_succ_apply] at hends ⊢
      refine ih attempts (Nat.lt_of_succ_lt_succ hlt) (fun i hi => ?_) hends
      have hbusy := hbefore (i + 1) (Nat.succ_lt_succ hi)
      rwa [hshift, Function.iterate_succ_apply] at hbusy

theorem openConnection_run {j : Nat} (hends : EndsAt c s.config.portRange s.attempts j) :
    ∃ s', (openConnection c s = match lastAnswer c s.config.portRange s.attempts j with
      | none => (.done (), s')
      | some e => (.raised e, s')) ∧
      (lastAnswer c s.config.portRange s.attempts j = none →
        s'.attempts = s.attempts + j + 1 ∧ s'.config.portRange = s.config.portRange.rotated j) :=
  tryPorts_run rfl hends.within hends.before hends.ends

theorem raising_none {answer : Connection → Option PyExc} (h : answer c = none) :
    raising answer c s = (.done (), s) := by
  rw [raising, bind_run_done ask_run, h]
  rfl

theorem raising_some {answer : Connection → Option PyExc} {e : PyExc} (h : answer c = some e) :
    raising answer c s = (.raised e, s) := by
  rw [raising, bind_run_done ask_run, h]
  rfl

/-- The sockets of a callback are opened, or an `EnvironmentError` is raised. -/
theorem openSockets_run {sslMode opened : Bool} {numConns i k : Nat} {range : PortRange}
    (hopens : Opens c sslMode numConns i range k opened) (hrange : s.config.portRange = range)
    (hk : s.attempts = k) :
    (opened = true ∧ ∃ s', openSockets sslMode numConns i c s = (.done (), s')) ∨
      (opened = false ∧ ∃ e s', openSockets sslMode numConns i c s = (.raised e, s') ∧ e.isOSError = true) := by
  induction hopens generalizing s with
  | done i range k => exact Or.inl ⟨rfl, s, rfl⟩
  | refused hends hanswer he =>
      subst hrange hk
      obtain ⟨s', hrun, -⟩ := openConnection_run hends
      rw [hanswer] at hrun
      exact Or.inr ⟨rfl, _, s', bind_run_raised hrun, he⟩
  | unsecured hends hanswer hssl hsetup he =>
      subst hrange hk
      obtain ⟨s', hrun, -⟩ := openConnection_run hends
      rw [hanswer] at hrun
      refine Or.inr ⟨rfl, _, s', ?_, he⟩
      rw [openSockets, bind_run_done hrun, if_pos hssl]
      exact bind_run_raised (raising_some hsetup)
  | unconfigured hends hanswer hssl hconfigure he =>
      subst hrange hk
      obtain ⟨s', hrun, -⟩ := openConnection_run hends
      rw [hanswer] at hrun
      refine Or.inr ⟨rfl, _, s', ?_, he⟩
      rw [openSockets, bind_run_done hrun]
      split
      · rename_i hmode
        rw [bind_run_done (raising_none (hssl hmode))]
        exact bind_run_raised (raising_some hconfigure)
      · exact bind_run_raised (raising_some hconfigure)
  | @next numConns i range k j opened hends hanswer hssl hconfigure hrest ih =>
      subst hrange hk
      obtain ⟨s', hrun, hafter⟩ := openConnection_run hends
      rw [hanswer] at hrun
      obtain ⟨hattempts, hrotated⟩ := hafter hanswer
      have hsockets := ih hrotated hattempts
      have hfirst : openSockets sslMode (numConns + 1) i c s = openSockets sslMode numConns (i + 1) c s' := by
        rw [openSockets, bind_run_done hrun]
        split
        · rename_i hmode
          exact (bind_run_done (raising_none (hssl hmode))).trans (bind_run_done (raising_none hconfigure))
        · exact bind_run_done (raising_none hconfigure)
      rw [hfirst]
      exact hsockets

theorem getUnicorexPort_isSome (config : ServerConfig) (params : Str) :
    ∃ port, getUnicorexPort config params = some port := by
  unfold getUnicorexPort
  split
  · exact ⟨_, rfl⟩
  · split
    · exact ⟨_, rfl⟩
    · exact ⟨_, rfl⟩

theorem closeSockets_run {numConns i : Nat} (h : ∀ k, i ≤ k → k < i + numConns → c.close k = none) :
    closeSockets numConns i c s = (.done (), s) := by
  induction numConns generalizing i with
  | zero => rfl
  | succ numConns ih =>
      rw [closeSockets, bind_run_done (raising_none (h i le_rfl (by omega)))]
      apply ih
      intro k hk hlt
      exact h k (by omega) (by omega)

theorem record_run (act : Act) (c : Connection) (s : ServerState) :
    record act c s = (.done (), { s with acts := s.acts ++ [act] }) := rfl

/-- A worker that starts without anything escaping lets the loop go on. -/
theorem startWorker_goes {numConns : Nat} (params : Str) (h : WorkerStarts s c numConns) :
    (startWorker params numConns c s).1 = .done .next := by
  obtain ⟨hsendall, hopens⟩ := h
  -- an exception inside the `try` block
  have hcaught : ∀ e s', callBack params numConns c s = (.raised e, s') → e.isOSError = true →
      (startWorker params numConns c s).1 = .done .next := by
    intro e s' hraised he
    rw [startWorker, bind_run_done (guarded_caught hraised he)]
    rfl
  cases hsend : c.sendall with
  | some e => exact hcaught e s (bind_run_raised (raising_some hsend)) (hsendall e hsend)
  | none =>
      obtain ⟨opened, hsockets, hworker⟩ := hopens hsend
      obtain ⟨port, hport⟩ := getUnicorexPort_isSome s.config params
      have hcall : callBack params numConns c s = openSockets s.config.sslMode numConns 0 c s := by
        rw [callBack, bind_run_done (raising_none hsend), bind_run_done get_run, hport]
      rcases openSockets_run hsockets rfl rfl with ⟨hopened, s', hrun⟩ | ⟨-, e, s', hrun, he⟩
      · obtain ⟨⟨n, hnumber⟩, hfork, hclose⟩ := hworker hopened
        have hrun' : callBack params numConns c s = (.done (), s') := hcall.trans hrun
        have hkept := callBack_callsBack params numConns c s
        rw [hrun'] at hkept
        obtain ⟨_, _, _, rfl⟩ := hkept
        have hclosed : ∀ k, 0 ≤ k → k < 0 + numConns → c.close k = none := fun k _ hlt => hclose k (by omega)
        rw [startWorker, bind_run_done (guarded_done hrun')]
        dsimp only
        rw [bind_run_done get_run]
        dsimp only
        rw [hnumber, number, ofExcept_ok, pure_bind, bind_run_done (record_run _ _ _),
          bind_run_done (raising_none hfork), bind_run_done (closeSockets_run hclosed)]
        rfl
      · exact hcaught e s' (hcall.trans hrun) he

/-- What a command does to the loop. -/
theorem handleCommand_goes {msg : Str} (hset : ∀ params, splitOnce ' ' msg = some ("set".toList, params) → ' ' ∈ params)
    (hworker : ∀ cmd params numConns, splitOnce ' ' msg = some (cmd, params) → socketsOf cmd = some numConns →
      WorkerStarts s c numConns) :
    (handleCommand msg c s).1 = .done .next ∨
      ((handleCommand msg c s).1 = .done .exited ∧ ∃ params, splitOnce ' ' msg = some ("shutdown".toList, params)) := by
  unfold handleCommand parseCommand
  cases hsplit : splitOnce ' ' msg with
  | none => exact Or.inl rfl
  | some entry =>
      obtain ⟨cmd, params⟩ := entry
      rw [Option.getD_some]
      dsimp only
      split
      · rename_i hcmd
        exact Or.inr ⟨rfl, params, by rw [hcmd]⟩
      · left
        split
        · rename_i hcmd
          exact startWorker_goes params (hworker cmd params 1 hsplit (by rw [socketsOf, if_pos hcmd]))
        · split
          · rename_i hforward hcmd
            refine startWorker_goes params (hworker cmd params 2 hsplit ?_)
            rw [socketsOf, if_neg hforward, if_pos hcmd]
          · split
            · rename_i hcmd
              have hblank : ' ' ∈ params := hset params (by rw [hsplit, hcmd])
              cases hparams : splitOnce ' ' params with
              | none => exact absurd hblank (splitOnce_eq_none.mp hparams)
              | some entry =>
                  rw [setSetting, hparams]
                  rfl
            · rfl

/-- The loop goes on after the connection, or ends on the shutdown command of a verified peer. -/
def GoesOn (s : ServerState) (c : Connection) : Prop :=
  (handleConnection c s).1 = .done .next ∨
    ((handleConnection c s).1 = .done .exited ∧ Verified s.config c ∧ ∃ params, Says c "shutdown".toList params)

theorem Harmless.goesOn_verified (h : Harmless s c) (hverified : Verified s.config c) : GoesOn s c := by
  unfold GoesOn
  rw [handleConnection_verified hverified, serveVerified, bind_run_done (raising_none (h.configured hverified))]
  cases hrecv : c.recv with
  | error e =>
      have hread : readCommand c s = (.raised e, { s with acts := s.acts ++ [.readCommand] }) := by
        rw [readCommand, bind_run_done (record_run _ _ _), bind_run_done ask_run, hrecv]
        rfl
      rw [bind_run_done (guarded_caught hread (h.received hverified e hrecv))]
      exact Or.inl rfl
  | ok bytes =>
      obtain ⟨text, htext⟩ := h.decoded hverified bytes hrecv
      have hsaid : ∀ cmd params, splitOnce ' ' (strip text) = some (cmd, params) → Says c cmd params :=
        fun cmd params hsplit => ⟨bytes, text, hrecv, htext, hsplit⟩
      have hread : readCommand c s = (.done (strip text), { s with acts := s.acts ++ [.readCommand] }) := by
        rw [readCommand, bind_run_done (record_run _ _ _), bind_run_done ask_run, hrecv, ofExcept_ok, pure_bind,
          htext]
        rfl
      rw [bind_run_done (guarded_done hread)]
      have hset : ∀ params, splitOnce ' ' (strip text) = some ("set".toList, params) → ' ' ∈ params :=
        fun params hsplit => h.set hverified params (hsaid _ _ hsplit)
      have hworker : ∀ cmd params numConns, splitOnce ' ' (strip text) = some (cmd, params) →
          socketsOf cmd = some numConns →
          WorkerStarts { s with acts := s.acts ++ [.readCommand] } c numConns :=
        fun cmd params numConns hsplit hcount => h.worker hverified cmd params numConns (hsaid _ _ hsplit) hcount
      rcases handleCommand_goes hset hworker with hnext | ⟨hexited, params, hsplit⟩
      · exact Or.inl hnext
      · exact Or.inr ⟨hexited, hverified, params, hsaid _ _ hsplit⟩

theorem Harmless.goesOn (h : Harmless s c) : GoesOn s c := by
  by_cases hverified : Verified s.config c
  · exact h.goesOn_verified hverified
  · left
    obtain ⟨unicorexHost, haccept⟩ := h.accepted
    rw [handleConnection, bind_run_done ask_run, haccept]
    show ((get >>= _) c s).1 = _
    rw [bind_run_done get_run]
    rcases guarded_check (c := c) (s := s) (verifySubject s.config c) _ with
      ⟨⟨⟩, hsubject, hrun⟩ | ⟨e, -, -, hrun⟩ | ⟨e, herror, he, -⟩
    · rw [hrun]
      dsimp only
      rcases guarded_check (c := c) (s := s) (verifyIp s.config unicorexHost) _ with
        ⟨⟨⟩, hip, hrun'⟩ | ⟨e, -, -, hrun'⟩ | ⟨e, herror, he, -⟩
      · exact absurd ⟨unicorexHost, haccept, hsubject, hip⟩ hverified
      · rw [hrun']
        rfl
      · -- the check of the address raises nothing else
        unfold verifyIp at herror
        split at herror
        · cases herror
        · split at herror
          · cases herror
          · obtain rfl := Except.error.inj herror
            cases he
    · rw [hrun]
      rfl
    · rw [h.compared e herror] at he
      cases he

end Goes

/-! ## Survival -/

theorem Verified.of_sameChecks {s s' : ServerState} {c : Connection} (h : SameChecks s s')
    (hverified : Verified s'.config c) : Verified s.config c := by
  obtain ⟨hssl, hips, hdns⟩ := h
  obtain ⟨unicorexHost, haccept, hsubject, hip⟩ := hverified
  rw [verifySubject, hssl, hdns] at hsubject
  rw [verifyIp, hips] at hip
  exact ⟨unicorexHost, haccept, hsubject, hip⟩

/-- How the loop may stand after connections that came in from the state `s`: it waits for the next one, or it
has ended on the shutdown command of a verified peer. -/
def Survives (s : ServerState) (conns : List Connection) : Prop :=
  (serve conns s).1 = .done .next ∨
    ((serve conns s).1 = .done .exited ∧
      ∃ before c after params, conns = before ++ c :: after ∧ (serve before s).1 = .done .next ∧
        Verified s.config c ∧ Says c "shutdown".toList params)

end UnicoreTsi.Server
