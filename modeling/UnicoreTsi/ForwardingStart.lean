/-
# UnicoreTsi.ForwardingStart — how a process for port forwarding comes to forward.

A peer that sends `start-forwarding` gets a process of its own.  It becomes the user of the request, connects to the
service and starts the two threads of `UnicoreTsi.Forwarder`; whatever goes wrong on the way ends it through
`Forwarder.close`, which is `_exit`, so that no code after it runs.  `forwardingMain` is this process from the fork
on.  It connects to one service only, the one the peer has named, as the user the peer has named, and it keeps these
rights for as long as it forwards (`forwards_as_asked`).
-/
import UnicoreTsi.Forwarder
import UnicoreTsi.IdentityLines
import UnicoreTsi.NeverRoot
import UnicoreTsi.Parameters

set_option autoImplicit false

namespace UnicoreTsi.BecomeUser

open UnicoreTsi.Text UnicoreTsi.Effects UnicoreTsi.Utils

/-! ## Becoming a user comes to an end -/

section Ending

variable (user : Str) (config : Settings)

theorem lookup_ends {α : Type} (f : UserCache → Except PyExc α) : Ends Switches (lookup f) := by
  intro r w
  refine ⟨?_, lookup_switches f r w⟩
  rw [lookup, runHandler_run, attempt_run]
  dsimp only
  cases f (r.host.userCache w.io.tick) with
  | ok a => simp
  | error e => simp

theorem idCall_ends (c : SysCall) : Ends Switches (idCall c) := by
  intro r w
  refine ⟨?_, idCall_switches c r w⟩
  unfold idCall
  rw [bind_run_done (modify_run _), bind_run, runHandler_run, sysCall_run]
  dsimp only
  cases r.host.sysCall w.io.tick c with
  | some e => nofun
  | none =>
      dsimp only
      rw [bind_run_done ask_run, bind_run_done get_run]
      cases changeCred r.host.privileged c w.cred <;> nofun

theorem checkMembership_ends (g : Int) : Ends Switches (checkMembership g user config) := by
  unfold checkMembership
  split
  · refine ends_bind (lookup_ends _) fun gid => ?_
    split
    · exact ends_pure _
    · exact ends_bind (lookup_ends _) fun _ => ends_pure _
  · exact ends_pure _

theorem getPrimaryGroup_ends (primary : Str) : Ends Switches (getPrimaryGroup primary user config) := by
  have hrequested : Ends Switches (requestedGid primary user config) := by
    refine ends_bind (lookup_ends _) fun found => ?_
    split
    · split
      · exact ends_raise _
      · exact lookup_ends _
    · exact ends_pure _
  unfold getPrimaryGroup
  split
  · exact lookup_ends _
  · refine ends_bind hrequested fun newGid => ?_
    refine ends_bind (checkMembership_ends user config newGid) fun member => ?_
    split
    · exact ends_pure _
    · split
      · exact ends_raise _
      · exact lookup_ends _

theorem addGroups_ends (names : List Str) (addedDefault : Bool) (supGids : List Int) :
    Ends Switches (addGroups user config names addedDefault supGids) := by
  induction names generalizing addedDefault supGids with
  | nil => exact ends_pure _
  | cons g rest ih =>
      unfold addGroups
      split
      · split
        · exact ih true supGids
        · exact ends_bind (lookup_ends _) fun _ => ih true _
      · refine ends_bind (lookup_ends _) fun tmp => ?_
        split
        · split
          · exact ends_raise _
          · exact ih addedDefault supGids
        · refine ends_bind (checkMembership_ends user config tmp) fun member => ?_
          split
          · exact ends_raise _
          · exact ih addedDefault _

theorem resolveIdentity_ends (groups : List Str) : Ends Switches (resolveIdentity user groups config) := by
  unfold resolveIdentity
  refine ends_bind (ends_ofExcept _) fun primary => ?_
  refine ends_bind (lookup_ends _) fun newUid => ?_
  split
  · exact ends_raise _
  · split
    · exact ends_raise _
    · split
      · refine ends_bind (lookup_ends _) fun _ => ?_
        exact ends_bind (lookup_ends _) fun _ => ends_pure _
      · refine ends_bind (getPrimaryGroup_ends user config primary) fun newGid => ?_
        exact ends_bind (addGroups_ends user config groups _ _) fun _ => ends_pure _

theorem becomeUser_ends (groups : List Str) : Ends Switches (becomeUser user groups config) := by
  have hchecked : ∀ uid gid gids, Ends Switches (checkIdentity user uid gid gids) := by
    intro uid gid gids r w
    refine ⟨?_, checkIdentity_within user uid gid gids r w⟩
    unfold checkIdentity
    rw [bind_run_done get_run]
    repeat' split
    all_goals nofun
  have henviron : Ends Switches (setEnvironment user) := by
    intro r w
    refine ⟨?_, setEnvironment_switches user r w⟩
    unfold setEnvironment
    rw [bind_run]
    have hhome := (lookup_ends (·.getHome4user user) r w).1
    revert hhome
    rcases lookup (·.getHome4user user) r w with ⟨home | e | _, w₁⟩
    · intro _
      dsimp only
      cases environValue home <;> cases environValue (some user) <;> nofun
    · nofun
    · exact fun hhung => absurd rfl hhung
  unfold becomeUser
  split
  · refine ends_bind (resolveIdentity_ends user config groups) ?_
    rintro ⟨uid, gid, gids⟩
    refine ends_bind ?_ fun _ => ends_bind henviron fun _ => ends_pure _
    refine ends_bind (idCall_ends _) fun _ => ends_bind (idCall_ends _) fun _ => ?_
    exact ends_bind (idCall_ends _) fun _ => ends_bind (idCall_ends _) fun _ => hchecked _ _ _
  · split
    · exact ends_raise _
    · exact ends_pure _

end Ending

end UnicoreTsi.BecomeUser

namespace UnicoreTsi.Forwarding

open UnicoreTsi.Text UnicoreTsi.Effects UnicoreTsi.Utils UnicoreTsi.BssCommon UnicoreTsi.BecomeUser
open UnicoreTsi.Configuration UnicoreTsi.Server UnicoreTsi.StartUp UnicoreTsi.Tsi

/-! ## The process -/

/-- What there is to connect to. -/
inductive Service where
  | unixSocket (path : Str)
  | address (host port : Str)
  deriving DecidableEq, Repr

/-- What happens outside: `connection` answers for the attempts of `open_connection` and the options of the socket. -/
structure SetUpHost where
  worker : WorkerCtx
  connection : Connection
  createSocket : Option PyExc
  connectUnix : Str → Option PyExc
  getpeername : Side → Option PyExc
  startThread : Side → Option PyExc

/-- The process, with a record of the services it has tried to connect to and of the rights it had then. -/
structure SetUp where
  worker : Worker
  server : ServerState
  rateLimit : Int
  dials : List (Service × Cred)
  isOpen : Side → Bool
  threads : List Side

/-- The process as it is forked: with the socket of the client. -/
def SetUp.forked (worker : Worker) (server : ServerState) : SetUp where
  worker := worker
  server := server
  rateLimit := 0
  dials := []
  isOpen side := decide (side = .client)
  threads := []

/-- The threads over the sockets that are open. -/
def SetUp.forwarder (p : SetUp) (incoming : Side → List UInt8) : Forwarder :=
  { Forwarder.start incoming with isOpen := p.isOpen }

/-- What a piece of the program stops at: an exception, or `_exit`. -/
inductive Halt where
  | raised (e : PyExc)
  | exited (status : Int)
  deriving DecidableEq, Repr

abbrev SetUpM (α : Type) := Comp SetUpHost SetUp Halt α

def asWorker {α : Type} (x : WorkerM α) : SetUpM α :=
  focus SetUpHost.worker SetUp.worker (fun w p => { p with worker := w }) Halt.raised x

def asServer {α : Type} (x : ServerM α) : SetUpM α :=
  focus SetUpHost.connection SetUp.server (fun s p => { p with server := s }) Halt.raised x

def fromExcept {α : Type} (res : Except PyExc α) : SetUpM α := ofExcept (res.mapError Halt.raised)

/-- A call of the operating system that may raise. -/
def calling (answer : SetUpHost → Option PyExc) : SetUpM Unit := do
  let r ← ask
  match answer r with
  | none => return ()
  | some e => raise (.raised e)

/-! ## `Forwarder` -/

def close (status : Int) : SetUpM Unit := do
  modify fun p => { p with isOpen := fun _ => false }
  raise (.exited status)

/-- The service behind the text of the request. -/
def serviceOf (service : Str) : Except PyExc Service :=
  if "file:".toList <+: service then .ok (.unixSocket (service.drop 5))
  else
    match service.splitOn ':' with
    | [serviceHost, servicePort] => .ok (.address serviceHost servicePort)
    | [_] => .error tooFewValues
    | _ => .error (valueError "too many values to unpack (expected 2)")

/-- The service socket has been made. -/
def openService : SetUpM Unit := modify fun p => { p with isOpen := update p.isOpen .service true }

def dial (service : Service) : SetUpM Unit :=
  modify fun p => { p with dials := p.dials ++ [(service, p.worker.cred)] }

def connectTo (service : Service) : SetUpM Unit :=
  match service with
  | .unixSocket path => do
      calling (·.createSocket)
      openService
      dial service
      calling fun r => r.connectUnix path
  | .address _ _ => do
      dial service
      asServer openConnection
      openService
      calling (·.connection.configureSocket)

/-- `float(self.rate_limit)`, for the log. -/
def checkLimit (rateLimit : Int) : Except PyExc Unit :=
  if rateLimit > 0 then
    match nearestDouble rateLimit.toNat 1 with
    | none => .error { kind := .exception, text := "int too large to convert to float".toList }
    | some _ => .ok ()
  else .ok ()

def startThread (side : Side) : SetUpM Unit := do
  calling fun r => r.startThread side
  modify fun p => { p with threads := p.threads ++ [side] }

def startForwarding (message : Str) : SetUpM Unit :=
  match extractParameter message "FORWARDING_CONNECT_TO".toList with
  | none => close 1
  | some service => do
      let service ← fromExcept (serviceOf service)
      connectTo service
      let p ← get
      fromExcept (checkLimit p.rateLimit)
      calling fun r => r.getpeername .client
      calling fun r => r.getpeername .service
      startThread .client
      startThread .service

/-! ## From the fork on -/

/-- The `try` block of `handle_function`. -/
def attemptForwarding (message : Str) (config : Settings) : SetUpM Unit := do
  if config.switchUid then
    asWorker (assumeIdentity message (userSession Tsi.startForwarding config) config)
  startForwarding message

/-- `handle_function` for `_START_FORWARDING`: the identity is not restored, and `failed` does not return. -/
def handleForwarding (message : Str) (config : Settings) : SetUpM Unit :=
  handle (attemptForwarding message config) fun halt =>
    match halt with
    | .raised _ => close 1
    | .exited status => raise (.exited status)

/-- The message that `connect` makes of the parameters of the command. -/
def childMessage (params : Str) : Except PyExc Str :=
  match splitOnce ' ' params with
  | none => .error (valueError "not enough values to unpack (expected 3, got 1)")
  | some (_, rest) =>
      match splitOnce ' ' rest with
      | none => .error (valueError "not enough values to unpack (expected 3, got 2)")
      | some (serviceSpec, userSpec) =>
          .ok ("#TSI_FORWARDING_CONNECT_TO ".toList ++ serviceSpec ++ "\n#TSI_IDENTITY ".toList ++ userSpec ++ "\n".toList)

/-- `int(config.get("tsi.port_forwarding.rate_limit", 0))` -/
def limitSetting (config : Config) : Except PyExc Int :=
  match config.get "tsi.port_forwarding.rate_limit".toList with
  | none => .ok 0
  | some value => intOf value

/-- `connect` and `main` in a process that has been forked for `start-forwarding`. -/
def forwardingMain (ready : Ready) (params : Str) : SetUpM Unit := do
  let message ← fromExcept (childMessage params)
  let rateLimit ← fromExcept (limitSetting ready.config)
  modify fun p => { p with rateLimit := rateLimit }
  handleForwarding message (Settings.ofConfig ready.config)

/-! ## The words of a request -/

section Words

variable {port service user groups : Str}

/-- The parameters of a command that has them all. -/
def requestParams (port service user groups : Str) : Str := port ++ ' ' :: (service ++ ' ' :: (user ++ ' ' :: groups))

/-- The lines of the message that is made of them. -/
def requestLines (service user groups : Str) : List Str :=
  ["#TSI_FORWARDING_CONNECT_TO ".toList ++ service, "#TSI_IDENTITY ".toList ++ user ++ ' ' :: groups]

theorem childMessage_words (hport : ' ' ∉ port) (hservice : ' ' ∉ service) :
    childMessage (requestParams port service user groups) = .ok (unlines (requestLines service user groups)) := by
  unfold childMessage requestParams
  rw [splitOnce_append hport]
  dsimp only
  rw [splitOnce_append hservice]
  simp [requestLines]

theorem completeLines_words (hservice : NonBlank service) (huser : NonBlank user) (hgroups : NonBlank groups) :
    completeLines (unlines (requestLines service user groups)) = requestLines service user groups := by
  apply completeLines_unlines
  have hs := hservice.newline_not_mem
  have hu := huser.newline_not_mem
  have hg := hgroups.newline_not_mem
  simp [requestLines, hs, hu, hg]

theorem extractParameter_words (hservice : NonBlank service) (huser : NonBlank user) (hgroups : NonBlank groups) :
    extractParameter (unlines (requestLines service user groups)) "FORWARDING_CONNECT_TO".toList = some service := by
  refine extractParameter_of_given (by decide) ?_ hservice.1
  rw [givenValue, completeLines_words hservice huser hgroups, requestLines, List.findSome?_cons]
  have hline : lineValue "FORWARDING_CONNECT_TO".toList ("#TSI_FORWARDING_CONNECT_TO ".toList ++ service) = some service :=
    lineValue_eq_some.mpr rfl
  rw [hline]

/-- The line for the service has one blank only, so that it is not taken for an identity. -/
theorem requestedIdentity_words (hservice : NonBlank service) (huser : NonBlank user) (hgroups : NonBlank groups) :
    requestedIdentity (unlines (requestLines service user groups)) = some (user, groups.splitOn ':') := by
  have hfirst : FirstClause (requestLines service user groups) user groups := by
    refine .there ?_ (.here ⟨[], rfl, huser, hgroups⟩)
    rintro u g ⟨before, hline, -, -⟩
    have hcount := congrArg (List.count ' ') hline
    have hnone := List.count_eq_zero.mpr hservice.blank_not_mem
    simp only [List.count_append, List.count_cons_self, hnone] at hcount
    have htags : "#TSI_FORWARDING_CONNECT_TO ".toList.count ' ' = 1 ∧ "#TSI_IDENTITY ".toList.count ' ' = 1 := by decide
    omega
  have hinfo : identityInfo (unlines (requestLines service user groups)) = some (user, groups) := by
    apply identityInfo_eq_some.mpr
    rw [completeLines_words hservice huser hgroups]
    exact hfirst
  rw [requestedIdentity, hinfo]
  rfl

end Words

/-! ## How the process stands in the end -/

/-- The service was asked for, and the rights are those of the user, or of the process if it does not change
identity. -/
structure Asked (config : Settings) (host : Host) (service user : Str) (d : Service × Cred) : Prop where
  named : serviceOf service = .ok d.1
  not_root : d.2.euid ≠ 0
  asUser : config.switchUid = true → d.2.ruid = d.2.euid ∧ ∃ t, (host.userCache t).getUid4user user = .ok d.2.euid

/-- How the process for a request ends, or goes on. -/
inductive SetUpEnds (ready : Ready) (r : SetUpHost) (service user : Str) : Outcome Halt Unit × SetUp → Prop where
  /-- The rate limit of the file is no number. -/
  | refused {e : PyExc} {p : SetUp} (hlimit : limitSetting ready.config = .error e) (hdials : p.dials = [])
      (hthreads : p.threads = []) : SetUpEnds ready r service user (.raised (.raised e), p)
  | exited {p : SetUp} (hclosed : ∀ side, p.isOpen side = false) (honce : p.dials.length ≤ 1)
      (hasked : ∀ d ∈ p.dials, Asked (Settings.ofConfig ready.config) r.worker.host service user d) :
      SetUpEnds ready r service user (.raised (.exited 1), p)
  /-- Both threads have been started, over both sockets; the rights stay those that the service was connected to
  with. -/
  | forwarding {p : SetUp} {s : Service} (hdials : p.dials = [(s, p.worker.cred)])
      (hasked : Asked (Settings.ofConfig ready.config) r.worker.host service user (s, p.worker.cred))
      (hlimit : limitSetting ready.config = .ok p.rateLimit) (hthreads : p.threads = [.client, .service])
      (hsockets : ∀ incoming, p.forwarder incoming = .start incoming) : SetUpEnds ready r service user (.done (), p)

section SettingUp

variable {r : SetUpHost} {p p' : SetUp} {s : Service}

theorem calling_cases (answer : SetUpHost → Option PyExc) (r : SetUpHost) (p : SetUp) :
    calling answer r p = (.done (), p) ∨ ∃ e, calling answer r p = (.raised (.raised e), p) := by
  unfold calling
  rw [bind_run_done ask_run]
  cases answer r with
  | none => exact Or.inl rfl
  | some e => exact Or.inr ⟨e, rfl⟩

theorem fromExcept_ok {α : Type} {res : Except PyExc α} {a : α} (h : res = .ok a) :
    fromExcept res r p = (.done a, p) := by
  rw [h]
  rfl

theorem fromExcept_error {α : Type} {res : Except PyExc α} {e : PyExc} (h : res = .error e) :
    fromExcept res r p = (.raised (.raised e), p) := by
  rw [h]
  rfl

/-- The service has been tried at most; nothing else is different but the sockets. -/
structure Tried (s : Service) (p p' : SetUp) : Prop where
  worker : p'.worker = p.worker
  rateLimit : p'.rateLimit = p.rateLimit
  dials : p'.dials = p.dials ∨ p'.dials = p.dials ++ [(s, p.worker.cred)]

theorem Tried.refl (s : Service) (p : SetUp) : Tried s p p := ⟨rfl, rfl, Or.inl rfl⟩

/-- The service has been connected to. -/
structure Connected (s : Service) (p p' : SetUp) : Prop where
  worker : p'.worker = p.worker
  rateLimit : p'.rateLimit = p.rateLimit
  dials : p'.dials = p.dials ++ [(s, p.worker.cred)]
  isOpen : p'.isOpen = update p.isOpen .service true
  threads : p'.threads = p.threads

theorem Connected.tried (h : Connected s p p') : Tried s p p' := ⟨h.worker, h.rateLimit, Or.inr h.dials⟩

theorem tryPorts_ne_hung (range : PortRange) (c : Connection) (n : ℕ) (port : Int) (t : ServerState) :
    (tryPorts range n port c t).1 ≠ .hung := by
  induction n generalizing port t with
  | zero => nofun
  | succ n ih =>
      unfold tryPorts createConnection
      simp only [bind_run, record, modify_run, ask_run, get_run, pure_run]
      cases c.createConnection t.attempts port with
      | none =>
          dsimp only
          split <;> nofun
      | some e =>
          dsimp only
          split
          · exact ih _ _
          · nofun

theorem openService_cases (r : SetUpHost) (p : SetUp) :
    (∃ t, asServer openConnection r p = (.done (), { p with server := t })) ∨
      ∃ e t, asServer openConnection r p = (.raised (.raised e), { p with server := t }) := by
  have hends : (openConnection r.connection p.server).1 ≠ .hung := tryPorts_ne_hung _ _ _ _ _
  rcases focus_cases (s := p) (fun t (p : SetUp) => { p with server := t }) Halt.raised hends with
    ⟨⟨⟩, t, -, hrun⟩ | ⟨e, t, -, hrun⟩
  · exact Or.inl ⟨t, hrun⟩
  · exact Or.inr ⟨e, t, hrun⟩

theorem startThread_cases (side : Side) (r : SetUpHost) (p : SetUp) :
    startThread side r p = (.done (), { p with threads := p.threads ++ [side] }) ∨
      ∃ e, startThread side r p = (.raised (.raised e), p) := by
  unfold startThread
  rcases calling_cases (fun r => r.startThread side) r p with hcall | ⟨e, hcall⟩
  · exact Or.inl (bind_run_done hcall)
  · exact Or.inr ⟨e, bind_run_raised hcall⟩

theorem connectTo_cases (s : Service) (r : SetUpHost) (p : SetUp) :
    (∃ p', connectTo s r p = (.done (), p') ∧ Connected s p p') ∨
      ∃ e p', connectTo s r p = (.raised (.raised e), p') ∧ Tried s p p' := by
  cases s with
  | unixSocket path =>
      unfold connectTo
      dsimp only
      rcases calling_cases (·.createSocket) r p with hsocket | ⟨e, hsocket⟩
      · rw [bind_run_done hsocket, openService, bind_run_done (modify_run _), dial, bind_run_done (modify_run _)]
        rcases calling_cases (fun r => r.connectUnix path) r
            { p with isOpen := update p.isOpen .service true, dials := p.dials ++ [(.unixSocket path, p.worker.cred)] }
          with hconnect | ⟨e, hconnect⟩
        · exact Or.inl ⟨_, hconnect, ⟨rfl, rfl, rfl, rfl, rfl⟩⟩
        · exact Or.inr ⟨e, _, hconnect, ⟨rfl, rfl, Or.inr rfl⟩⟩
      · exact Or.inr ⟨e, p, bind_run_raised hsocket, .refl _ p⟩
  | address host port =>
      unfold connectTo
      dsimp only
      rw [dial, bind_run_done (modify_run _)]
      rcases openService_cases r { p with dials := p.dials ++ [(.address host port, p.worker.cred)] } with
        ⟨t, hopen⟩ | ⟨e, t, hopen⟩
      · rw [bind_run_done hopen, openService, bind_run_done (modify_run _)]
        rcases calling_cases (·.connection.configureSocket) r
            { p with server := t, isOpen := update p.isOpen .service true, dials := p.dials ++ [(.address host port, p.worker.cred)] }
          with hconfigure | ⟨e, hconfigure⟩
        · exact Or.inl ⟨_, hconfigure, ⟨rfl, rfl, rfl, rfl, rfl⟩⟩
        · exact Or.inr ⟨e, _, hconfigure, ⟨rfl, rfl, Or.inr rfl⟩⟩
      · exact Or.inr ⟨e, _, bind_run_raised hopen, ⟨rfl, rfl, Or.inr rfl⟩⟩

/-- What follows once the service is known. -/
theorem startForwarding_cases {message service : Str} (hservice : extractParameter message "FORWARDING_CONNECT_TO".toList =
      some service) (r : SetUpHost) (p : SetUp) :
    (∃ s p', startForwarding message r p = (.done (), p') ∧ serviceOf service = .ok s ∧ p'.worker = p.worker ∧
        p'.rateLimit = p.rateLimit ∧ p'.dials = p.dials ++ [(s, p.worker.cred)] ∧
        p'.isOpen = update p.isOpen .service true ∧ p'.threads = p.threads ++ [.client, .service]) ∨
      ∃ e p', startForwarding message r p = (.raised (.raised e), p') ∧ p'.worker = p.worker ∧
        (p'.dials = p.dials ∨ ∃ s, serviceOf service = .ok s ∧ p'.dials = p.dials ++ [(s, p.worker.cred)]) := by
  unfold startForwarding
  rw [hservice]
  dsimp only
  cases hparse : serviceOf service with
  | error e => exact Or.inr ⟨e, p, bind_run_raised (fromExcept_error rfl), rfl, Or.inl rfl⟩
  | ok s =>
      rw [bind_run_done (fromExcept_ok rfl)]
      rcases connectTo_cases s r p with ⟨p₁, hconnect, hconnected⟩ | ⟨e, p₁, hconnect, htried⟩
      · rw [bind_run_done hconnect, bind_run_done get_run]
        -- whatever fails from here on, the service has been connected to
        have hfails : ∀ (o : Outcome Halt Unit × SetUp) e (p' : SetUp), o = (.raised (.raised e), p') →
            p'.worker = p₁.worker → p'.dials = p₁.dials → ∃ e p', o = (.raised (.raised e), p') ∧ p'.worker = p.worker ∧
              (p'.dials = p.dials ∨ ∃ s', Except.ok s = (.ok s' : Except PyExc Service) ∧
                p'.dials = p.dials ++ [(s', p.worker.cred)]) :=
          fun o e p' ho hworker hdials =>
            ⟨e, p', ho, hworker.trans hconnected.worker, Or.inr ⟨s, rfl, hdials.trans hconnected.dials⟩⟩
        cases hlimit : checkLimit p₁.rateLimit with
        | error e => exact Or.inr (hfails _ e p₁ (bind_run_raised (fromExcept_error rfl)) rfl rfl)
        | ok _ =>
            rw [bind_run_done (fromExcept_ok rfl)]
            rcases calling_cases (fun r => r.getpeername .client) r p₁ with hcall | ⟨e, hcall⟩
            case inr => exact Or.inr (hfails _ e p₁ (bind_run_raised hcall) rfl rfl)
            rw [bind_run_done hcall]
            rcases calling_cases (fun r => r.getpeername .service) r p₁ with hcall | ⟨e, hcall⟩
            case inr => exact Or.inr (hfails _ e p₁ (bind_run_raised hcall) rfl rfl)
            rw [bind_run_done hcall]
            rcases startThread_cases .client r p₁ with hthread | ⟨e, hthread⟩
            case inr => exact Or.inr (hfails _ e p₁ (bind_run_raised hthread) rfl rfl)
            rw [bind_run_done hthread]
            rcases startThread_cases .service r { p₁ with threads := p₁.threads ++ [.client] } with hthread | ⟨e, hthread⟩
            case inr => exact Or.inr (hfails _ e _ hthread rfl rfl)
            refine Or.inl ⟨s, _, hthread, rfl, hconnected.worker, hconnected.rateLimit, hconnected.dials,
              hconnected.isOpen, ?_⟩
            show (p₁.threads ++ [Side.client]) ++ [Side.service] = _
            rw [hconnected.threads, List.append_assoc]
            rfl
      · refine Or.inr ⟨e, p₁, bind_run_raised hconnect, htried.worker, ?_⟩
        rcases htried.dials with hnone | hone
        · exact Or.inl hnone
        · exact Or.inr ⟨s, rfl, hone⟩

end SettingUp

/-! ## The identity -/

section Identity

variable {config : Settings} {r : SetUpHost} {p : SetUp} {message user : Str} {groups : List Str}

/-- Forwarding is not done in a session. -/
theorem userSession_startForwarding (config : Settings) : userSession Tsi.startForwarding config = false := by
  have hspawns : Tsi.startForwarding ∉ spawningCommands := by decide
  simp [userSession, hspawns]

theorem assumeIdentity_ends (message : Str) (config : Settings) : Ends Switches (assumeIdentity message false config) := by
  unfold assumeIdentity
  refine ends_bind (ends_ofExcept _) ?_
  rintro ⟨user, groups⟩
  exact ends_bind (becomeUser_ends user config groups) fun _ => ends_pure _

/-- The rights with which the process starts to forward, unless it cannot get them. -/
theorem identity_cases (hidentity : requestedIdentity message = some (user, groups))
    (hown : config.switchUid = false → p.worker.cred.euid ≠ 0) :
    (∃ w, attemptForwarding message config r p = startForwarding message r { p with worker := w } ∧ w.cred.euid ≠ 0 ∧
        (config.switchUid = true →
          w.cred.ruid = w.cred.euid ∧ ∃ t, (r.worker.host.userCache t).getUid4user user = .ok w.cred.euid)) ∨
      ∃ e w, attemptForwarding message config r p = (.raised (.raised e), { p with worker := w }) := by
  unfold attemptForwarding
  cases hswitch : config.switchUid with
  | false => exact Or.inl ⟨p.worker, rfl, hown hswitch, nofun⟩
  | true =>
      rw [if_pos rfl, userSession_startForwarding]
      rcases focus_cases (s := p) (fun w (p : SetUp) => { p with worker := w }) Halt.raised
          (assumeIdentity_ends message config r.worker p.worker).1 with
        ⟨⟨⟩, w, hdone, hfocus⟩ | ⟨e, w, -, hfocus⟩
      · left
        obtain ⟨user', groups', t, hnamed, huid, hreal, hroot⟩ := assumeIdentity_done hswitch hdone
        rw [hidentity, Option.some.injEq, Prod.mk.injEq] at hnamed
        obtain ⟨rfl, -⟩ := hnamed
        exact ⟨w, bind_run_done hfocus, hroot, fun _ => ⟨hreal, t, huid⟩⟩
      · exact Or.inr ⟨e, w, bind_run_raised hfocus⟩

end Identity

/-! ## The whole process -/

theorem handleForwarding_raised {message : Str} {config : Settings} {r : SetUpHost} {p p' : SetUp} {e : PyExc}
    (h : attemptForwarding message config r p = (.raised (.raised e), p')) :
    handleForwarding message config r p = (.raised (.exited 1), { p' with isOpen := fun _ => false }) := by
  unfold handleForwarding
  rw [handle_run_raised h]
  rfl

/-- **Forwarding as asked.**  A process for a request to forward either has both threads running, or it has ended
with the socket of the client closed; it has connected to no service but the one in the request, and it did so, and
goes on, as the user in the request if the TSI changes identity, and never as root. -/
theorem forwards_as_asked {v : Variant} {os : Os} {ready : Ready} (hstarted : Started v os ready) (r : SetUpHost)
    {worker : Worker} (hcred : worker.cred = os.cred) (server : ServerState) {port service user groups : Str}
    (hport : NonBlank port) (hservice : NonBlank service) (huser : NonBlank user) (hgroups : NonBlank groups) :
    SetUpEnds ready r service user
      (forwardingMain ready (requestParams port service user groups) r (.forked worker server)) := by
  unfold forwardingMain
  rw [bind_run_done (fromExcept_ok (childMessage_words hport.blank_not_mem hservice.blank_not_mem))]
  cases hlimit : limitSetting ready.config with
  | error e =>
      rw [bind_run_raised (fromExcept_error rfl)]
      exact .refused hlimit rfl rfl
  | ok limit =>
      rw [bind_run_done (fromExcept_ok rfl), bind_run_done (modify_run _)]
      have hown : (Settings.ofConfig ready.config).switchUid = false → worker.cred.euid ≠ 0 := by
        intro hoff
        rw [hcred]
        exact hstarted.switchUid hoff
      rcases identity_cases (r := r) (p := { SetUp.forked worker server with rateLimit := limit })
          (requestedIdentity_words hservice huser hgroups) hown with ⟨w, hattempt, hroot, hasUser⟩ | ⟨e, w, hattempt⟩
      · have hparameter := extractParameter_words hservice huser hgroups
        rcases startForwarding_cases hparameter r { SetUp.forked worker server with rateLimit := limit, worker := w } with
          ⟨s, p', hstart, hnamed, hworker, hrate, hdials, hopen, hthreads⟩ | ⟨e, p', hstart, hworker, hdials⟩
        · have hdials : p'.dials = [(s, p'.worker.cred)] := by
            rw [hdials, hworker]
            rfl
          unfold handleForwarding
          rw [handle_run_done (hattempt.trans hstart)]
          refine .forwarding hdials ⟨hnamed, ?_, ?_⟩ (hlimit.trans (congrArg Except.ok hrate.symm)) hthreads ?_
          · rw [hworker]
            exact hroot
          · rw [hworker]
            exact hasUser
          · intro incoming
            have hall : p'.isOpen = fun _ => true := by
              rw [hopen]
              funext side
              cases side <;> rfl
            rw [SetUp.forwarder, hall]
            rfl
        · rw [handleForwarding_raised (hattempt.trans hstart)]
          have hasked : ∀ s, serviceOf service = .ok s →
              Asked (Settings.ofConfig ready.config) r.worker.host service user (s, w.cred) :=
            fun s hnamed => ⟨hnamed, hroot, hasUser⟩
          rcases hdials with hnone | ⟨s, hnamed, hone⟩
          · have hnone : p'.dials = [] := hnone
            refine .exited (fun _ => rfl) ?_ ?_
            · simp [hnone]
            · simp [hnone]
          · have hone : p'.dials = [(s, w.cred)] := hone
            refine .exited (fun _ => rfl) ?_ ?_
            · simp [hone]
            · intro d hd
              obtain rfl : d = (s, w.cred) := by simpa [hone] using hd
              exact hasked s hnamed
      · rw [handleForwarding_raised hattempt]
        exact .exited (fun _ => rfl) (Nat.zero_le 1) (by simp [SetUp.forked])

/-- A host on which all calls succeed. -/
def calmSetUp : SetUpHost where
  worker := ⟨calmHost aliceDb.cache, 10⟩
  connection := peer "127.0.0.1".toList []
  createSocket := none
  connectUnix _ := none
  getpeername _ := none
  startThread _ := none

theorem forwards_as_asked_alice :
    ∃ ready, (mainSetUp .slurm rootOs nightFile calmCtx .fresh).1 = .done ready ∧
      SetUpEnds ready calmSetUp "file:/run/service".toList "alice".toList
        (forwardingMain ready (requestParams "4433".toList "file:/run/service".toList "alice".toList "NONE".toList)
          calmSetUp (.forked (Worker.fresh []) (listening (serverConfig ready)))) := by
  obtain ⟨ready, s', hsetup, -⟩ := nightFile_starts .slurm rootOs
  exact ⟨ready, congrArg Prod.fst hsetup, forwards_as_asked (Started.main hsetup) calmSetUp rfl _
    ⟨by decide, by decide⟩ ⟨by decide, by decide⟩ ⟨by decide, by decide⟩ ⟨by decide, by decide⟩⟩

end UnicoreTsi.Forwarding
