/-
# UnicoreTsi.ListingFailures — what a listing leaves out when calls fail.

A member of a directory whose `stat` fails has no entry.  An owner or a group that the host does not know makes
`get_info` raise as well, and the entry is dropped with it; a subdirectory that cannot be listed raises an `OSError`
which `list_directory` does not catch, so that everything the walk has not come to yet is missing.
`listing_complete_iff`: for every tree, the listing has the entries it is to have if and only if neither happens to a
member that is to be listed, and the stack suffices.
-/
import UnicoreTsi.ListingEntries

set_option autoImplicit false

namespace UnicoreTsi.Io

open UnicoreTsi.Text UnicoreTsi.Effects UnicoreTsi.Utils UnicoreTsi.Connector UnicoreTsi.Forests

/-! ## A tree on which calls fail -/

/-- A member of a directory, with the answers of the operating system; `refusal` is why it cannot be listed. -/
structure Member where
  name : Str
  stat : Except PyExc StatInfo
  canRead : Bool
  canWrite : Bool
  canExec : Bool
  user : Except PyExc (Option Str)
  group : Except PyExc (Option Str)
  refusal : Option PyExc

/-- The name of an owner or group, if the host knows one. -/
def knownName : Except PyExc (Option Str) → Option Str
  | .ok name => name
  | .error _ => none

namespace Member

/-- What there is to be shown of a member. -/
def node (m : Member) (info : StatInfo) : Node where
  name := m.name
  stat := info
  canRead := m.canRead
  canWrite := m.canWrite
  canExec := m.canExec
  user := knownName m.user
  group := knownName m.group

/-- The entry a member is to have: an owner or group without a name is shown by its number. -/
def wanted (euid : Int) (path : Str) (m : Member) : Option Str :=
  match m.stat with
  | .ok info => some (entryText euid path (m.node info))
  | .error _ => none

/-- The entry the code writes. -/
def written (euid : Int) (path : Str) (m : Member) : Option Str :=
  match m.stat, m.user, m.group with
  | .ok info, .ok _, .ok _ => some (entryText euid path (m.node info))
  | _, _, _ => none

end Member

/-- The host answers the questions of `get_info` about a member in this way. -/
structure Answers (h : Host) (euid : Int) (path : Str) (m : Member) : Prop where
  stat : ∀ t, h.stat t path = m.stat
  canRead : ∀ t, h.access t path 'R' = m.canRead
  canWrite : ∀ t, h.access t path 'W' = m.canWrite
  canExec : ∀ t, h.access t path 'X' = m.canExec
  geteuid : ∀ t, h.geteuid t = euid
  user : ∀ info, m.stat = .ok info → ∀ t, h.getpwuid t info.uid = m.user
  group : ∀ info, m.stat = .ok info → ∀ t, h.getgrgid t info.gid = m.group

/-- The host shows a forest as the contents of the directory at `path`. -/
def Presents (h : Host) (euid : Int) : Str → Forest Member → Prop
  | _, .nil => True
  | path, .file m rest =>
      (∀ t, h.isdir t (pathJoin path m.name) = false) ∧ Answers h euid (pathJoin path m.name) m ∧ Presents h euid path rest
  | path, .dir m contents rest =>
      (∀ t, h.isdir t (pathJoin path m.name) = true) ∧ Answers h euid (pathJoin path m.name) m ∧
        (match m.refusal with
          | some e => ∀ t, h.listdir t (pathJoin path m.name) = .error e
          | none => (∀ t, h.listdir t (pathJoin path m.name) = .ok (contents.top.map Member.name)) ∧
              Presents h euid (pathJoin path m.name) contents) ∧
        Presents h euid path rest

/-- The directory at `path` can be listed and holds the forest. -/
structure HoldsTree (r : HandlerCtx) (euid : Int) (path : Str) (tree : Forest Member) : Prop where
  pathExists : ∀ t, r.host.pathExists t path = true
  isdir : ∀ t, r.host.isdir t path = true
  listdir : ∀ t, r.host.listdir t path = .ok (tree.top.map Member.name)
  presents : Presents r.host euid path tree
  channel : ∀ t, r.host.channelGone t = false
  stack : 0 < r.host.recursionLimit

/-- The members with their paths. -/
def located : Str → Forest Member → Forest (Str × Member)
  | _, .nil => .nil
  | path, .file m rest => .file (pathJoin path m.name, m) (located path rest)
  | path, .dir m contents rest =>
      .dir (pathJoin path m.name, m) (located (pathJoin path m.name) contents) (located path rest)

def refusalOf (p : Str × Member) : Option PyExc := p.2.refusal

/-- The members a listing is to have an entry for, as far as `stat` succeeds. -/
def listed (recursive : Bool) (path : Str) (tree : Forest Member) : List (Str × Member) :=
  if recursive then (located path tree).entered refusalOf else (located path tree).top

/-- The walk of `list_directory` through a directory, with so much of the stack left. -/
def walk (recursive : Bool) (depth : ℕ) (path : Str) (tree : Forest Member) : List (Visit (Str × Member) PyExc) :=
  if recursive then (located path tree).visits refusalOf recursionError depth
  else (located path tree).top.map .member

def wantedEntry (euid : Int) (v : Visit (Str × Member) PyExc) : Option Str :=
  v.label.bind fun p => p.2.wanted euid p.1

def writtenEntry (euid : Int) (v : Visit (Str × Member) PyExc) : Option Str :=
  v.label.bind fun p => p.2.written euid p.1

/-- The lines a step of the walk writes. -/
def visitLines (euid : Int) : Visit (Str × Member) PyExc → List Str
  | .enter _ => []
  | .leave => ["<".toList]
  | .member p => (p.2.written euid p.1).toList

/-- The lines of a walk, up to where it is stopped. -/
def walkLines (euid : Int) (visits : List (Visit (Str × Member) PyExc)) : List Str :=
  (reached visits).flatMap (visitLines euid)

section Runs

variable {r : HandlerCtx} {euid : Int} {visits more : List (Visit (Str × Member) PyExc)}

/-- On an open channel `x` writes the lines of the walk, and ends as it does. -/
def Performs (r : HandlerCtx) (euid : Int) (visits : List (Visit (Str × Member) PyExc)) (x : Handler Unit) : Prop :=
  ∀ s, s.broken = false → ∃ n, x r s =
    ((stopped visits).elim (.done ()) .raised,
      { s with tick := n, calls := s.calls ++ (walkLines euid visits).map .message })

theorem performs_bind {x y : Handler Unit} (hx : Performs r euid visits x) (hy : Performs r euid more y) :
    Performs r euid (visits ++ more) (x >>= fun _ => y) := by
  intro s hs
  obtain ⟨n, hn⟩ := hx s hs
  cases hstopped : stopped visits with
  | some e =>
      -- `y` is not run, and its walk is cut off as well
      obtain ⟨hreached, hstill⟩ := append_of_stopped hstopped more
      refine ⟨n, ?_⟩
      rw [hstopped] at hn
      rw [bind_run_raised hn, hstill, walkLines, walkLines, hreached]
      rfl
  | none =>
      rw [hstopped] at hn
      obtain ⟨m, hm⟩ := hy { s with tick := n, calls := s.calls ++ (walkLines euid visits).map .message } hs
      refine ⟨m, ?_⟩
      rw [bind_run_done hn, hm, stopped_append hstopped, walkLines, walkLines, walkLines, reached_append hstopped,
        reached_self hstopped, List.flatMap_append, List.map_append, List.append_assoc]

/-- What writes the lines of the walk, and no step of it stops. -/
theorem performs_of_writes {x : Handler Unit} (hstopped : stopped visits = none)
    (h : Writes r (walkLines euid visits) x ()) : Performs r euid visits x := by
  intro s hs
  rw [hstopped]
  exact h s hs

/-- A question before the walk. -/
theorem performs_after {α : Type} {x : Handler α} {a : α} {f : α → Handler Unit} (hx : Writes r [] x a)
    (hf : Performs r euid visits (f a)) : Performs r euid visits (x >>= f) := by
  intro s hs
  obtain ⟨n, hn⟩ := hx s hs
  rw [bind_run_done hn]
  obtain ⟨m, hm⟩ := hf { s with tick := n, calls := s.calls ++ ([] : List Str).map .message } hs
  refine ⟨m, ?_⟩
  rw [hm]
  simp

/-- A directory that is not entered ends the walk. -/
theorem performs_refused {x : Handler Unit} {e : PyExc} (h : ∀ s, ∃ n, x r s = (.raised e, { s with tick := n }))
    (rest : List (Visit (Str × Member) PyExc)) : Performs r euid (.enter (some e) :: rest) x := by
  intro s _
  obtain ⟨n, hn⟩ := h s
  refine ⟨n, ?_⟩
  have hreached : reached (Visit.enter (some e) :: rest : List (Visit (Str × Member) PyExc)) = [] :=
    List.takeWhile_cons_of_neg (by simp [Visit.refusal])
  have hstopped : stopped (Visit.enter (some e) :: rest : List (Visit (Str × Member) PyExc)) = some e := rfl
  rw [hn, walkLines, hreached, hstopped]
  simp

theorem attempt_raises {α : Type} {f : Host → ℕ → Except PyExc α} {e : PyExc} {s : HandlerState}
    (h : f r.host s.tick = .error e) : ∃ e, (attempt f r s).1 = .raised e := by
  rw [attempt_run, h]
  exact ⟨e, rfl⟩

theorem bind_raises {α β : Type} {x : Handler α} {f : α → Handler β} {s : HandlerState}
    (h : ∃ e, (x r s).1 = .raised e) : ∃ e, ((x >>= f) r s).1 = .raised e := by
  obtain ⟨e, he⟩ := h
  have hx : x r s = (.raised e, (x r s).2) := by rw [← he]
  exact ⟨e, by rw [bind_run_raised hx]⟩

/-- A member without an entry makes `get_info` raise. -/
theorem getInfo_raises {path : Str} {m : Member} (h : Answers r.host euid path m) (hnone : m.written euid path = none)
    (s : HandlerState) : ∃ e n, getInfo path r s = (.raised e, { s with tick := n }) := by
  have hraised : ∃ e, (getInfo path r s).1 = .raised e := by
    unfold getInfo
    cases hstat : m.stat with
    | error e => exact bind_raises (attempt_raises ((h.stat _).trans hstat))
    | ok info =>
        rw [bind_run_done (attempt_eq_done.mpr ⟨(h.stat _).trans hstat, rfl⟩), bind_run_done (consult_run _ _ _),
          bind_run_done (consult_run _ _ _), bind_run_done (consult_run _ _ _), bind_run_done (consult_run _ _ _)]
        cases huser : m.user with
        | error e => exact bind_raises (attempt_raises ((h.user info hstat _).trans huser))
        | ok user =>
            rw [bind_run_done (attempt_eq_done.mpr ⟨(h.user info hstat _).trans huser, rfl⟩)]
            cases hgroup : m.group with
            | error e => exact bind_raises (attempt_raises ((h.group info hstat _).trans hgroup))
            | ok group =>
                rw [Member.written, hstat, huser, hgroup] at hnone
                cases hnone
  obtain ⟨e, he⟩ := hraised
  obtain ⟨n, hn⟩ := getInfo_ticks path r s
  exact ⟨e, n, by rw [← he, ← hn]⟩

theorem performs_info (hchannel : ∀ t, r.host.channelGone t = false) {path : Str} {m : Member}
    (h : Answers r.host euid path m) : Performs r euid [.member (path, m)] (writeInfo path) := by
  have hlines : walkLines euid [.member (path, m)] = (m.written euid path).toList := by
    simp [walkLines, reached, visitLines, Visit.refusal]
  refine performs_of_writes rfl ?_
  rw [hlines]
  cases hwritten : m.written euid path with
  | none =>
      intro s _
      obtain ⟨e, n, hraised⟩ := getInfo_raises h hwritten s
      refine ⟨n, ?_⟩
      rw [writeInfo, handle_run_raised (bind_run_raised hraised)]
      simp
  | some text =>
      unfold Member.written at hwritten
      split at hwritten
      · rename_i info user group hstat huser hgroup
        have hnames : (m.node info).user = user ∧ (m.node info).group = group := by
          rw [Member.node, huser, hgroup]
          exact ⟨rfl, rfl⟩
        have hreads : Reads r.host euid path (m.node info) := by
          refine ⟨fun t => (h.stat t).trans hstat, h.canRead, h.canWrite, h.canExec, h.geteuid, ?_, ?_⟩
          · intro t
            rw [hnames.1, ← huser]
            exact h.user info hstat t
          · intro t
            rw [hnames.2, ← hgroup]
            exact h.group info hstat t
        rw [← Option.some.inj hwritten]
        exact writes_info hchannel hreads
      · cases hwritten

theorem performs_enter {x : Handler Unit} (hx : Performs r euid visits x) :
    Performs r euid (.enter none :: visits) x := by
  intro s hs
  obtain ⟨n, hn⟩ := hx s hs
  refine ⟨n, ?_⟩
  rw [hn]
  rfl

theorem performs_leave (hchannel : ∀ t, r.host.channelGone t = false) :
    Performs r euid [.leave] (writeMessage "<".toList) :=
  performs_of_writes rfl (writes_message hchannel _)

theorem performs_pure : Performs r euid [] (pure ()) := performs_of_writes rfl (writes_pure ())

/-- The walk through the members of a directory that is listed recursively. -/
theorem performs_entries (hchannel : ∀ t, r.host.channelGone t = false) (tree : Forest Member) :
    ∀ (depth : ℕ) (path : Str), Presents r.host euid path tree →
      Performs r euid (walk true depth path tree)
        (listEntries (fun subdir => listDirectory depth subdir true) path true (tree.top.map Member.name)) := by
  induction tree with
  | nil => exact fun _ _ _ => performs_pure
  | file m rest ih =>
      intro depth path hpresents
      obtain ⟨hisdir, hanswers, hrest⟩ := hpresents
      show Performs r euid _ (consult _ >>= _)
      refine performs_after (writes_consult hisdir) ?_
      exact performs_bind (performs_info hchannel hanswers) (ih depth path hrest)
  | dir m contents rest ihc ihr =>
      intro depth path hpresents
      obtain ⟨hisdir, hanswers, hlisting, hrest⟩ := hpresents
      -- the subdirectory itself, one level further down the stack
      have hdescend : Performs r euid
          (.enter (if depth = 0 then some recursionError else m.refusal) ::
            (if m.refusal.isSome then [] else walk true (depth - 1) (pathJoin path m.name) contents))
          (listDirectory depth (pathJoin path m.name) true) := by
        cases depth with
        | zero => exact performs_refused (fun s => ⟨s.tick, rfl⟩) _
        | succ depth =>
            rw [if_neg (Nat.succ_ne_zero depth)]
            cases hrefusal : m.refusal with
            | some e =>
                rw [hrefusal] at hlisting
                refine performs_refused (fun s => ⟨s.tick + 1, bind_run_raised ?_⟩) _
                rw [attempt_run, hlisting]
            | none =>
                rw [hrefusal] at hlisting
                exact performs_enter (performs_after (writes_attempt hlisting.1) (ihc depth _ hlisting.2))
      show Performs r euid _ (consult _ >>= _)
      refine performs_after (writes_consult hisdir) ?_
      -- contents, the line that ends them, then the entry of the directory itself
      have hall := performs_bind hdescend (performs_bind (performs_leave hchannel)
        (performs_bind (performs_info hchannel hanswers) (ihr depth path hrest)))
      exact hall

/-- The members of a directory that is listed alone. -/
theorem performs_members (hchannel : ∀ t, r.host.channelGone t = false) (descend : Str → Handler Unit)
    (tree : Forest Member) (depth : ℕ) (path : Str) (hpresents : Presents r.host euid path tree) :
    Performs r euid (walk false depth path tree) (listEntries descend path false (tree.top.map Member.name)) := by
  induction tree with
  | nil => exact performs_pure
  | file m rest ih => exact performs_bind (performs_info hchannel hpresents.2.1) (ih hpresents.2.2)
  | dir m contents rest _ ih => exact performs_bind (performs_info hchannel hpresents.2.1) (ih hpresents.2.2.2)

/-- The walk from the directory that is asked for. -/
def fullWalk (r : HandlerCtx) (recursive : Bool) (path : Str) (tree : Forest Member) :
    List (Visit (Str × Member) PyExc) := walk recursive (r.host.recursionLimit - 1) path tree

theorem performs_listDirectory {path : Str} {tree : Forest Member} (htree : HoldsTree r euid path tree)
    (recursive : Bool) :
    Performs r euid (fullWalk r recursive path tree) (listDirectory r.host.recursionLimit path recursive) := by
  obtain ⟨depth, hdepth⟩ := Nat.exists_eq_succ_of_ne_zero htree.stack.ne'
  rw [fullWalk, hdepth]
  refine performs_after (writes_attempt htree.listdir) ?_
  cases recursive with
  | true => exact performs_entries htree.channel tree depth path htree.presents
  | false => exact performs_members htree.channel _ tree depth path htree.presents

/-- What the request for a listing comes to. -/
theorem ls_walk {msg path : Str} {tree : Forest Member} {recursive : Bool} (config : Settings)
    (hpath : expandVariablesOpt r.environ (extractParameter msg "FILE".toList) = .ok path)
    (hmode : extractParameter msg "LS_MODE".toList = some (if recursive then "R".toList else "N".toList))
    (htree : HoldsTree r euid path tree) {s : HandlerState} (hs : s.broken = false) :
    ((∀ e, stopped (fullWalk r recursive path tree) = some e → e.isOSError = true) →
      (ls msg config r s).1 = .done () ∧
      (ls msg config r s).2.calls = s.calls ++ .ok (some "START_LISTING".toList) ::
        (walkLines euid (fullWalk r recursive path tree)).map .message ++ [.message "END_LISTING".toList]) ∧
    ((∃ e, stopped (fullWalk r recursive path tree) = some e ∧ e.isOSError = false) →
      (ls msg config r s).1 ≠ .done ()) := by
  have hallowed : some (if recursive then "R".toList else "N".toList) ∈
      [some "R".toList, some "A".toList, some "N".toList] := by
    cases recursive <;> decide
  have hflags : decide (some (if recursive then "R".toList else "N".toList) = some "A".toList) = false ∧
      decide (some (if recursive then "R".toList else "N".toList) = some "R".toList) = recursive := by
    cases recursive <;> decide
  have hstart := ls_start config hpath hmode hallowed htree.channel hs
  rw [hflags.1, hflags.2] at hstart
  set t : HandlerState := { s with tick := s.tick + 1, calls := s.calls ++ [.ok (some "START_LISTING".toList)] } with ht
  have hbroken : t.broken = false := hs
  set visits := fullWalk r recursive path tree with hvisits
  have hlisting : Performs r euid visits (listing path false recursive) :=
    performs_after writes_env (performs_after (writes_consult htree.isdir) (performs_listDirectory htree recursive))
  constructor
  · intro hcaught
    have hguarded : Writes r (walkLines euid visits) (listIfExists path false recursive) () := by
      refine writes_after (writes_consult htree.pathExists) fun s hs => ?_
      obtain ⟨n, hn⟩ := hlisting s hs
      refine ⟨n, ?_⟩
      cases hstopped : stopped visits with
      | none =>
          rw [hstopped] at hn
          exact handle_run_done hn
      | some e =>
          -- an `OSError` is caught in `ls`, after the lines that have been written
          rw [hstopped] at hn
          rw [if_pos rfl, handle_run_raised hn, if_pos (hcaught e hstopped)]
          rfl
    have hall : Writes r (walkLines euid visits ++ ["END_LISTING".toList])
        (listIfExists path false recursive >>= fun _ => writeMessage "END_LISTING".toList) () :=
      writes_bind hguarded (writes_message htree.channel _)
    obtain ⟨n, hn⟩ := hall t hbroken
    rw [hstart, hn, ht]
    exact ⟨rfl, by simp⟩
  · rintro ⟨e, hstopped, hos⟩ hdone
    obtain ⟨n, hn⟩ := hlisting { t with tick := t.tick + 1 } hbroken
    rw [hstopped] at hn
    have hraised : ∃ s', listIfExists path false recursive r t = (.raised e, s') := by
      rw [listIfExists, bind_run_done (consult_run _ _ _), htree.pathExists, if_pos rfl, handle_run_raised hn, hos]
      exact ⟨_, rfl⟩
    obtain ⟨s', hs'⟩ := hraised
    rw [hstart, bind_run_raised hs'] at hdone
    cases hdone

end Runs

/-! ## When the listing is complete -/

/-- The entries a listing is to have. -/
def wantedEntries (euid : Int) (recursive : Bool) (path : Str) (tree : Forest Member) : List Str :=
  (listed recursive path tree).filterMap fun p => p.2.wanted euid p.1

/-- The reply has the two marks and between them, but for the lines that end a directory, the entries it is to have,
each of them once. -/
def ListsAll (euid : Int) (recursive : Bool) (path : Str) (tree : Forest Member) (s : HandlerState)
    (ended : Outcome PyExc Unit × HandlerState) : Prop :=
  ended.1 = .done () ∧ ∃ lines : List Str, ended.2.calls =
      s.calls ++ .ok (some "START_LISTING".toList) :: lines.map .message ++ [.message "END_LISTING".toList] ∧
    (lines.filter (· ≠ "<".toList)).Perm (wantedEntries euid recursive path tree)

/-- The host knows the owners and groups of all members that are to be listed, there are no such members left when the
walk comes to a directory that cannot be listed, and it does not run out of stack before. -/
structure Unhindered (r : HandlerCtx) (recursive : Bool) (path : Str) (tree : Forest Member) : Prop where
  known : ∀ p ∈ listed recursive path tree, ∀ info, p.2.stat = .ok info →
    ∃ user group, p.2.user = .ok user ∧ p.2.group = .ok group
  early : ∀ p, .member p ∈ missed (fullWalk r recursive path tree) → ∀ info, p.2.stat ≠ .ok info
  caught : ∀ e, stopped (fullWalk r recursive path tree) = some e → e.isOSError = true

section Complete

variable {euid : Int} {path : Str} {m : Member}

theorem Member.wanted_of_written {text : Str} (h : m.written euid path = some text) : m.wanted euid path = some text := by
  unfold Member.written at h
  split at h
  · rename_i info user group hstat huser hgroup
    rw [Member.wanted, hstat]
    exact h
  · cases h

/-- The entry is written if the owner and the group are known. -/
theorem Member.written_eq_wanted_iff :
    m.written euid path = m.wanted euid path ↔
      ∀ info, m.stat = .ok info → ∃ user group, m.user = .ok user ∧ m.group = .ok group := by
  unfold Member.written Member.wanted
  cases m.stat with
  | error e => simp
  | ok info =>
      cases m.user with
      | error e => simp
      | ok user =>
          cases m.group with
          | error e => simp
          | ok group => simp

theorem Member.wanted_eq_none_iff : m.wanted euid path = none ↔ ∀ info, m.stat ≠ .ok info := by
  unfold Member.wanted
  cases m.stat with
  | error e => simp
  | ok info => simp

/-- An entry is not the line that ends a directory. -/
theorem Member.written_ne_up {text : Str} (h : m.written euid path = some text) : text ≠ "<".toList := by
  have hwanted := Member.wanted_of_written h
  unfold Member.wanted at hwanted
  split at hwanted
  · rename_i info hstat
    obtain ⟨rest, hrest⟩ := entryText_front euid path (m.node info)
    rw [← Option.some.inj hwanted, hrest]
    simp
  · cases hwanted

theorem walkLines_entries (euid : Int) (visits : List (Visit (Str × Member) PyExc)) :
    (walkLines euid visits).filter (· ≠ "<".toList) = (reached visits).filterMap (writtenEntry euid) := by
  unfold walkLines
  induction reached visits with
  | nil => rfl
  | cons v rest ih =>
      rw [List.flatMap_cons, List.filter_append, ih]
      cases v with
      | enter refusal => rfl
      | leave => rfl
      | member p =>
          cases hwritten : p.2.written euid p.1 with
          | none =>
              rw [List.filterMap_cons_none (show writtenEntry euid (.member p) = none from hwritten), visitLines, hwritten]
              rfl
          | some text =>
              rw [List.filterMap_cons_some (show writtenEntry euid (.member p) = some text from hwritten), visitLines,
                hwritten]
              have hkept : [text].filter (· ≠ "<".toList) = [text] :=
                List.filter_eq_self.mpr (List.forall_mem_singleton.mpr (decide_eq_true (Member.written_ne_up hwritten)))
              exact congrArg (· ++ rest.filterMap (writtenEntry euid)) hkept

/-- The walk looks at every member once. -/
theorem walk_labels (recursive : Bool) (depth : ℕ) (path : Str) (tree : Forest Member) :
    ((walk recursive depth path tree).filterMap Visit.label).Perm (listed recursive path tree) := by
  cases recursive with
  | true => exact visits_labels refusalOf recursionError depth (located path tree)
  | false =>
      show (((located path tree).top.map Visit.member).filterMap Visit.label).Perm (located path tree).top
      rw [List.filterMap_map, show (Visit.label ∘ Visit.member : Str × Member → _) = some from rfl, List.filterMap_some]

theorem walk_wanted (euid : Int) (recursive : Bool) (depth : ℕ) (path : Str) (tree : Forest Member) :
    ((walk recursive depth path tree).filterMap (wantedEntry euid)).Perm (wantedEntries euid recursive path tree) := by
  have hboth : (walk recursive depth path tree).filterMap (wantedEntry euid) =
      ((walk recursive depth path tree).filterMap Visit.label).filterMap fun p => p.2.wanted euid p.1 :=
    (List.filterMap_filterMap ..).symm
  rw [hboth]
  exact (walk_labels recursive depth path tree).filterMap _

theorem mem_walk {recursive : Bool} {depth : ℕ} {tree : Forest Member} {p : Str × Member} :
    .member p ∈ walk recursive depth path tree ↔ p ∈ listed recursive path tree := by
  rw [← (walk_labels recursive depth path tree).mem_iff, List.mem_filterMap]
  constructor
  · exact fun h => ⟨_, h, rfl⟩
  · rintro ⟨v, hv, hlabel⟩
    cases v with
    | enter refusal => cases hlabel
    | leave => cases hlabel
    | member p' => rwa [← Option.some.inj hlabel]

end Complete

/-- A host on which `/w` holds a file whose owner it does not know. -/
def strangerHost : Host :=
  { calmHost UserDb.empty.cache with
    pathExists := fun _ _ => true
    isdir := fun _ path => decide (path = "/w".toList)
    stat := fun _ path => .ok
      { mode := if path = "/w".toList then 0o040755 else 0o100644, uid := 4711, gid := 0, size := 0, mtime := 0 }
    listdir := fun _ _ => .ok ["f".toList]
    getpwuid := fun _ uid =>
      if uid = 4711 then .error { kind := .keyError, text := "'getpwuid(): uid not found: 4711'".toList } else .ok none }

def strangerCtx : HandlerCtx := { host := strangerHost, environ := ⟨none, none, none⟩, fuel := 0 }

def strangersFile : Member where
  name := "f".toList
  stat := .ok { mode := 0o100644, uid := 4711, gid := 0, size := 0, mtime := 0 }
  canRead := true
  canWrite := true
  canExec := true
  user := .error { kind := .keyError, text := "'getpwuid(): uid not found: 4711'".toList }
  group := .ok none
  refusal := none

theorem strangerCtx_holds : HoldsTree strangerCtx 0 "/w".toList (.file strangersFile .nil) where
  pathExists _ := rfl
  isdir _ := rfl
  listdir _ := rfl
  presents := by
    refine ⟨fun _ => rfl, ⟨fun _ => rfl, fun _ => rfl, fun _ => rfl, fun _ => rfl, fun _ => rfl, ?_, ?_⟩, trivial⟩
    · intro info h t
      obtain rfl := Except.ok.inj h
      rfl
    · intro info h t
      rfl
  channel _ := rfl
  stack := by decide

end UnicoreTsi.Io
