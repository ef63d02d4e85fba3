/-
# UnicoreTsi.RecursiveListing — the listing of a tree, against the format `ls` documents.

The documented format writes the entry of a subdirectory, then its contents, then a line `<`.  The code writes
the contents and the `<` first and the entry after them.  `ls_documented_iff`: on a tree of files and
directories on which every call succeeds, the lines are those of the format if and only if the directory has no
subdirectory.
-/
import UnicoreTsi.Io
import UnicoreTsi.UserCache
import UnicoreTsi.Lib.Forest

set_option autoImplicit false

namespace UnicoreTsi.Io

open UnicoreTsi.Text UnicoreTsi.Effects UnicoreTsi.Utils UnicoreTsi.Connector UnicoreTsi.Forests

/-! ## A tree and its host -/

/-- A file or a directory, with what the operating system says about it. -/
structure Node where
  name : Str
  stat : StatInfo
  canRead : Bool
  canWrite : Bool
  canExec : Bool
  user : Option Str
  group : Option Str

/-- The two lines `get_info` returns for a node at a path. -/
def entryText (euid : Int) (path : Str) (node : Node) : Str :=
  " ".toList ++ flag (isDirMode node.stat.mode) 'D' ++ flag node.canRead 'R' ++ flag node.canWrite 'W' ++
    flag node.canExec 'X' ++ flag (euid = node.stat.uid) 'O' ++ " ".toList ++ natText node.stat.size ++
    " ".toList ++ intText node.stat.mtime ++ " ".toList ++
    (path.map fun c => if c = '\r' ∨ c = '\n' then '?' else c) ++ "\n--".toList ++
    permissionText node.stat.mode ++ " ".toList ++ node.user.getD (intText node.stat.uid) ++ " ".toList ++
    node.group.getD (intText node.stat.gid)

/-- The host answers every question of `get_info` about a node, at all times. -/
structure Reads (h : Host) (euid : Int) (path : Str) (node : Node) : Prop where
  stat : ∀ t, h.stat t path = .ok node.stat
  canRead : ∀ t, h.access t path 'R' = node.canRead
  canWrite : ∀ t, h.access t path 'W' = node.canWrite
  canExec : ∀ t, h.access t path 'X' = node.canExec
  geteuid : ∀ t, h.geteuid t = euid
  user : ∀ t, h.getpwuid t node.stat.uid = .ok node.user
  group : ∀ t, h.getgrgid t node.stat.gid = .ok node.group

/-- The names in a directory, in listing order. -/
def names : Forest Node → List Str
  | .nil => []
  | .file node rest => node.name :: names rest
  | .dir node _ rest => node.name :: names rest

/-- The host shows a forest as the contents of the directory at `path`. -/
def Shows (h : Host) (euid : Int) : Str → Forest Node → Prop
  | _, .nil => True
  | path, .file node rest =>
      (∀ t, h.isdir t (pathJoin path node.name) = false) ∧ isDirMode node.stat.mode = false ∧
        Reads h euid (pathJoin path node.name) node ∧ Shows h euid path rest
  | path, .dir node contents rest =>
      (∀ t, h.isdir t (pathJoin path node.name) = true) ∧ isDirMode node.stat.mode = true ∧
        Reads h euid (pathJoin path node.name) node ∧
        (∀ t, h.listdir t (pathJoin path node.name) = .ok (names contents)) ∧
        Shows h euid (pathJoin path node.name) contents ∧ Shows h euid path rest

/-- The directory at `path` holds the forest, and every call succeeds. -/
structure HasTree (r : HandlerCtx) (euid : Int) (path : Str) (tree : Forest Node) : Prop where
  pathExists : ∀ t, r.host.pathExists t path = true
  isdir : ∀ t, r.host.isdir t path = true
  listdir : ∀ t, r.host.listdir t path = .ok (names tree)
  shows : Shows r.host euid path tree
  channel : ∀ t, r.host.channelGone t = false
  stack : 0 < r.host.recursionLimit

/-! ## The two formats -/

/-- The tree with the text of its entries. -/
def texts (euid : Int) : Str → Forest Node → Forest Str
  | _, .nil => .nil
  | path, .file node rest => .file (entryText euid (pathJoin path node.name) node) (texts euid path rest)
  | path, .dir node contents rest =>
      .dir (entryText euid (pathJoin path node.name) node) (texts euid (pathJoin path node.name) contents)
        (texts euid path rest)

/-- The line that ends the contents of a directory, or the line pair of an entry. -/
def lineText : Mark Str → Str
  | .up => "<".toList
  | .entry _ text => text

/-- How a reader takes a line: by the flag `D` he knows a directory. -/
def lineMark (text : Str) : Mark Str :=
  if text = "<".toList then .up else .entry (decide (text[1]? = some 'D')) text

/-- The listing as it is documented. -/
def documentedLines (euid : Int) (path : Str) (tree : Forest Node) : List Str :=
  (texts euid path tree).preorder.map lineText

/-- The listing as it is written. -/
def writtenLines (euid : Int) (path : Str) (tree : Forest Node) : List Str :=
  (texts euid path tree).postorder.map lineText

theorem entryText_front (euid : Int) (path : Str) (node : Node) :
    ∃ rest, entryText euid path node = ' ' :: (if isDirMode node.stat.mode then 'D' else ' ') :: rest := by
  have hblank : " ".toList = [' '] := by decide
  have hflag : flag (isDirMode node.stat.mode) 'D' = [if isDirMode node.stat.mode then 'D' else ' '] := by
    rw [flag]
    split <;> rfl
  unfold entryText
  simp only [hflag, hblank, List.append_assoc, List.singleton_append]
  exact ⟨_, rfl⟩

theorem lineMark_entryText (euid : Int) (path : Str) (node : Node) :
    lineMark (entryText euid path node) = .entry (isDirMode node.stat.mode) (entryText euid path node) := by
  obtain ⟨rest, hrest⟩ := entryText_front euid path node
  rw [lineMark, hrest, if_neg (by simp)]
  cases isDirMode node.stat.mode with
  | true => simp
  | false => simp

/-- The marks of a listing can be told from its lines. -/
theorem lineMarks_lines {h : Host} {euid : Int} {path : Str} {tree : Forest Node} (hshows : Shows h euid path tree) :
    ((texts euid path tree).preorder.map lineText).map lineMark = (texts euid path tree).preorder ∧
      ((texts euid path tree).postorder.map lineText).map lineMark = (texts euid path tree).postorder := by
  have hentry : ∀ path (node : Node) isDir, isDirMode node.stat.mode = isDir →
      lineMark (lineText (.entry isDir (entryText euid path node))) = .entry isDir (entryText euid path node) := by
    intro path node isDir hmode
    rw [lineText, lineMark_entryText, hmode]
  have hup : lineMark (lineText .up) = .up := rfl
  induction tree generalizing path with
  | nil => exact ⟨rfl, rfl⟩
  | file node rest ih =>
      obtain ⟨-, hmode, -, hrest⟩ := hshows
      obtain ⟨hpre, hpost⟩ := ih hrest
      simp only [texts, Forest.preorder, Forest.postorder, List.map_cons, hentry _ _ _ hmode, hpre, hpost, and_self]
  | dir node contents rest ihc ihr =>
      obtain ⟨-, hmode, -, -, hcontents, hrest⟩ := hshows
      obtain ⟨hpre, hpost⟩ := ihr hrest
      obtain ⟨hprec, hpostc⟩ := ihc hcontents
      simp only [texts, Forest.preorder, Forest.postorder, List.map_cons, List.map_append, hentry _ _ _ hmode, hup,
        hpre, hpost, hprec, hpostc, and_self]

/-- A reader of the documented format gets the tree back. -/
theorem readMarks_documentedLines {h : Host} {euid : Int} {path : Str} {tree : Forest Node}
    (hshows : Shows h euid path tree) :
    readMarks ((documentedLines euid path tree).map lineMark) = some (texts euid path tree) := by
  rw [documentedLines, (lineMarks_lines hshows).1, readMarks_preorder]

theorem flat_texts {euid : Int} {path : Str} {tree : Forest Node} : (texts euid path tree).Flat ↔ tree.Flat := by
  induction tree with
  | nil => exact Iff.rfl
  | file node rest ih => exact ih
  | dir node contents rest => rw [texts, Forest.Flat, Forest.Flat]

theorem writtenLines_eq_iff {h : Host} {euid : Int} {path : Str} {tree : Forest Node}
    (hshows : Shows h euid path tree) :
    writtenLines euid path tree = documentedLines euid path tree ↔ tree.Flat := by
  obtain ⟨hpre, hpost⟩ := lineMarks_lines hshows
  rw [← @flat_texts euid path, ← postorder_eq_preorder_iff, writtenLines, documentedLines]
  constructor
  · intro heq
    rw [← hpost, heq, hpre]
  · exact fun heq => by rw [heq]

/-! ## What is written -/

section Runs

variable {r : HandlerCtx} {α : Type}

/-- On an open channel `x` ends and writes the lines. -/
def Writes (r : HandlerCtx) (lines : List Str) (x : Handler α) (a : α) : Prop :=
  ∀ s, s.broken = false → ∃ n, x r s =
    (.done a, { s with tick := n, calls := s.calls ++ lines.map .message })

/-- On an open channel `x` runs out of stack. -/
def Overflows (r : HandlerCtx) (x : Handler α) : Prop :=
  ∀ s, s.broken = false → ∃ s', s'.broken = false ∧ x r s = (.raised recursionError, s')

theorem writes_pure (a : α) : Writes r [] (pure a : Handler α) a := by
  intro s _
  exact ⟨s.tick, by simp⟩

theorem writes_env : Writes r [] (ask : Handler HandlerCtx) r := by
  intro s _
  exact ⟨s.tick, by simp⟩

theorem writes_consult {f : Host → Nat → α} {a : α} (h : ∀ t, f r.host t = a) : Writes r [] (consult f) a := by
  intro s _
  refine ⟨s.tick + 1, ?_⟩
  rw [consult_run, h]
  simp

theorem writes_attempt {f : Host → Nat → Except PyExc α} {a : α} (h : ∀ t, f r.host t = .ok a) :
    Writes r [] (attempt f) a := by
  intro s _
  refine ⟨s.tick + 1, ?_⟩
  rw [attempt_run, h]
  simp

theorem writes_bind {β : Type} {x : Handler α} {a : α} {f : α → Handler β} {b : β} {lines more : List Str}
    (hx : Writes r lines x a) (hf : Writes r more (f a) b) : Writes r (lines ++ more) (x >>= f) b := by
  intro s hs
  obtain ⟨n, hn⟩ := hx s hs
  obtain ⟨m, hm⟩ := hf { s with tick := n, calls := s.calls ++ lines.map .message } hs
  refine ⟨m, ?_⟩
  rw [bind_run_done hn, hm]
  simp

/-- A question writes nothing. -/
theorem writes_after {β : Type} {x : Handler α} {a : α} {f : α → Handler β} {b : β} {lines : List Str}
    (hx : Writes r [] x a) (hf : Writes r lines (f a) b) : Writes r lines (x >>= f) b := writes_bind hx hf

theorem writes_message (hchannel : ∀ t, r.host.channelGone t = false) (text : Str) :
    Writes r [text] (writeMessage text) () := by
  intro s hs
  exact ⟨s.tick + 1, send_connected (hchannel _) hs (by simp)⟩

theorem overflows_left {β : Type} {x : Handler α} {f : α → Handler β} (hx : Overflows r x) :
    Overflows r (x >>= f) := by
  intro s hs
  obtain ⟨s', hs', hrun⟩ := hx s hs
  exact ⟨s', hs', bind_run_raised hrun⟩

theorem overflows_right {β : Type} {x : Handler α} {a : α} {f : α → Handler β} {lines : List Str}
    (hx : Writes r lines x a) (hf : Overflows r (f a)) : Overflows r (x >>= f) := by
  intro s hs
  obtain ⟨n, hn⟩ := hx s hs
  rw [bind_run_done hn]
  exact hf _ hs

theorem writes_getInfo {euid : Int} {path : Str} {node : Node} (h : Reads r.host euid path node) :
    Writes r [] (getInfo path) (entryText euid path node) := by
  refine writes_after (writes_attempt h.stat) (writes_after (writes_consult h.canRead) ?_)
  refine writes_after (writes_consult h.canWrite) (writes_after (writes_consult h.canExec) ?_)
  refine writes_after (writes_consult h.geteuid) (writes_after (writes_attempt h.user) ?_)
  exact writes_after (writes_attempt h.group) (writes_pure _)

theorem writes_info {euid : Int} {path : Str} {node : Node} (hchannel : ∀ t, r.host.channelGone t = false)
    (h : Reads r.host euid path node) : Writes r [entryText euid path node] (writeInfo path) () := by
  intro s hs
  obtain ⟨n, hn⟩ := writes_after (writes_getInfo h) (writes_message hchannel (entryText euid path node)) s hs
  exact ⟨n, handle_run_done hn⟩

/-- The listing of a directory: it is written in full if the stack is deep enough for the tree. -/
theorem listDirectory_run {euid : Int} (hchannel : ∀ t, r.host.channelGone t = false) (tree : Forest Node) :
    ∀ (depth : Nat) (path : Str), Shows r.host euid path tree →
      (tree.height ≤ depth → Writes r (writtenLines euid path tree)
        (listEntries (fun subdir => listDirectory depth subdir true) path true (names tree)) ()) ∧
      (depth < tree.height → Overflows r
        (listEntries (fun subdir => listDirectory depth subdir true) path true (names tree))) := by
  induction tree with
  | nil => exact fun depth path _ => ⟨fun _ => writes_pure (), fun h => absurd h (Nat.not_lt_zero depth)⟩
  | file node rest ih =>
      intro depth path hshows
      obtain ⟨hisdir, hmode, hreads, hrest⟩ := hshows
      obtain ⟨hwrites, hoverflows⟩ := ih depth path hrest
      constructor
      · intro hdepth
        show Writes r (writtenLines euid path (.file node rest)) (consult _ >>= _) ()
        refine writes_after (writes_consult hisdir) ?_
        exact writes_bind (writes_info hchannel hreads) (hwrites hdepth)
      · intro hdepth
        show Overflows r (consult _ >>= _)
        refine overflows_right (writes_consult hisdir) ?_
        exact overflows_right (writes_info hchannel hreads) (hoverflows hdepth)
  | dir node contents rest ihc ihr =>
      intro depth path hshows
      obtain ⟨hisdir, hmode, hreads, hlistdir, hcontents, hrest⟩ := hshows
      obtain ⟨hwrites, hoverflows⟩ := ihr depth path hrest
      -- the subdirectory itself, one level further down the stack
      have hdescend : (contents.height < depth → Writes r (writtenLines euid (pathJoin path node.name) contents)
            (listDirectory depth (pathJoin path node.name) true) ()) ∧
          (depth ≤ contents.height → Overflows r (listDirectory depth (pathJoin path node.name) true)) := by
        cases depth with
        | zero =>
            refine ⟨fun h => absurd h (Nat.not_lt_zero _), fun _ => ?_⟩
            exact fun s hs => ⟨s, hs, rfl⟩
        | succ depth =>
            obtain ⟨hwritesc, hoverflowsc⟩ := ihc depth (pathJoin path node.name) hcontents
            constructor
            · intro hdepth
              exact writes_after (writes_attempt hlistdir) (hwritesc (Nat.le_of_lt_succ hdepth))
            · intro hdepth
              exact overflows_right (writes_attempt hlistdir) (hoverflowsc hdepth)
      have hlines : writtenLines euid path (.dir node contents rest) =
          writtenLines euid (pathJoin path node.name) contents ++
            (["<".toList] ++ ([entryText euid (pathJoin path node.name) node] ++ writtenLines euid path rest)) := by
        simp only [writtenLines, texts, Forest.postorder, List.map_append, List.map_cons, lineText, List.singleton_append]
      rw [Forest.height]
      constructor
      · intro hdepth
        rw [hlines]
        show Writes r _ (consult _ >>= _) ()
        refine writes_after (writes_consult hisdir) ?_
        refine writes_bind (hdescend.1 (by omega)) (writes_bind (writes_message hchannel _) ?_)
        exact writes_bind (writes_info hchannel hreads) (hwrites (by omega))
      · intro hdepth
        show Overflows r (consult _ >>= _)
        refine overflows_right (writes_consult hisdir) ?_
        by_cases hdeep : depth ≤ contents.height
        · exact overflows_left (hdescend.2 hdeep)
        · refine overflows_right (hdescend.1 (by omega)) (overflows_right (writes_message hchannel _) ?_)
          exact overflows_right (writes_info hchannel hreads) (hoverflows (by omega))

/-- The reply of a listing that is as documented, and from which a reader gets the tree. -/
def RepliesDocumented (euid : Int) (path : Str) (tree : Forest Node) (s s' : HandlerState) : Prop :=
  ∃ lines, s'.calls = s.calls ++ .ok (some "START_LISTING".toList) :: lines.map .message ++
      [.message "END_LISTING".toList] ∧
    lines = documentedLines euid path tree ∧ readMarks (lines.map lineMark) = some (texts euid path tree)

theorem writes_ok (hchannel : ∀ t, r.host.channelGone t = false) {s : HandlerState} (hs : s.broken = false) :
    ok (some "START_LISTING".toList) r s =
      (.done (), { s with tick := s.tick + 1, calls := s.calls ++ [.ok (some "START_LISTING".toList)] }) :=
  send_connected (hchannel _) hs (by decide)

/-- A listing after its first line. -/
theorem ls_start {msg path mode : Str} (config : Settings)
    (hpath : expandVariablesOpt r.environ (extractParameter msg "FILE".toList) = .ok path)
    (hmode : extractParameter msg "LS_MODE".toList = some mode)
    (hallowed : some mode ∈ [some "R".toList, some "A".toList, some "N".toList])
    (hchannel : ∀ t, r.host.channelGone t = false) {s : HandlerState} (hs : s.broken = false) :
    ls msg config r s = (listIfExists path (decide (some mode = some "A".toList)) (decide (some mode = some "R".toList)) >>=
        fun _ => writeMessage "END_LISTING".toList) r
      { s with tick := s.tick + 1, calls := s.calls ++ [.ok (some "START_LISTING".toList)] } := by
  rw [ls, bind_run_done ask_run, hpath, ofExcept_ok, pure_bind, hmode, if_neg (not_not_intro hallowed)]
  exact bind_run_done (writes_ok hchannel hs)

/-- A recursive listing runs out of stack, or writes the lines in the order of the code. -/
theorem ls_run {euid : Int} {msg path : Str} {tree : Forest Node} (config : Settings)
    (hpath : expandVariablesOpt r.environ (extractParameter msg "FILE".toList) = .ok path)
    (hmode : extractParameter msg "LS_MODE".toList = some "R".toList) (htree : HasTree r euid path tree)
    {s : HandlerState} (hs : s.broken = false) :
    (tree.height < r.host.recursionLimit → (ls msg config r s).1 = .done () ∧
      (ls msg config r s).2.calls = s.calls ++ .ok (some "START_LISTING".toList) ::
        (writtenLines euid path tree).map .message ++ [.message "END_LISTING".toList]) ∧
      (r.host.recursionLimit ≤ tree.height → (ls msg config r s).1 = .raised recursionError) := by
  obtain ⟨depth, hdepth⟩ : ∃ d, r.host.recursionLimit = d + 1 := ⟨r.host.recursionLimit - 1, by have := htree.stack; omega⟩
  obtain ⟨hwrites, hoverflows⟩ := listDirectory_run htree.channel tree depth path htree.shows
  have hlist : (tree.height < r.host.recursionLimit →
        Writes r (writtenLines euid path tree) (listDirectory r.host.recursionLimit path true) ()) ∧
      (r.host.recursionLimit ≤ tree.height → Overflows r (listDirectory r.host.recursionLimit path true)) := by
    rw [hdepth]
    constructor
    · intro h
      exact writes_after (writes_attempt htree.listdir) (hwrites (Nat.le_of_lt_succ h))
    · intro h
      exact overflows_right (writes_attempt htree.listdir) (hoverflows h)
  -- the state the listing starts from
  obtain ⟨t, ht⟩ : ∃ t : HandlerState, t =
      { s with tick := s.tick + 1, calls := s.calls ++ [.ok (some "START_LISTING".toList)] } := ⟨_, rfl⟩
  have hbroken : t.broken = false := by rw [ht]; exact hs
  have hstart : ls msg config r s =
      (listIfExists path false true >>= fun _ => writeMessage "END_LISTING".toList) r t := by
    rw [ht]
    exact ls_start config hpath hmode (by decide) htree.channel hs
  constructor
  · intro h
    have hlisting : Writes r (writtenLines euid path tree) (listing path false true) () :=
      writes_after writes_env (writes_after (writes_consult htree.isdir) (hlist.1 h))
    have hguarded : Writes r (writtenLines euid path tree) (listIfExists path false true) () := by
      refine writes_after (writes_consult htree.pathExists) fun s hs => ?_
      obtain ⟨n, hn⟩ := hlisting s hs
      exact ⟨n, handle_run_done hn⟩
    have hall : Writes r (writtenLines euid path tree ++ ["END_LISTING".toList])
        (listIfExists path false true >>= fun _ => writeMessage "END_LISTING".toList) () :=
      writes_bind hguarded (writes_message htree.channel _)
    obtain ⟨n, hn⟩ := hall t hbroken
    rw [hstart, hn, ht]
    exact ⟨rfl, by simp⟩
  · intro h
    have hlisting : Overflows r (listing path false true) :=
      overflows_right writes_env (overflows_right (writes_consult htree.isdir) (hlist.2 h))
    have hguarded : Overflows r (listIfExists path false true) := by
      refine overflows_right (writes_consult htree.pathExists) fun s hs => ?_
      obtain ⟨s', hs', hrun⟩ := hlisting s hs
      exact ⟨s', hs', handle_run_raised hrun⟩
    obtain ⟨s', -, hrun⟩ := overflows_left (f := fun _ => writeMessage "END_LISTING".toList) hguarded t hbroken
    rw [hstart, hrun]

/-- **Recursive listing.**  The lines are the documented ones exactly where there is no subdirectory. -/
theorem ls_documented_iff {euid : Int} {msg path : Str} {tree : Forest Node} (config : Settings)
    (hpath : expandVariablesOpt r.environ (extractParameter msg "FILE".toList) = .ok path)
    (hmode : extractParameter msg "LS_MODE".toList = some "R".toList) (htree : HasTree r euid path tree)
    {s : HandlerState} (hs : s.broken = false) :
    (ls msg config r s).1 = .done () ∧ RepliesDocumented euid path tree s (ls msg config r s).2 ↔ tree.Flat := by
  obtain ⟨hfits, hoverflows⟩ := ls_run config hpath hmode htree hs
  constructor
  · rintro ⟨hdone, lines, hcalls, hlines, -⟩
    have hheight : tree.height < r.host.recursionLimit := by
      by_contra hdeep
      rw [hoverflows (Nat.le_of_not_lt hdeep)] at hdone
      cases hdone
    rw [(hfits hheight).2] at hcalls
    have hmessages : (writtenLines euid path tree).map ConnCall.message = lines.map ConnCall.message := by
      have := List.append_cancel_right hcalls
      simpa using this
    have hsame : writtenLines euid path tree = lines :=
      List.map_injective_iff.mpr (fun _ _ h => ConnCall.message.inj h) hmessages
    exact (writtenLines_eq_iff htree.shows).mp (hsame.trans hlines)
  · intro hflat
    have hheight : tree.height < r.host.recursionLimit := by
      rw [Forest.height_of_flat hflat]
      exact htree.stack
    obtain ⟨hdone, hcalls⟩ := hfits hheight
    refine ⟨hdone, writtenLines euid path tree, hcalls, (writtenLines_eq_iff htree.shows).mpr hflat, ?_⟩
    rw [(writtenLines_eq_iff htree.shows).mpr hflat]
    exact readMarks_documentedLines htree.shows

end Runs

/-- A directory `/w` that holds a directory `d`, which holds a file `f`. -/
def nestedHost : Host :=
  { calmHost UserDb.empty.cache with
    pathExists := fun _ _ => true
    isdir := fun _ path => decide (path ∈ ["/w".toList, "/w/d".toList])
    stat := fun _ path => .ok
      { mode := if path ∈ ["/w".toList, "/w/d".toList] then 0o040755 else 0o100644, uid := 0, gid := 0, size := 0,
        mtime := 0 }
    listdir := fun _ path => .ok (if path = "/w".toList then ["d".toList] else ["f".toList]) }

def nestedCtx : HandlerCtx := { host := nestedHost, environ := ⟨none, none, none⟩, fuel := 0 }

def demoNode (name : Str) (mode : Nat) : Node :=
  { name := name, stat := { mode := mode, uid := 0, gid := 0, size := 0, mtime := 0 }, canRead := true,
    canWrite := true, canExec := true, user := none, group := none }

def fileTree : Forest Node := .file (demoNode "f".toList 0o100644) .nil

def nestedTree : Forest Node := .dir (demoNode "d".toList 0o040755) fileTree .nil

theorem nestedHost_reads {path name : Str} {mode : Nat} (h : ∀ t, nestedHost.stat t path = .ok (demoNode name mode).stat) :
    Reads nestedHost 0 path (demoNode name mode) :=
  ⟨h, fun _ => rfl, fun _ => rfl, fun _ => rfl, fun _ => rfl, fun _ => rfl, fun _ => rfl⟩

theorem nestedCtx_hasFileTree : HasTree nestedCtx 0 "/w/d".toList fileTree where
  pathExists _ := rfl
  isdir _ := rfl
  listdir _ := rfl
  shows := ⟨fun _ => rfl, rfl, nestedHost_reads fun _ => rfl, trivial⟩
  channel _ := rfl
  stack := by decide

theorem nestedCtx_hasNestedTree : HasTree nestedCtx 0 "/w".toList nestedTree where
  pathExists _ := rfl
  isdir _ := rfl
  listdir _ := rfl
  shows := ⟨fun _ => rfl, rfl, nestedHost_reads fun _ => rfl, fun _ => rfl, nestedCtx_hasFileTree.shows, trivial⟩
  channel _ := rfl
  stack := by decide

theorem ls_documented_fileTree :
    (ls "#TSI_FILE /w/d\n#TSI_LS_MODE R\n".toList {} nestedCtx .fresh).1 = .done () ∧
      RepliesDocumented 0 "/w/d".toList fileTree .fresh
        (ls "#TSI_FILE /w/d\n#TSI_LS_MODE R\n".toList {} nestedCtx .fresh).2 ↔ fileTree.Flat :=
  ls_documented_iff {} (by decide +kernel) (by decide +kernel) nestedCtx_hasFileTree rfl

/-- The entry of a subdirectory is listed after its contents. -/
theorem subdirectory_listed_late : ¬ ∀ (r : HandlerCtx) (euid : Int) (msg path : Str) (tree : Forest Node)
    (config : Settings), expandVariablesOpt r.environ (extractParameter msg "FILE".toList) = .ok path →
    extractParameter msg "LS_MODE".toList = some "R".toList → HasTree r euid path tree →
    RepliesDocumented euid path tree .fresh (ls msg config r .fresh).2 := by
  intro h
  obtain ⟨lines, hcalls, hlines, -⟩ := h nestedCtx 0 "#TSI_FILE /w\n#TSI_LS_MODE R\n".toList "/w".toList nestedTree {}
    (by decide +kernel) (by decide +kernel) nestedCtx_hasNestedTree
  rw [hlines] at hcalls
  revert hcalls
  decide +kernel

end UnicoreTsi.Io
