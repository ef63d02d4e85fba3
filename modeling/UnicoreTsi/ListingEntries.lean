/-
# UnicoreTsi.ListingEntries — reading the entries of a listing back.

An entry is a line that starts with a blank and a line that starts with `--`, and the only free text that the
file's owner chooses comes last on the first of them, without its line breaks.  A reader of the documented format
therefore gets every field back (`readListing_listingText`), and there is no other way to cut the text into pairs of
lines.  `listing_read_back` is this for whatever `ls` writes in the modes A and N.
-/
import UnicoreTsi.Numbers
import UnicoreTsi.RecursiveListing
import Mathlib.Data.Nat.Bitwise

set_option autoImplicit false

namespace UnicoreTsi.Io

open UnicoreTsi.Text UnicoreTsi.Effects UnicoreTsi.Utils UnicoreTsi.Connector

/-! ## Entries -/

/-- What an entry is written from: the TSI's user, the path, and what the operating system says about it. -/
structure Entry where
  euid : Int
  path : Str
  node : Node

/-- Both names are on one line. -/
def OneLineName (name : Str) : Prop := '\n' ∉ name ∧ '\r' ∉ name

namespace Entry

/-- The path with its line breaks replaced. -/
def shownPath (e : Entry) : Str := e.path.map fun c => if c = '\r' ∨ c = '\n' then '?' else c

def user (e : Entry) : Str := e.node.user.getD (intText e.node.stat.uid)

def group (e : Entry) : Str := e.node.group.getD (intText e.node.stat.gid)

/-- The first line: flags, size, time and path. -/
def mainLine (e : Entry) : Str :=
  " ".toList ++ flag (isDirMode e.node.stat.mode) 'D' ++ flag e.node.canRead 'R' ++ flag e.node.canWrite 'W' ++
    flag e.node.canExec 'X' ++ flag (e.euid = e.node.stat.uid) 'O' ++ " ".toList ++ natText e.node.stat.size ++
    " ".toList ++ intText e.node.stat.mtime ++ " ".toList ++ e.shownPath

/-- The second line: permissions and owner. -/
def extendedLine (e : Entry) : Str :=
  "--".toList ++ permissionText e.node.stat.mode ++ " ".toList ++ e.user ++ " ".toList ++ e.group

/-- The text of the entry. -/
def text (e : Entry) : Str := entryText e.euid e.path e.node

/-- The names of the owner and of the group, if there are names, are on one line. -/
def OneLineOwners (e : Entry) : Prop :=
  (∀ name, e.node.user = some name → OneLineName name) ∧ ∀ name, e.node.group = some name → OneLineName name

end Entry

/-- What a reader learns about a file. -/
structure FileInfo where
  isDirectory : Bool
  canRead : Bool
  canWrite : Bool
  canExec : Bool
  isOwner : Bool
  size : Int
  mtime : Int
  permissions : List Bool
  path : Str
  deriving DecidableEq, Repr

/-- What there is to learn from an entry; the nine permission bits are the lowest of the mode. -/
def Entry.info (e : Entry) : FileInfo where
  isDirectory := isDirMode e.node.stat.mode
  canRead := e.node.canRead
  canWrite := e.node.canWrite
  canExec := e.node.canExec
  isOwner := decide (e.euid = e.node.stat.uid)
  size := e.node.stat.size
  mtime := e.node.stat.mtime
  permissions := [8, 7, 6, 5, 4, 3, 2, 1, 0].map e.node.stat.mode.testBit
  path := e.shownPath

/-! ## The documented format -/

/-- The two lines of an entry: seven characters, two numbers and the path, and then the permissions. -/
def readEntry (main extended : Str) : Option FileInfo :=
  match main, extended with
  | ' ' :: d :: r :: w :: x :: o :: ' ' :: rest, '-' :: '-' :: permissions => do
      let (size, rest) ← splitOnce ' ' rest
      let (mtime, path) ← splitOnce ' ' rest
      let size ← (pyInt 10 size).toOption
      let mtime ← (pyInt 10 mtime).toOption
      return { isDirectory := d = 'D', canRead := r = 'R', canWrite := w = 'W', canExec := x = 'X', isOwner := o = 'O',
               size := size, mtime := mtime, permissions := (permissions.take 9).map (· ≠ '-'), path := path }
  | _, _ => none

/-- A listing without subdirectories is a sequence of line pairs. -/
def readPairs : List Str → Option (List FileInfo)
  | [] => some []
  | [_] => none
  | main :: extended :: rest => do
      let info ← readEntry main extended
      let infos ← readPairs rest
      return info :: infos

def readListing (text : Str) : Option (List FileInfo) := readPairs (completeLines text)

/-! ## One entry -/

section Entry

variable {e : Entry}

theorem flag_eq (set : Bool) (c : Char) : flag set c = [if set then c else ' '] := by
  cases set <;> rfl

theorem Entry.text_eq (e : Entry) : e.text = e.mainLine ++ '\n' :: e.extendedLine := by
  have hbreak : "\n--".toList = '\n' :: "--".toList := by decide
  unfold Entry.text entryText Entry.mainLine Entry.extendedLine Entry.shownPath Entry.user Entry.group
  simp only [hbreak, List.append_assoc, List.cons_append]

theorem Entry.mainLine_eq (e : Entry) :
    e.mainLine = ' ' :: (if isDirMode e.node.stat.mode then 'D' else ' ') :: (if e.node.canRead then 'R' else ' ') ::
      (if e.node.canWrite then 'W' else ' ') :: (if e.node.canExec then 'X' else ' ') ::
      (if decide (e.euid = e.node.stat.uid) then 'O' else ' ') :: ' ' ::
      (natText e.node.stat.size ++ ' ' :: (intText e.node.stat.mtime ++ ' ' :: e.shownPath)) := by
  have hblank : " ".toList = [' '] := by decide
  unfold Entry.mainLine
  simp only [flag_eq, hblank, List.append_assoc, List.cons_append, List.nil_append]

theorem Entry.extendedLine_eq (e : Entry) :
    e.extendedLine = '-' :: '-' :: (permissionText e.node.stat.mode ++ ' ' :: (e.user ++ ' ' :: e.group)) := by
  have hblank : " ".toList = [' '] := by decide
  have hdashes : "--".toList = ['-', '-'] := by decide
  unfold Entry.extendedLine
  simp only [hblank, hdashes, List.append_assoc, List.cons_append, List.nil_append]

theorem bit_ne_zero (mode i : ℕ) : (mode &&& 2 ^ i ≠ 0) ↔ mode.testBit i = true := by
  rw [Nat.and_two_pow]
  cases mode.testBit i <;> simp

/-- The nine letters are the nine bits. -/
theorem permissionText_bits (mode : ℕ) (rest : Str) :
    ((permissionText mode ++ rest).take 9).map (fun c => decide (c ≠ '-')) =
      [8, 7, 6, 5, 4, 3, 2, 1, 0].map mode.testBit := by
  have hlength : (permissionText mode).length = 9 := by rw [permissionText, List.length_map]; rfl
  have hbit : ∀ (i : ℕ) (c : Char), c ≠ '-' →
      decide ((if mode &&& 2 ^ i ≠ 0 then c else '-') ≠ '-') = mode.testBit i := by
    intro i c hc
    cases hi : mode.testBit i with
    | true => simp [(bit_ne_zero mode i).mpr hi, hc]
    | false =>
        have hzero : mode &&& 2 ^ i = 0 := by
          by_contra hne
          rw [(bit_ne_zero mode i).mp hne] at hi
          cases hi
        simp [hzero]
  rw [List.take_append_of_le_length hlength.ge, List.take_of_length_le hlength.le]
  have hr := fun i => hbit i 'r' (by decide)
  have hw := fun i => hbit i 'w' (by decide)
  have hx := fun i => hbit i 'x' (by decide)
  show [_, _, _, _, _, _, _, _, _] = [_, _, _, _, _, _, _, _, _]
  rw [← hr 8, ← hw 7, ← hx 6, ← hr 5, ← hw 4, ← hx 3, ← hr 2, ← hw 1, ← hx 0]
  rfl

theorem readEntry_eq (d r w x o : Char) (rest permissions : Str) :
    readEntry (' ' :: d :: r :: w :: x :: o :: ' ' :: rest) ('-' :: '-' :: permissions) = (do
      let (size, rest) ← splitOnce ' ' rest
      let (mtime, path) ← splitOnce ' ' rest
      let size ← (pyInt 10 size).toOption
      let mtime ← (pyInt 10 mtime).toOption
      return ⟨d = 'D', r = 'R', w = 'W', x = 'X', o = 'O', size, mtime, (permissions.take 9).map (· ≠ '-'), path⟩) := rfl

theorem readEntry_lines (e : Entry) : readEntry e.mainLine e.extendedLine = some e.info := by
  have hblank : isSpace ' ' = true := by decide
  have hsize : ' ' ∉ natText e.node.stat.size := not_mem_intText hblank (e.node.stat.size : Int)
  have htime : ' ' ∉ intText e.node.stat.mtime := not_mem_intText hblank _
  have hset : ∀ (b : Bool) (c : Char), c ≠ ' ' → decide ((if b then c else ' ') = c) = b := by
    intro b c hc
    cases b with
    | true => simp
    | false => simp [hc.symm]
  rw [Entry.mainLine_eq, Entry.extendedLine_eq, readEntry_eq, splitOnce_append hsize]
  dsimp only [Option.bind_eq_bind, Option.bind_some]
  rw [splitOnce_append htime]
  dsimp only [Option.bind_some]
  rw [pyInt_natText, pyInt_intText]
  dsimp only [Except.toOption, Option.bind_some]
  rw [permissionText_bits, hset _ _ (by decide), hset _ _ (by decide), hset _ _ (by decide), hset _ _ (by decide),
    hset _ _ (by decide)]
  rfl

theorem Entry.shownPath_oneLine (e : Entry) : OneLineName e.shownPath := by
  have hshown : ∀ c ∈ e.shownPath, c ≠ '\n' ∧ c ≠ '\r' := by
    intro c hc
    obtain ⟨d, -, rfl⟩ := List.mem_map.mp hc
    split
    · decide
    · rename_i hd
      exact ⟨fun h => hd (Or.inr h), fun h => hd (Or.inl h)⟩
  exact ⟨fun hmem => (hshown _ hmem).1 rfl, fun hmem => (hshown _ hmem).2 rfl⟩

theorem Entry.mainLine_oneLine (e : Entry) : OneLineName e.mainLine := by
  obtain ⟨hnewline, hreturn⟩ := e.shownPath_oneLine
  have hset : ∀ (b : Bool) (c d : Char), c ≠ d → d ≠ ' ' → d ≠ if b then c else ' ' := by
    intro b c d hc hd
    split
    · exact hc.symm
    · exact hd
  have hnumber : ∀ (n : ℕ) c, isSpace c = true → c ∉ natText n := fun n c hc => not_mem_intText hc (n : Int)
  rw [Entry.mainLine_eq]
  constructor
  · simp only [List.mem_cons, List.mem_append, not_or]
    refine ⟨by decide, ?_, ?_, ?_, ?_, ?_, by decide, hnumber _ _ (by decide), by decide,
      not_mem_intText (by decide) _, by decide, hnewline⟩
    all_goals exact hset _ _ _ (by decide) (by decide)
  · simp only [List.mem_cons, List.mem_append, not_or]
    refine ⟨by decide, ?_, ?_, ?_, ?_, ?_, by decide, hnumber _ _ (by decide), by decide,
      not_mem_intText (by decide) _, by decide, hreturn⟩
    all_goals exact hset _ _ _ (by decide) (by decide)

theorem oneLine_getD {name : Option Str} (h : ∀ n, name = some n → OneLineName n) (id : Int) :
    OneLineName (name.getD (intText id)) := by
  cases name with
  | none => exact ⟨not_mem_intText (by decide) id, not_mem_intText (by decide) id⟩
  | some n => exact h n rfl

theorem Entry.extendedLine_oneLine (h : e.OneLineOwners) : OneLineName e.extendedLine := by
  have huser : OneLineName e.user := oneLine_getD h.1 _
  have hgroup : OneLineName e.group := oneLine_getD h.2 _
  have hpermissions : ∀ c ∈ permissionText e.node.stat.mode, isSpace c = false := by
    have htable : ∀ p ∈ modeTable, isSpace p.2 = false := by decide
    intro c hc
    obtain ⟨p, hp, rfl⟩ := List.mem_map.mp hc
    split
    · exact htable p hp
    · decide
  have hbreak : ∀ c, isSpace c = true → c ∉ permissionText e.node.stat.mode := by
    intro c hc hmem
    rw [hpermissions c hmem] at hc
    cases hc
  rw [Entry.extendedLine_eq]
  constructor
  · simp only [List.mem_cons, List.mem_append, not_or]
    exact ⟨by decide, by decide, hbreak _ (by decide), by decide, huser.1, by decide, hgroup.1⟩
  · simp only [List.mem_cons, List.mem_append, not_or]
    exact ⟨by decide, by decide, hbreak _ (by decide), by decide, huser.2, by decide, hgroup.2⟩

end Entry

/-! ## A whole listing -/

/-- The lines of these pairs. -/
def pairLines (pairs : List (Str × Str)) : List Str := pairs.flatMap fun p => [p.1, p.2]

/-- What is written on the channel for these entries. -/
def listingText (entries : List Entry) : Str := channelText (entries.map fun e => .message e.text)

def Entry.lines (e : Entry) : Str × Str := (e.mainLine, e.extendedLine)

theorem pairLines_injective {ps qs : List (Str × Str)} (h : pairLines ps = pairLines qs) : ps = qs := by
  induction ps generalizing qs with
  | nil =>
      cases qs with
      | nil => rfl
      | cons q qs => cases h
  | cons p ps ih =>
      cases qs with
      | nil => cases h
      | cons q qs =>
          obtain ⟨hfirst, hsecond, hrest⟩ : p.1 = q.1 ∧ p.2 = q.2 ∧ pairLines ps = pairLines qs := by
            simpa [pairLines] using h
          rw [Prod.ext hfirst hsecond, ih hrest]

/-- The listing is the line pairs of its entries. -/
theorem listingText_eq (entries : List Entry) : listingText entries = unlines (pairLines (entries.map Entry.lines)) := by
  induction entries with
  | nil => rfl
  | cons e entries ih =>
      have hfirst : listingText (e :: entries) = (e.text ++ ['\n']) ++ listingText entries := by
        unfold listingText channelText
        rw [List.map_cons, List.flatMap_cons]
        congr 1
      have hlines : pairLines ((e :: entries).map Entry.lines) =
          e.mainLine :: e.extendedLine :: pairLines (entries.map Entry.lines) := rfl
      rw [hfirst, hlines, unlines_cons, unlines_cons, ← ih, Entry.text_eq, List.append_assoc, List.append_assoc,
        List.cons_append, List.singleton_append]

theorem pairLines_oneLine {entries : List Entry} (h : ∀ e ∈ entries, e.OneLineOwners) :
    ∀ line ∈ pairLines (entries.map Entry.lines), OneLineName line := by
  intro line hline
  obtain ⟨p, hp, hmem⟩ := List.mem_flatMap.mp hline
  obtain ⟨e, he, rfl⟩ := List.mem_map.mp hp
  rcases List.mem_cons.mp hmem with rfl | hmem
  · exact e.mainLine_oneLine
  · obtain rfl := List.mem_singleton.mp hmem
    exact Entry.extendedLine_oneLine (h e he)

theorem completeLines_listingText {entries : List Entry} (h : ∀ e ∈ entries, e.OneLineOwners) :
    completeLines (listingText entries) = pairLines (entries.map Entry.lines) := by
  rw [listingText_eq]
  exact completeLines_unlines fun line hline => (pairLines_oneLine h line hline).1

theorem readListing_listingText {entries : List Entry} (h : ∀ e ∈ entries, e.OneLineOwners) :
    readListing (listingText entries) = some (entries.map Entry.info) := by
  have hpairs : ∀ es : List Entry, readPairs (pairLines (es.map Entry.lines)) = some (es.map Entry.info) := by
    intro es
    induction es with
    | nil => rfl
    | cons e es ih =>
        show (readEntry e.mainLine e.extendedLine >>= fun info =>
          readPairs (pairLines (es.map Entry.lines)) >>= fun infos => some (info :: infos)) = _
        rw [readEntry_lines, ih]
        rfl
  rw [readListing, completeLines_listingText h, hpairs]

/-- A line of an entry starts with a blank or a dash. -/
theorem line_head {entries : List Entry} {line : Str} (h : line ∈ pairLines (entries.map Entry.lines)) :
    line.head? = some ' ' ∨ line.head? = some '-' := by
  obtain ⟨p, hp, hmem⟩ := List.mem_flatMap.mp h
  obtain ⟨e, -, rfl⟩ := List.mem_map.mp hp
  rcases List.mem_cons.mp hmem with rfl | hmem
  · exact Or.inl (congrArg List.head? e.mainLine_eq)
  · obtain rfl := List.mem_singleton.mp hmem
    exact Or.inr (congrArg List.head? e.extendedLine_eq)

/-- The text of the entries can be read in one way only. -/
structure UniquelyRead (entries : List Entry) : Prop where
  reads : readListing (listingText entries) = some (entries.map Entry.info)
  pairs : ∀ pairs : List (Str × Str), (∀ p ∈ pairs, '\n' ∉ p.1 ∧ '\n' ∉ p.2) →
    unlines (pairLines pairs) = listingText entries → pairs = entries.map Entry.lines
  marks : ∀ line ∈ completeLines (listingText entries),
    line ≠ "<".toList ∧ line ≠ "END_LISTING".toList ∧ line ≠ endOfMessage
  breaks : ∀ line ∈ completeLines (listingText entries), '\r' ∉ line
  complete : unlines (completeLines (listingText entries)) = listingText entries

theorem uniquelyRead {entries : List Entry} (h : ∀ e ∈ entries, e.OneLineOwners) : UniquelyRead entries where
  reads := readListing_listingText h
  pairs := by
    intro pairs hpairs htext
    have hlines : ∀ line ∈ pairLines pairs, '\n' ∉ line := by
      intro line hline
      obtain ⟨p, hp, hmem⟩ := List.mem_flatMap.mp hline
      rcases List.mem_cons.mp hmem with rfl | hmem
      · exact (hpairs p hp).1
      · obtain rfl := List.mem_singleton.mp hmem
        exact (hpairs p hp).2
    apply pairLines_injective
    rw [← completeLines_listingText h, ← htext, completeLines_unlines hlines]
  marks := by
    intro line hline
    rw [completeLines_listingText h] at hline
    have hhead := line_head hline
    refine ⟨?_, ?_, ?_⟩
    all_goals
      rintro rfl
      revert hhead
      decide
  breaks := by
    intro line hline
    rw [completeLines_listingText h] at hline
    exact (pairLines_oneLine h line hline).2
  complete := by rw [completeLines_listingText h, listingText_eq]

/-! ## What is written in the modes A and N -/

/-- The host has given these answers, one after the other. -/
def Observed (host : Host) (e : Entry) : Prop :=
  ∃ t, host.stat t e.path = .ok e.node.stat ∧ host.access (t + 1) e.path 'R' = e.node.canRead ∧
    host.access (t + 2) e.path 'W' = e.node.canWrite ∧ host.access (t + 3) e.path 'X' = e.node.canExec ∧
    host.geteuid (t + 4) = e.euid ∧ host.getpwuid (t + 5) e.node.stat.uid = .ok e.node.user ∧
    host.getgrgid (t + 6) e.node.stat.gid = .ok e.node.group

/-- The names of users and groups are on one line. -/
structure OneLineNames (host : Host) : Prop where
  users : ∀ t uid name, host.getpwuid t uid = .ok (some name) → OneLineName name
  groups : ∀ t gid name, host.getgrgid t gid = .ok (some name) → OneLineName name

theorem Observed.oneLineOwners {host : Host} {e : Entry} (h : Observed host e) (hnames : OneLineNames host) :
    e.OneLineOwners := by
  obtain ⟨t, -, -, -, -, -, huser, hgroup⟩ := h
  constructor
  · intro name hname
    rw [hname] at huser
    exact hnames.users _ _ _ huser
  · intro name hname
    rw [hname] at hgroup
    exact hnames.groups _ _ _ hgroup

/-- These entries have been written, and nothing else. -/
def WritesEntries (host : Host) (paths : List Str) (s s' : HandlerState) : Prop :=
  ∃ entries : List Entry, s'.calls = s.calls ++ entries.map (fun e => .message e.text) ∧ (∀ e ∈ entries, Observed host e) ∧
    (entries.map Entry.path).Sublist paths

section Runs

variable {r : HandlerCtx} {s s' : HandlerState}

theorem writesEntries_none (paths : List Str) (h : s'.calls = s.calls) : WritesEntries r.host paths s s' :=
  ⟨[], by rw [h]; exact (List.append_nil _).symm, nofun, List.nil_sublist _⟩

theorem WritesEntries.mono {host : Host} {paths more : List Str} (h : WritesEntries host paths s s')
    (hsub : paths.Sublist more) : WritesEntries host more s s' := by
  obtain ⟨entries, hcalls, hobserved, hpaths⟩ := h
  exact ⟨entries, hcalls, hobserved, hpaths.trans hsub⟩

theorem WritesEntries.append {host : Host} {paths more : List Str} {s'' : HandlerState}
    (h : WritesEntries host paths s s') (h' : WritesEntries host more s' s'') :
    WritesEntries host (paths ++ more) s s'' := by
  obtain ⟨entries, hcalls, hobserved, hpaths⟩ := h
  obtain ⟨entries', hcalls', hobserved', hpaths'⟩ := h'
  refine ⟨entries ++ entries', ?_, List.forall_mem_append.mpr ⟨hobserved, hobserved'⟩, ?_⟩
  · rw [hcalls', hcalls, List.append_assoc, List.map_append]
  · rw [List.map_append]
    exact hpaths.append hpaths'

theorem getInfo_done {path text : Str} (h : getInfo path r s = (.done text, s')) :
    s'.calls = s.calls ∧ ∃ e : Entry, e.path = path ∧ text = e.text ∧ Observed r.host e := by
  obtain ⟨statinfo, s₁, hasked, h⟩ := bind_eq_done.mp h
  obtain ⟨hstat, rfl⟩ := attempt_eq_done.mp hasked
  rw [bind_run_done (consult_run _ _ _), bind_run_done (consult_run _ _ _), bind_run_done (consult_run _ _ _),
    bind_run_done (consult_run _ _ _)] at h
  obtain ⟨pwdEntry, s₂, haskedUser, h⟩ := bind_eq_done.mp h
  obtain ⟨huser, rfl⟩ := attempt_eq_done.mp haskedUser
  obtain ⟨grpEntry, s₃, haskedGroup, h⟩ := bind_eq_done.mp h
  obtain ⟨hgroup, rfl⟩ := attempt_eq_done.mp haskedGroup
  obtain ⟨htext, rfl⟩ := Prod.mk.inj h
  refine ⟨rfl, ⟨_, path, ⟨path, statinfo, _, _, _, pwdEntry, grpEntry⟩⟩, rfl, (Outcome.done.inj htext).symm, ?_⟩
  exact ⟨s.tick, hstat, rfl, rfl, rfl, rfl, huser, hgroup⟩

theorem getInfo_ticks (path : Str) : Within Ticks (getInfo path) := by
  refine within_bind (attempt_ticks _) fun statinfo => ?_
  refine within_bind (consult_ticks _) fun isRead => ?_
  refine within_bind (consult_ticks _) fun isWrite => ?_
  refine within_bind (consult_ticks _) fun isExec => ?_
  refine within_bind (consult_ticks _) fun euid => ?_
  refine within_bind (attempt_ticks _) fun pwdEntry => ?_
  exact within_bind (attempt_ticks _) fun grpEntry => within_pure _

theorem send_calls (c : ConnCall) (r : HandlerCtx) (s : HandlerState) : (send c r s).2.calls = s.calls ++ [c] := by
  rw [send_run]
  split
  · rfl
  · exact acknowledge_calls _ _

/-- An entry is written, or the host does not give one of the answers. -/
theorem getInfo_message (path : Str) (r : HandlerCtx) (s : HandlerState) :
    WritesEntries r.host [path] s ((getInfo path >>= writeMessage) r s).2 := by
  refine bind_post ?_ fun text t hinfo => ?_
  · obtain ⟨n, hn⟩ := getInfo_ticks path r s
    rw [hn]
    exact writesEntries_none _ rfl
  · obtain ⟨hcalls, e, rfl, rfl, hobserved⟩ := getInfo_done hinfo
    refine ⟨[e], ?_, List.forall_mem_singleton.mpr hobserved, List.Sublist.refl _⟩
    rw [writeMessage, send_calls, hcalls]
    rfl

theorem writeInfo_entries (path : Str) (r : HandlerCtx) (s : HandlerState) :
    WritesEntries r.host [path] s (writeInfo path r s).2 := by
  refine handle_post (getInfo_message path r s) fun e t hraised => ?_
  have hwrites := getInfo_message path r s
  rw [hraised] at hwrites
  exact hwrites

theorem listEntries_entries (descend : Str → Handler Unit) (path : Str) (names : List Str) (r : HandlerCtx)
    (s : HandlerState) :
    WritesEntries r.host (names.map (pathJoin path)) s (listEntries descend path false names r s).2 := by
  induction names generalizing s with
  | nil => exact writesEntries_none _ rfl
  | cons name names ih =>
      show WritesEntries r.host _ s ((writeInfo (pathJoin path name) >>= fun _ => listEntries descend path false names) r s).2
      have hfirst := writeInfo_entries (pathJoin path name) r s
      refine bind_post (hfirst.mono (List.singleton_sublist.mpr List.mem_cons_self)) fun _ t hdone => ?_
      rw [hdone] at hfirst
      exact hfirst.append (ih t)

/-- The paths whose entries a listing may have: the path itself, or the members of the directory. -/
def ListedPaths (host : Host) (path : Str) (asSingleFile : Bool) (paths : List Str) : Prop :=
  paths = [path] ∨ asSingleFile = false ∧ ∃ t names, host.listdir t path = .ok names ∧ paths = names.map (pathJoin path)

theorem listing_entries (path : Str) (asSingleFile : Bool) (r : HandlerCtx) (s : HandlerState) :
    ∃ paths, ListedPaths r.host path asSingleFile paths ∧
      WritesEntries r.host paths s (listing path asSingleFile false r s).2 := by
  rw [listing, bind_run_done ask_run, bind_run_done (consult_run _ _ _)]
  split
  · rename_i hdir
    have hsingle : asSingleFile = false := by
      cases asSingleFile with
      | false => rfl
      | true => simp at hdir
    cases hlimit : r.host.recursionLimit with
    | zero => exact ⟨[path], Or.inl rfl, writesEntries_none _ rfl⟩
    | succ depth =>
        cases hlist : r.host.listdir (s.tick + 1) path with
        | error e =>
            refine ⟨[path], Or.inl rfl, writesEntries_none _ ?_⟩
            have hraised : attempt (fun h t => h.listdir t path) r { s with tick := s.tick + 1 } =
                (.raised e, { s with tick := s.tick + 1 + 1 }) := by rw [attempt_run, hlist]
            rw [listDirectory, bind_run_raised hraised]
        | ok names =>
            refine ⟨names.map (pathJoin path), Or.inr ⟨hsingle, s.tick + 1, names, hlist, rfl⟩, ?_⟩
            have hdone : attempt (fun h t => h.listdir t path) r { s with tick := s.tick + 1 } =
                (.done names, { s with tick := s.tick + 1 + 1 }) := by rw [attempt_run, hlist]
            rw [listDirectory, bind_run_done hdone]
            exact listEntries_entries _ path names r { s with tick := s.tick + 1 + 1 }
  · refine ⟨[path], Or.inl rfl, ?_⟩
    exact getInfo_message path r { s with tick := s.tick + 1 }

theorem listIfExists_entries (path : Str) (asSingleFile : Bool) (r : HandlerCtx) (s : HandlerState) :
    ∃ paths, ListedPaths r.host path asSingleFile paths ∧
      WritesEntries r.host paths s (listIfExists path asSingleFile false r s).2 := by
  rw [listIfExists, bind_run_done (consult_run _ _ _)]
  split
  · obtain ⟨paths, hpaths, hwrites⟩ := listing_entries path asSingleFile r { s with tick := s.tick + 1 }
    refine ⟨paths, hpaths, ?_⟩
    refine handle_post hwrites fun e t hraised => ?_
    rw [hraised] at hwrites
    split
    · exact hwrites
    · exact hwrites
  · exact ⟨[path], Or.inl rfl, writesEntries_none _ rfl⟩

/-- The output of a listing that is not recursive. -/
theorem ls_entries {msg mode : Str} {config : Settings} (hmode : extractParameter msg "LS_MODE".toList = some mode)
    (hkind : mode = "A".toList ∨ mode = "N".toList) (h : ls msg config r s = (.done (), s')) :
    ∃ path paths, expandVariablesOpt r.environ (extractParameter msg "FILE".toList) = .ok path ∧
      ListedPaths r.host path (decide (mode = "A".toList)) paths ∧
      ∃ entries : List Entry, s'.calls = s.calls ++ .ok (some "START_LISTING".toList) ::
          entries.map (fun e => .message e.text) ++ [.message "END_LISTING".toList] ∧
        (∀ e ∈ entries, Observed r.host e) ∧ (entries.map Entry.path).Sublist paths := by
  rw [ls, bind_run_done ask_run] at h
  obtain ⟨path, s₁, hasked, hrest⟩ := bind_eq_done.mp h
  obtain ⟨hpath, hsame⟩ := ofExcept_eq_done.mp hasked
  rw [hsame] at hrest
  have hallowed : some mode ∈ [some "R".toList, some "A".toList, some "N".toList] := by
    rcases hkind with rfl | rfl <;> simp
  have hrecurse : decide (some mode = some "R".toList) = false := by
    rcases hkind with rfl | rfl <;> decide
  have hsingle : decide (some mode = some "A".toList) = decide (mode = "A".toList) :=
    decide_eq_decide.mpr (Option.some_inj)
  rw [hmode, if_neg (not_not.mpr hallowed), hrecurse, hsingle] at hrest
  obtain ⟨⟨⟩, s₂, hstart, hlisted⟩ := bind_eq_done.mp hrest
  obtain ⟨⟨⟩, s₃, hlisting, hend⟩ := bind_eq_done.mp hlisted
  obtain ⟨paths, hpaths, entries, hcalls, hobserved, hsub⟩ :=
    listIfExists_entries path (decide (mode = "A".toList)) r s₂
  refine ⟨path, paths, hpath, hpaths, entries, ?_, hobserved, hsub⟩
  rw [hlisting] at hcalls
  have hfirst : s₂.calls = _ := (send_done hstart).2
  have hlast : s'.calls = _ := (send_done hend).2
  rw [hlast, hcalls, hfirst]
  simp

end Runs

/-- A file whose name is that of the end mark, on a line of its own. -/
def markEntry : Entry :=
  { euid := 0, path := "/w/a\nEND_LISTING\n<".toList, node := demoNode "a\nEND_LISTING\n<".toList 0o100644 }

def filesRequest : Str := "#TSI_FILE /w/d\n#TSI_LS_MODE N\n".toList

end UnicoreTsi.Io
