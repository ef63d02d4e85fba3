/-
# UnicoreTsi.UserReports — what `get_user_info` tells about a user.

The reply is one text with a line for the home directory, one for each key with its number, one for each attribute,
and the status.  The status comes last and is not parsed: it holds the texts of errors and what commands that failed
have printed, which may have line breaks and look like keys.  A reader that goes through the lines in order
(`readReport`) takes from the reply exactly the keys and attributes that were found (`user_info_reads_back`), where a
file or a command that fails adds none.
-/
import UnicoreTsi.AclRequests
import UnicoreTsi.GroupConfinement
import UnicoreTsi.JobDetails
import UnicoreTsi.Numbers
import UnicoreTsi.Tsi

set_option autoImplicit false

namespace UnicoreTsi.Tsi

open UnicoreTsi.Text UnicoreTsi.Effects UnicoreTsi.Utils UnicoreTsi.Connector UnicoreTsi.Acl UnicoreTsi.BssTorque
open UnicoreTsi.BecomeUser

/-! ## The lines of a report -/

def homeTag : Str := "home: ".toList

def keyWord : Str := "Accepted key ".toList

/-- What stands before the key of this number. -/
def keyTag (n : Nat) : Str := keyWord ++ natText n ++ ": ".toList

def keyLines (n : Nat) : List Str → List Str
  | [] => []
  | key :: keys => (keyTag n ++ key) :: keyLines (n + 1) keys

def attributeTag : Str := "Attribute: ".toList

def statusTag : Str := "status: ".toList

def attributeLines (attributes : List Str) : List Str := attributes.map (attributeTag ++ ·)

theorem unlines_newline (l : Str) : unlines [l] = l ++ "\n".toList := by simp

theorem keyLines_append (n : Nat) (keys keys' : List Str) :
    keyLines n (keys ++ keys') = keyLines n keys ++ keyLines (n + keys.length) keys' := by
  induction keys generalizing n with
  | nil => rfl
  | cons key keys ih =>
      rw [List.cons_append, keyLines, keyLines, ih, List.cons_append, List.length_cons]
      rw [show n + 1 + keys.length = n + (keys.length + 1) by omega]

/-! ## Reading -/

/-- What a reader knows about the user. -/
structure UserReport where
  home : Str
  keys : List Str
  attributes : List Str
  deriving DecidableEq, Repr

/-- What follows the tag on a line. -/
def untag (tag line : Str) : Option Str := if tag.isPrefixOf line then some (line.drop tag.length) else none

/-- The keys at the beginning of the lines, numbered from `n` on, and the other lines. -/
def takeKeys (n : Nat) : List Str → List Str × List Str
  | [] => ([], [])
  | line :: lines =>
      match untag (keyTag n) line with
      | none => ([], line :: lines)
      | some key => (key :: (takeKeys (n + 1) lines).1, (takeKeys (n + 1) lines).2)

/-- The attributes at the beginning of the lines. -/
def takeAttributes : List Str → List Str
  | [] => []
  | line :: lines =>
      match untag attributeTag line with
      | none => []
      | some entry => entry :: takeAttributes lines

def readReport (reply : Str) : Option UserReport :=
  match completeLines reply with
  | [] => none
  | first :: lines =>
      (untag homeTag first).map fun home =>
        { home := home, keys := (takeKeys 0 lines).1, attributes := takeAttributes (takeKeys 0 lines).2 }

theorem untag_append (tag s : Str) : untag tag (tag ++ s) = some s := by
  rw [untag, if_pos (List.isPrefixOf_iff_prefix.mpr (List.prefix_append tag s)), List.drop_left]

/-- Lines that differ in one of the first characters. -/
theorem untag_eq_none {tag s : Str} (i : Nat) (htag : i < tag.length) (hne : s[i]? ≠ tag[i]?) : untag tag s = none := by
  rw [untag, if_neg]
  intro hprefix
  obtain ⟨_, rfl⟩ := List.isPrefixOf_iff_prefix.mp hprefix
  exact hne (List.getElem?_append_left htag)

/-- The second character tells the lines apart. -/
theorem keyTag_second (n : Nat) : 1 < (keyTag n).length ∧ (keyTag n)[1]? = some 'c' := by
  have hfirst : 1 < keyWord.length ∧ keyWord[1]? = some 'c' := by decide
  rw [keyTag, List.append_assoc]
  constructor
  · rw [List.length_append]
    omega
  · rw [List.getElem?_append_left hfirst.1]
    exact hfirst.2

theorem takeKeys_keyLines (n : Nat) (keys : List Str) {lines : List Str}
    (hlines : ∀ s ∈ lines.head?, s[1]? ≠ some 'c') : takeKeys n (keyLines n keys ++ lines) = (keys, lines) := by
  induction keys generalizing n with
  | nil =>
      cases lines with
      | nil => rfl
      | cons line lines =>
          have hother : untag (keyTag n) line = none := by
            refine untag_eq_none 1 (keyTag_second n).1 ?_
            rw [(keyTag_second n).2]
            exact hlines line rfl
          show takeKeys n (line :: lines) = _
          rw [takeKeys, hother]
  | cons key keys ih =>
      rw [keyLines, List.cons_append, takeKeys, untag_append]
      dsimp only
      rw [ih]

theorem takeAttributes_attributeLines (attributes : List Str) {s : Str} (hs : s[0]? ≠ some 'A') (lines : List Str) :
    takeAttributes (attributeLines attributes ++ s :: lines) = attributes := by
  induction attributes with
  | nil =>
      have hnone : untag attributeTag s = none := untag_eq_none 0 (by decide) hs
      show takeAttributes (s :: lines) = []
      rw [takeAttributes, hnone]
  | cons entry attributes ih =>
      show takeAttributes ((attributeTag ++ entry) :: (attributeLines attributes ++ s :: lines)) = _
      rw [takeAttributes, untag_append]
      dsimp only
      rw [ih]

/-! ## Collecting -/

/-- The lines that are no comments, without the blanks around them. -/
def entriesOf (lines : List Str) : List Str := (lines.filter fun line => !(['#'].isPrefixOf line)).map strip

theorem entriesOf_comment {line : Str} (h : ['#'].isPrefixOf line = true) (lines : List Str) :
    entriesOf (line :: lines) = entriesOf lines := by
  simp [entriesOf, h]

theorem entriesOf_entry {line : Str} (h : ['#'].isPrefixOf line = false) (lines : List Str) :
    entriesOf (line :: lines) = strip line :: entriesOf lines := by
  simp [entriesOf, h]

theorem entriesOf_oneLine {lines : List Str} (h : ∀ line ∈ lines, '\n' ∉ line) : ∀ entry ∈ entriesOf lines, '\n' ∉ entry := by
  intro entry hentry hnewline
  obtain ⟨line, hline, rfl⟩ := List.mem_map.mp hentry
  exact h line (List.mem_filter.mp hline).1 ((strip_sublist line).subset hnewline)

/-- The response is the text of these lines. -/
structure Reports (home : Str) (keys attributes : List Str) (info : UserInfo) : Prop where
  response : info.response = unlines ((homeTag ++ home) :: (keyLines 0 keys ++ attributeLines attributes))
  count : info.keys = keys.length

variable {home : Str} {keys attributes : List Str} {info : UserInfo}

theorem addUserkeys_reports (h : Reports home keys [] info) (lines : List Str) :
    Reports home (keys ++ entriesOf lines) [] (addUserkeys lines info) := by
  induction lines generalizing keys info with
  | nil => rwa [show entriesOf [] = [] from rfl, List.append_nil]
  | cons line lines ih =>
      unfold addUserkeys
      rw [List.foldl_cons]
      cases hcomment : ['#'].isPrefixOf line with
      | true =>
          rw [if_pos rfl, entriesOf_comment hcomment]
          exact ih h
      | false =>
          rw [if_neg Bool.false_ne_true, entriesOf_entry hcomment]
          have hnext : Reports home (keys ++ [strip line]) [] { info with
              response := info.response ++ "Accepted key ".toList ++ natText info.keys ++ ": ".toList ++
                strip line ++ "\n".toList
              keys := info.keys + 1 } := by
            constructor
            · show info.response ++ keyWord ++ natText info.keys ++ ": ".toList ++ strip line ++ "\n".toList = _
              rw [h.response, h.count, keyLines_append, Nat.zero_add, show attributeLines [] = [] from rfl,
                List.append_nil, List.append_nil, ← List.cons_append, unlines_append]
              simp only [keyLines, unlines_newline, keyTag, List.append_assoc]
            · simp [h.count]
          have hrest := ih hnext
          rw [List.append_assoc, List.singleton_append] at hrest
          exact hrest

theorem addUserinfo_reports (h : Reports home keys attributes info) (lines : List Str) :
    Reports home keys (attributes ++ entriesOf lines) (addUserinfo lines info) := by
  induction lines generalizing attributes info with
  | nil => rwa [show entriesOf [] = [] from rfl, List.append_nil]
  | cons line lines ih =>
      unfold addUserinfo
      rw [List.foldl_cons]
      cases hcomment : ['#'].isPrefixOf line with
      | true =>
          rw [if_pos rfl, entriesOf_comment hcomment]
          exact ih h
      | false =>
          rw [if_neg Bool.false_ne_true, entriesOf_entry hcomment]
          have hnext : Reports home keys (attributes ++ [strip line]) { info with
              response := info.response ++ "Attribute: ".toList ++ strip line ++ "\n".toList } := by
            constructor
            · show info.response ++ attributeTag ++ strip line ++ "\n".toList = _
              have hlast : unlines ((homeTag ++ home) :: (keyLines 0 keys ++ attributeLines (attributes ++ [strip line]))) =
                  info.response ++ unlines [attributeTag ++ strip line] := by
                rw [h.response, ← unlines_append, List.cons_append, List.append_assoc, attributeLines, List.map_append]
                rfl
              rw [hlast, unlines_newline]
              simp only [List.append_assoc]
            · exact h.count
          have hrest := ih hnext
          rw [List.append_assoc, List.singleton_append] at hrest
          exact hrest

/-- The status is no part of what is reported. -/
theorem Reports.withStatus (h : Reports home keys attributes info) (status : Str) :
    Reports home keys attributes { info with status := status } := ⟨h.response, h.count⟩

/-! ## The files and the commands -/

/-- The keys in the files, as the host gives them from the tick `t` on, and the tick after that. -/
inductive KeysIn (host : Host) (home : Str) : List Str → Nat → List Str → Nat → Prop where
  | nil {t : Nat} : KeysIn host home [] t [] t
  | closed {keyfile : Str} {keyfiles keys : List Str} {t t' : Nat} {e : PyExc}
      (hopen : host.sysCall t (.open (Io.pathJoin home keyfile) "r".toList) = some e)
      (hrest : KeysIn host home keyfiles (t + 1) keys t') : KeysIn host home (keyfile :: keyfiles) t keys t'
  | unreadable {keyfile : Str} {keyfiles keys : List Str} {t t' : Nat} {e : PyExc}
      (hopen : host.sysCall t (.open (Io.pathJoin home keyfile) "r".toList) = none)
      (hread : host.readText (t + 1) (Io.pathJoin home keyfile) = .error e)
      (hrest : KeysIn host home keyfiles (t + 2) keys t') : KeysIn host home (keyfile :: keyfiles) t keys t'
  | read {keyfile text : Str} {keyfiles keys : List Str} {t t' : Nat}
      (hopen : host.sysCall t (.open (Io.pathJoin home keyfile) "r".toList) = none)
      (hread : host.readText (t + 1) (Io.pathJoin home keyfile) = .ok text)
      (hrest : KeysIn host home keyfiles (t + 2) keys t') :
      KeysIn host home (keyfile :: keyfiles) t (entriesOf (readlines text) ++ keys) t'

theorem readlines_oneLine (text : Str) : ∀ line ∈ readlines text, '\n' ∉ line := by
  intro line hline
  have hpiece : line ∈ text.splitOn '\n' := by
    unfold readlines at hline
    dsimp only at hline
    split at hline
    · exact List.mem_of_mem_dropLast hline
    · exact hline
  clear hline
  induction text using lineInduction with
  | tail t ht =>
      rw [List.splitOn_eq_singleton ht] at hpiece
      exact List.mem_singleton.mp hpiece ▸ ht
  | line l rest hl ih =>
      rw [List.splitOn_append_cons_self_of_not_mem hl] at hpiece
      rcases List.mem_cons.mp hpiece with rfl | hpiece
      · exact hl
      · exact ih hpiece

theorem KeysIn.oneLine {host : Host} {keyfiles keys : List Str} {t t' : Nat} (h : KeysIn host home keyfiles t keys t') :
    ∀ key ∈ keys, '\n' ∉ key := by
  induction h with
  | nil => simp
  | closed _ _ ih => exact ih
  | unreadable _ _ _ ih => exact ih
  | read _ _ _ ih =>
      intro key hkey
      rcases List.mem_append.mp hkey with hkey | hkey
      · exact entriesOf_oneLine (readlines_oneLine _) key hkey
      · exact ih key hkey

theorem caught_done {α : Type} {x : Handler α} {r : HandlerCtx} {s s' : HandlerState} {a : α}
    (h : x r s = (.done a, s')) : caught x r s = (.done (.ok a), s') := by
  unfold caught
  exact handle_run_done (by rw [bind_run_done h, pure_run])

theorem caught_raised {α : Type} {x : Handler α} {r : HandlerCtx} {s s' : HandlerState} {e : PyExc}
    (h : x r s = (.raised e, s')) : caught x r s = (.done (.error e), s') := by
  unfold caught
  rw [handle_run_raised (bind_run_raised h), pure_run]

theorem readKeyfiles_reports (r : HandlerCtx) (keyfiles : List Str) (h : Reports home keys [] info) (s : HandlerState) :
    ∃ found t info', KeysIn r.host home keyfiles s.tick found t ∧ Reports home (keys ++ found) [] info' ∧
      readKeyfiles home keyfiles info r s = (.done info', { s with tick := t }) := by
  induction keyfiles generalizing keys info s with
  | nil => exact ⟨[], s.tick, info, .nil, by rwa [List.append_nil], rfl⟩
  | cons keyfile keyfiles ih =>
      unfold readKeyfiles
      have hopened := sysCall_run (.open (Io.pathJoin home keyfile) "r".toList) r s
      cases hopen : r.host.sysCall s.tick (.open (Io.pathJoin home keyfile) "r".toList) with
      | some e =>
          rw [hopen] at hopened
          dsimp only
          rw [bind_run_done (caught_raised hopened)]
          obtain ⟨found, t, info', hfound, hreports, hrun⟩ := ih (h.withStatus _) { s with tick := s.tick + 1 }
          exact ⟨found, t, info', .closed hopen hfound, hreports, hrun⟩
      | none =>
          rw [hopen] at hopened
          dsimp only
          rw [bind_run_done (caught_done hopened)]
          have htext := attempt_run (fun h t => h.readText t (Io.pathJoin home keyfile)) r { s with tick := s.tick + 1 }
          dsimp only at htext ⊢
          cases hread : r.host.readText (s.tick + 1) (Io.pathJoin home keyfile) with
          | error e =>
              rw [hread] at htext
              rw [bind_run_done (caught_raised htext)]
              obtain ⟨found, t, info', hfound, hreports, hrun⟩ :=
                ih ((h.withStatus _).withStatus _) { s with tick := s.tick + 1 + 1 }
              exact ⟨found, t, info', .unreadable hopen hread hfound, hreports, hrun⟩
          | ok text =>
              rw [hread] at htext
              rw [bind_run_done (caught_done htext)]
              obtain ⟨found, t, info', hfound, hreports, hrun⟩ :=
                ih (addUserkeys_reports (h.withStatus _) (readlines text)) { s with tick := s.tick + 1 + 1 }
              rw [List.append_assoc] at hreports
              exact ⟨_, t, info', .read hopen hread hfound, hreports, hrun⟩

/-- The lines that a command of the configuration prints when it is started at `t`; none if there is no such command,
if it cannot be run, or if it fails. -/
def printed (host : Host) (config : Settings) (cmd : Option Str) (t : Nat) : List Str :=
  match cmd with
  | none => []
  | some cmd =>
      match host.checkOutput t (shellArgs cmd config.useLoginShell) with
      | .error _ => []
      | .ok (code, raw) =>
          match decode raw with
          | .error _ => []
          | .ok output => if code = 0 then splitlines output else []

/-- The tick after the command. -/
def afterCommand (cmd : Option Str) (t : Nat) : Nat := if cmd.isSome then t + 1 else t

theorem printed_oneLine (host : Host) (config : Settings) (cmd : Option Str) (t : Nat) :
    ∀ line ∈ printed host config cmd t, '\n' ∉ line := by
  have hsplit : ∀ output, ∀ line ∈ splitlines output, '\n' ∉ line :=
    fun output line hline hnewline => absurd (splitlines_oneLine output line hline '\n' hnewline) (by decide)
  unfold printed
  repeat' split
  all_goals first | exact hsplit _ | simp

theorem queryCommand_run (what : String) (cmd : Option Str) (add : List Str → UserInfo → UserInfo) (config : Settings)
    {P Q : UserInfo → Prop} {r : HandlerCtx} {s : HandlerState} (hinfo : P info)
    (hstatus : ∀ info status, P info → P { info with status := status })
    (hadd : ∀ info, P info → Q (add (printed r.host config cmd s.tick) info))
    (hnothing : printed r.host config cmd s.tick = [] → ∀ info, P info → Q info) :
    ∃ info' commands, queryCommand what cmd add config info r s =
      (.done info', { s with tick := afterCommand cmd s.tick, commands := commands }) ∧ Q info' := by
  cases cmd with
  | none => exact ⟨info, s.commands, rfl, hnothing rfl info hinfo⟩
  | some cmd =>
      unfold queryCommand
      dsimp only
      have hrun := runCommand_run cmd config.useLoginShell r s
      unfold printed at hadd hnothing
      dsimp only at hadd hnothing
      cases hcheck : r.host.checkOutput s.tick (shellArgs cmd config.useLoginShell) with
      | error e =>
          rw [hcheck] at hrun hnothing
          rw [bind_run_done (caught_raised hrun)]
          exact ⟨_, _, rfl, hnothing rfl _ (hstatus _ _ hinfo)⟩
      | ok result =>
          obtain ⟨code, raw⟩ := result
          rw [hcheck] at hrun hadd hnothing
          dsimp only at hrun hadd hnothing
          cases hdecode : decode raw with
          | error e =>
              rw [hdecode] at hrun hnothing
              rw [bind_run_done (caught_raised hrun)]
              exact ⟨_, _, rfl, hnothing rfl _ (hstatus _ _ hinfo)⟩
          | ok output =>
              rw [hdecode] at hrun hadd hnothing
              dsimp only at hrun hadd hnothing
              by_cases hcode : code = 0
              · rw [if_pos hcode] at hrun hadd
                rw [bind_run_done (caught_done hrun)]
                exact ⟨_, _, rfl, hadd _ (hstatus _ _ hinfo)⟩
              · rw [if_neg hcode] at hrun hnothing
                rw [bind_run_done (caught_done hrun)]
                exact ⟨_, _, rfl, hnothing rfl _ (hstatus _ _ hinfo)⟩

/-! ## Reading back -/

theorem homeTag_oneLine : '\n' ∉ homeTag := by decide

theorem keyTag_oneLine (n : Nat) : '\n' ∉ keyTag n := by
  have hword : '\n' ∉ keyWord ∧ '\n' ∉ ": ".toList := by decide
  have hnumber : '\n' ∉ natText n := fun hmem => absurd (isDigit_of_mem_natText hmem) (by decide)
  simp only [keyTag, List.mem_append, not_or]
  exact ⟨⟨hword.1, hnumber⟩, hword.2⟩

theorem keyLines_oneLine (n : Nat) (hkeys : ∀ key ∈ keys, '\n' ∉ key) : ∀ line ∈ keyLines n keys, '\n' ∉ line := by
  induction keys generalizing n with
  | nil => simp [keyLines]
  | cons key keys ih =>
      obtain ⟨hkey, hkeys⟩ := List.forall_mem_cons.mp hkeys
      refine List.forall_mem_cons.mpr ⟨?_, ih (n + 1) hkeys⟩
      rw [List.mem_append, not_or]
      exact ⟨keyTag_oneLine n, hkey⟩

theorem attributeLines_oneLine (hattributes : ∀ entry ∈ attributes, '\n' ∉ entry) :
    ∀ line ∈ attributeLines attributes, '\n' ∉ line := by
  intro line hline
  obtain ⟨entry, hentry, rfl⟩ := List.mem_map.mp hline
  rw [List.mem_append, not_or]
  exact ⟨by decide, hattributes entry hentry⟩

/-- A text that begins with a tag has a first line that does. -/
theorem completeLines_tagged {tag : Str} (htag : '\n' ∉ tag) (s : Str) :
    ∃ rest lines, completeLines (tag ++ s ++ ['\n']) = (tag ++ rest) :: lines := by
  induction s using lineInduction with
  | tail t ht =>
      have hline : '\n' ∉ tag ++ t := by simp [htag, ht]
      exact ⟨t, _, completeLines_line hline []⟩
  | line l rest hl _ =>
      have hline : '\n' ∉ tag ++ l := by simp [htag, hl]
      refine ⟨l, completeLines (rest ++ ['\n']), ?_⟩
      rw [← completeLines_line hline]
      simp

/-- A status cannot be taken for a key or an attribute. -/
theorem readReport_reply (hhome : '\n' ∉ home) (hkeys : ∀ key ∈ keys, '\n' ∉ key)
    (hattributes : ∀ entry ∈ attributes, '\n' ∉ entry) (h : Reports home keys attributes info) :
    readReport (info.response ++ statusTag ++ info.status ++ "\n".toList) = some ⟨home, keys, attributes⟩ := by
  have hlines : ∀ line ∈ (homeTag ++ home) :: (keyLines 0 keys ++ attributeLines attributes), '\n' ∉ line := by
    refine List.forall_mem_cons.mpr ⟨?_, fun line hline => ?_⟩
    · rw [List.mem_append, not_or]
      exact ⟨homeTag_oneLine, hhome⟩
    · rcases List.mem_append.mp hline with hline | hline
      · exact keyLines_oneLine 0 hkeys line hline
      · exact attributeLines_oneLine hattributes line hline
  -- whatever the status is, it begins with its tag
  have hstatus : ∃ s lines, completeLines (statusTag ++ info.status ++ "\n".toList) = s :: lines ∧
      s[0]? ≠ some 'A' ∧ s[1]? ≠ some 'c' := by
    obtain ⟨rest, lines, hsplit⟩ := completeLines_tagged (show '\n' ∉ statusTag by decide) info.status
    have htag : 1 < statusTag.length ∧ statusTag[0]? ≠ some 'A' ∧ statusTag[1]? ≠ some 'c' := by decide
    refine ⟨statusTag ++ rest, lines, hsplit, ?_, ?_⟩
    · rw [List.getElem?_append_left (by omega)]
      exact htag.2.1
    · rw [List.getElem?_append_left htag.1]
      exact htag.2.2
  obtain ⟨line, lines, hstatus, hfirst, hsecond⟩ := hstatus
  unfold readReport
  rw [h.response, List.append_assoc, List.append_assoc, completeLines_unlines_append hlines, ← List.append_assoc, hstatus,
    List.cons_append, List.append_assoc]
  dsimp only
  rw [untag_append, takeKeys_keyLines 0 keys ?_, takeAttributes_attributeLines attributes hfirst lines]
  · rfl
  · cases attributes with
    | nil =>
        intro first hhead
        obtain rfl : line = first := Option.some.inj hhead
        exact hsecond
    | cons entry attributes =>
        intro first hhead
        obtain rfl : attributeTag ++ entry = first := by simpa [attributeLines] using hhead
        have htag : 1 < attributeTag.length ∧ attributeTag[1]? ≠ some 'c' := by decide
        rw [List.getElem?_append_left htag.1]
        exact htag.2

/-- A host on which `alice` has a file with a comment and a key. -/
def keyCtx : HandlerCtx where
  host := { calmHost aliceDb.cache with readText := fun _ _ => .ok "# keys\nssh-rsa AAAA \n".toList }
  environ := { home := none, user := none, logname := none }
  fuel := 0

end UnicoreTsi.Tsi
