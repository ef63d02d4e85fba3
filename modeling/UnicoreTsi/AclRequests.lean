/-
# UnicoreTsi.AclRequests — requests to change an ACL.

`setfacl_posix` decides what to do by what the command and the specification contain.  `setfaclPlan` is that
decision without its effects: an exception, a refusal, or the text of a command.  The documented requests are a
grammar (`Documented`), and `setfacl_all_or_nothing_iff` says for which requests the code does what the grammar asks
for: it must not go on after it has reported a missing specification, nor run a command for a request that the
grammar does not have.
-/
import UnicoreTsi.AclSupport
import UnicoreTsi.Parameters
import UnicoreTsi.Submission

set_option autoImplicit false

namespace UnicoreTsi.Acl

open UnicoreTsi.Text UnicoreTsi.Effects UnicoreTsi.Utils UnicoreTsi.Connector
open UnicoreTsi.BssCommon (answered)

/-! ## The decision -/

/-- The command line of a change. -/
def changeText (config : Settings) (path recursive baseArg action arg : Str) : Str :=
  config.setfacl ++ " ".toList ++ recursive ++ " ".toList ++ baseArg ++ action ++ " ".toList ++ arg ++ " '".toList ++
    path ++ "'".toList

/-- The command line that removes an ACL. -/
def removeAllText (config : Settings) (path recursive : Str) : Str :=
  config.setfacl ++ " -b ".toList ++ recursive ++ "'".toList ++ path ++ "'".toList

/-- What `setfacl_posix` does: raise an exception, refuse (`none`) or run a command. -/
def setfaclPlan (path : Str) (op val : Option Str) (config : Settings) : Except PyExc (Option Str) := do
  let isRecursive ← mentions "RECURSIVE" op
  let recursive := if isRecursive then "-R ".toList else []
  let rmAll ← mentions "RM_ALL" op
  if rmAll then
    -- the specification is not looked at here, so that it may be missing
    return some (removeAllText config path recursive)
  else
    let val ← match val with
      | some v => .ok v
      | none => .error (attributeError "'NoneType' object has no attribute 'startswith'")
    let baseArg := if ['D'].isPrefixOf val then "-d ".toList else []
    let modify ← mentions "MODIFY" op
    let rm ← mentions "RM" op
    if !modify && !rm then
      return none
    else
      let arg ← preparePosixArg val (!modify)
      return some (changeText config path recursive baseArg (if modify then "-m".toList else "-x".toList) arg)

/-- What comes of the decision. -/
def carryOut (config : Settings) : Except PyExc (Option Str) → Handler Unit
  | .error e => raise e
  | .ok none => failed (some "WRONG SETFACL SYNTAX".toList)
  | .ok (some text) => runSetfacl text config

theorem setfaclPosix_eq (path : Str) (op val : Option Str) (config : Settings) :
    setfaclPosix path op val config = carryOut config (setfaclPlan path op val config) := by
  cases op with
  | none => rfl
  | some op =>
      unfold setfaclPosix setfaclPlan
      simp only [mentions, ofExcept_ok, pure_bind]
      show _ = carryOut config (if contains "RM_ALL".toList op then _ else _)
      cases contains "RM_ALL".toList op with
      | true => rfl
      | false =>
          cases val with
          | none => rfl
          | some val =>
              simp only [Bool.false_eq_true, if_false, ofExcept_ok, pure_bind]
              show _ = carryOut config (if !contains "MODIFY".toList op && !contains "RM".toList op then _ else _)
              cases hrefuse : (!contains "MODIFY".toList op && !contains "RM".toList op) with
              | true => rfl
              | false =>
                  cases harg : preparePosixArg val (!contains "MODIFY".toList op) with
                  | error e => simp only [Bool.false_eq_true, if_false]; rfl
                  | ok arg => simp only [Bool.false_eq_true, if_false]; rfl

/-! ## Requests as they are documented -/

/-- A request to change the ACL of a path. -/
inductive SetRequest where
  | removeAll (recursive : Bool)
  | modify (recursive onDefault isGroup : Bool) (subject permissions : Str)
  | remove (recursive onDefault isGroup : Bool) (subject : Str)

def recursiveOption (recursive : Bool) : Str := if recursive then "-R ".toList else []

def defaultOption (onDefault : Bool) : Str := if onDefault then "-d ".toList else []

def subjectText (isGroup : Bool) (subject : Str) : Str := (if isGroup then "group:".toList else "user:".toList) ++ subject

/-- The command line of a request. -/
def SetRequest.text (config : Settings) (path : Str) : SetRequest → Str
  | .removeAll recursive => removeAllText config path (recursiveOption recursive)
  | .modify recursive onDefault isGroup subject permissions =>
      changeText config path (recursiveOption recursive) (defaultOption onDefault) "-m".toList
        (subjectText isGroup subject ++ ":".toList ++ permissions)
  | .remove recursive onDefault isGroup subject =>
      changeText config path (recursiveOption recursive) (defaultOption onDefault) "-x".toList (subjectText isGroup subject)

/-- A command word, optionally with `RECURSIVE`. -/
def commandText (word : String) (recursive : Bool) : Str :=
  word.toList ++ if recursive then " RECURSIVE".toList else []

/-- `[D]U` or `[D]G` -/
def kindText (onDefault isGroup : Bool) : Str :=
  (if onDefault then ['D'] else []) ++ [if isGroup then 'G' else 'U']

/-- A word that stands for a subject or for permissions, whichever texts do. -/
def Word (Is : Str → Prop) (text : Str) : Prop := Is text ∧ ' ' ∉ text

/-- The command and the specification are those of the request. -/
inductive Documented (IsSubject IsPermissions : Str → Prop) : Option Str → Option Str → SetRequest → Prop where
  | removeAll (recursive : Bool) (spec : Option Str) :
      Documented IsSubject IsPermissions (some (commandText "RM_ALL" recursive)) spec (.removeAll recursive)
  | modify (recursive onDefault isGroup : Bool) {subject permissions : Str} (hsubject : Word IsSubject subject)
      (hpermissions : Word IsPermissions permissions) :
      Documented IsSubject IsPermissions (some (commandText "MODIFY" recursive))
        (some (kindText onDefault isGroup ++ ' ' :: (subject ++ ' ' :: permissions)))
        (.modify recursive onDefault isGroup subject permissions)
  | remove (recursive onDefault isGroup : Bool) {subject : Str} (hsubject : Word IsSubject subject) :
      Documented IsSubject IsPermissions (some (commandText "RM" recursive))
        (some (kindText onDefault isGroup ++ ' ' :: subject)) (.remove recursive onDefault isGroup subject)
  | removePermissions (recursive onDefault isGroup : Bool) {subject permissions : Str}
      (hsubject : Word IsSubject subject) (hpermissions : Word IsPermissions permissions) :
      Documented IsSubject IsPermissions (some (commandText "RM" recursive))
        (some (kindText onDefault isGroup ++ ' ' :: (subject ++ ' ' :: permissions)))
        (.remove recursive onDefault isGroup subject)

section Plan

variable {IsSubject IsPermissions : Str → Prop} {command spec : Option Str} {req : SetRequest}

theorem splitBlanks_kind (onDefault isGroup : Bool) (rest : Str) :
    splitBlanks (kindText onDefault isGroup ++ ' ' :: rest) = kindText onDefault isGroup :: splitBlanks rest := by
  refine List.splitOn_append_cons_self_of_not_mem ?_ rest
  cases onDefault <;> cases isGroup <;> decide

theorem splitBlanks_word {word : Str} (h : ' ' ∉ word) : splitBlanks word = [word] := List.splitOn_eq_singleton h

theorem splitBlanks_words {word : Str} (h : ' ' ∉ word) (rest : Str) :
    splitBlanks (word ++ ' ' :: rest) = word :: splitBlanks rest := List.splitOn_append_cons_self_of_not_mem h rest

/-- What the specification is turned into. -/
theorem preparePosixArg_kind {val subject : Str} {rest : List Str} {onDefault isGroup : Bool} (remove : Bool)
    (hval : splitBlanks val = kindText onDefault isGroup :: subject :: rest) :
    preparePosixArg val remove =
      if remove then .ok (subjectText isGroup subject)
      else (item (kindText onDefault isGroup :: subject :: rest) 2).map
        fun permissions => subjectText isGroup subject ++ ":".toList ++ permissions := by
  unfold preparePosixArg
  rw [hval]
  have hkind : item (kindText onDefault isGroup :: subject :: rest) 0 = .ok (kindText onDefault isGroup) := rfl
  have hsubject : item (kindText onDefault isGroup :: subject :: rest) 1 = .ok subject := rfl
  have huser : isClass 'U' (kindText onDefault isGroup) = !isGroup := by cases onDefault <;> cases isGroup <;> decide
  have hgroup : isClass 'G' (kindText onDefault isGroup) = isGroup := by cases onDefault <;> cases isGroup <;> decide
  dsimp only
  rw [hkind, hsubject, ok_bind, huser, hgroup]
  cases isGroup <;> cases remove <;> cases item (kindText onDefault _ :: subject :: rest) 2 <;> rfl

/-- What the words of a command tell. -/
theorem contains_commandText (recursive : Bool) :
    contains "RECURSIVE".toList (commandText "RM_ALL" recursive) = recursive ∧
    contains "RECURSIVE".toList (commandText "MODIFY" recursive) = recursive ∧
    contains "RECURSIVE".toList (commandText "RM" recursive) = recursive ∧
    contains "RM_ALL".toList (commandText "RM_ALL" recursive) = true ∧
    contains "RM_ALL".toList (commandText "MODIFY" recursive) = false ∧
    contains "RM_ALL".toList (commandText "RM" recursive) = false ∧
    contains "MODIFY".toList (commandText "MODIFY" recursive) = true ∧
    contains "MODIFY".toList (commandText "RM" recursive) = false ∧
    contains "RM".toList (commandText "RM" recursive) = true := by
  cases recursive <;> decide

theorem startsWith_kindText (onDefault isGroup : Bool) (rest : Str) :
    ['D'].isPrefixOf (kindText onDefault isGroup ++ rest) = onDefault := by
  cases onDefault <;> cases isGroup <;> rfl

/-- The plan for a specification, unless the command removes the ACL. -/
theorem setfaclPlan_spec {op : Str} (hall : contains "RM_ALL".toList op = false) (path val : Str) (config : Settings) :
    setfaclPlan path (some op) (some val) config =
      if !contains "MODIFY".toList op && !contains "RM".toList op then .ok none
      else (preparePosixArg val (!contains "MODIFY".toList op)).map fun arg => some (changeText config path
        (recursiveOption (contains "RECURSIVE".toList op)) (defaultOption (['D'].isPrefixOf val))
        (if contains "MODIFY".toList op then "-m".toList else "-x".toList) arg) := by
  unfold setfaclPlan
  simp only [mentions, ok_bind, hall, Bool.false_eq_true, if_false]
  cases hrefuse : (!contains "MODIFY".toList op && !contains "RM".toList op) with
  | true => rfl
  | false => cases preparePosixArg val (!contains "MODIFY".toList op) <;> rfl

/-- The plan of a change whose specification is turned into `arg`. -/
theorem setfaclPlan_change {path op val arg : Str} {config : Settings} (hall : contains "RM_ALL".toList op = false)
    (hrm : contains "MODIFY".toList op = true ∨ contains "RM".toList op = true)
    (harg : preparePosixArg val (!contains "MODIFY".toList op) = .ok arg) :
    setfaclPlan path (some op) (some val) config = .ok (some (changeText config path
      (recursiveOption (contains "RECURSIVE".toList op)) (defaultOption (['D'].isPrefixOf val))
      (if contains "MODIFY".toList op then "-m".toList else "-x".toList) arg)) := by
  have hgo : ¬(!contains "MODIFY".toList op && !contains "RM".toList op) = true := by
    rcases hrm with h | h
    · rw [h]
      exact Bool.false_ne_true
    · rw [h, Bool.not_true, Bool.and_false]
      exact Bool.false_ne_true
  rw [setfaclPlan_spec hall, if_neg hgo, harg]
  rfl

/-- A documented request is carried out as it is documented. -/
theorem setfaclPlan_documented (path : Str) (config : Settings) (h : Documented IsSubject IsPermissions command spec req) :
    setfaclPlan path command spec config = .ok (some (req.text config path)) := by
  cases h with
  | removeAll recursive spec =>
      obtain ⟨hrecursive, -, -, hall, -⟩ := contains_commandText recursive
      unfold setfaclPlan
      simp only [mentions, ok_bind, hall, hrecursive, if_true]
      rfl
  | modify recursive onDefault isGroup hsubject hpermissions =>
      rename_i subject permissions
      -- the words have no blanks of their own, so splitting gives exactly the three of them
      obtain ⟨-, hrecursive, -, -, hall, -, hmodify, -⟩ := contains_commandText recursive
      have hwords : splitBlanks (kindText onDefault isGroup ++ ' ' :: (subject ++ ' ' :: permissions)) =
          [kindText onDefault isGroup, subject, permissions] := by
        rw [splitBlanks_kind, splitBlanks_words hsubject.2, splitBlanks_word hpermissions.2]
      have harg := preparePosixArg_kind (!contains "MODIFY".toList (commandText "MODIFY" recursive)) hwords
      rw [setfaclPlan_change hall (Or.inl hmodify) (harg.trans (by rw [hmodify]; rfl)), hrecursive, hmodify,
        startsWith_kindText]
      rfl
  | remove recursive onDefault isGroup hsubject =>
      rename_i subject
      obtain ⟨-, -, hrecursive, -, -, hall, -, hmodify, hrm⟩ := contains_commandText recursive
      have hwords : splitBlanks (kindText onDefault isGroup ++ ' ' :: subject) = [kindText onDefault isGroup, subject] := by
        rw [splitBlanks_kind, splitBlanks_word hsubject.2]
      have harg := preparePosixArg_kind (!contains "MODIFY".toList (commandText "RM" recursive)) hwords
      rw [setfaclPlan_change hall (Or.inr hrm) (harg.trans (by rw [hmodify]; rfl)), hrecursive, hmodify,
        startsWith_kindText]
      rfl
  | removePermissions recursive onDefault isGroup hsubject hpermissions =>
      rename_i subject permissions
      -- the permissions are split off and then not used
      obtain ⟨-, -, hrecursive, -, -, hall, -, hmodify, hrm⟩ := contains_commandText recursive
      have hwords : splitBlanks (kindText onDefault isGroup ++ ' ' :: (subject ++ ' ' :: permissions)) =
          [kindText onDefault isGroup, subject, permissions] := by
        rw [splitBlanks_kind, splitBlanks_words hsubject.2, splitBlanks_word hpermissions.2]
      have harg := preparePosixArg_kind (!contains "MODIFY".toList (commandText "RM" recursive)) hwords
      rw [setfaclPlan_change hall (Or.inr hrm) (harg.trans (by rw [hmodify]; rfl)), hrecursive, hmodify,
        startsWith_kindText]
      rfl

/-- The specification starts with the letter of a user or of a group. -/
def HasKind (val : Str) : Prop := ∃ kind ∈ (splitBlanks val).head?, isClass 'U' kind = true ∨ isClass 'G' kind = true

/-- The text a subject is named with, if the words have one. -/
def namedSubject (words : List Str) : Except PyExc Str := do
  let kind ← item words 0
  if isClass 'U' kind then (item words 1).map ("user:".toList ++ ·)
  else if isClass 'G' kind then (item words 1).map ("group:".toList ++ ·)
  else .ok []

theorem preparePosixArg_eq (val : Str) (remove : Bool) :
    preparePosixArg val remove = (do
      let ret ← namedSubject (splitBlanks val)
      if remove then .ok ret
      else (item (splitBlanks val) 2).map fun permissions => ret ++ ":".toList ++ permissions) := by
  unfold preparePosixArg namedSubject
  dsimp only
  cases item (splitBlanks val) 0 with
  | error e => rfl
  | ok kind =>
      simp only [ok_bind]
      cases isClass 'U' kind <;> cases isClass 'G' kind <;> cases remove <;> cases item (splitBlanks val) 1 <;>
        cases item (splitBlanks val) 2 <;> rfl

theorem item_ok (words : List Str) (i : ℕ) : (∃ w, item words i = .ok w) ↔ i < words.length := by
  unfold item
  cases h : words[i]? with
  | none => exact iff_of_false nofun (Nat.not_lt.mpr (List.getElem?_eq_none_iff.mp h))
  | some w => exact iff_of_true ⟨w, rfl⟩ (List.getElem?_eq_some_iff.mp h).1

theorem map_ok {α β : Type} (f : α → β) (x : Except PyExc α) : (∃ b, x.map f = .ok b) ↔ ∃ a, x = .ok a := by
  cases x with
  | error e => exact iff_of_false nofun nofun
  | ok a => exact iff_of_true ⟨f a, rfl⟩ ⟨a, rfl⟩

theorem map_some_ok {α β : Type} (f : α → β) (x : Except PyExc α) :
    (∃ b, (x.map fun a => some (f a)) = .ok (some b)) ↔ ∃ a, x = .ok a := by
  cases x with
  | error e => exact iff_of_false nofun nofun
  | ok a => exact iff_of_true ⟨f a, rfl⟩ ⟨a, rfl⟩

theorem namedSubject_ok (val : Str) :
    (∃ ret, namedSubject (splitBlanks val) = .ok ret) ↔ (HasKind val → 2 ≤ (splitBlanks val).length) := by
  have hsubject := item_ok (splitBlanks val) 1
  unfold namedSubject HasKind
  cases hwords : splitBlanks val with
  | nil => exact absurd hwords (List.splitOn_ne_nil ' ' val)
  | cons kind rest =>
      rw [hwords] at hsubject
      have hkind : item (kind :: rest) 0 = .ok kind := rfl
      have hhead : (∃ k ∈ (kind :: rest).head?, isClass 'U' k = true ∨ isClass 'G' k = true) ↔
          isClass 'U' kind = true ∨ isClass 'G' kind = true := by simp
      rw [hkind, ok_bind, hhead]
      -- only a word for a user or a group makes the code look at the second word
      cases huser : isClass 'U' kind with
      | true =>
          rw [if_pos rfl, map_ok, hsubject]
          exact ⟨fun h _ => h, fun h => h (Or.inl rfl)⟩
      | false =>
          rw [if_neg (by simp)]
          cases hgroup : isClass 'G' kind with
          | true =>
              rw [if_pos rfl, map_ok, hsubject]
              exact ⟨fun h _ => h, fun h => h (Or.inr rfl)⟩
          | false =>
              rw [if_neg (by simp)]
              exact iff_of_true ⟨[], rfl⟩ (by simp)

/-- Which specifications can be turned into an argument. -/
theorem preparePosixArg_ok (val : Str) (remove : Bool) :
    (∃ arg, preparePosixArg val remove = .ok arg) ↔
      (HasKind val → 2 ≤ (splitBlanks val).length) ∧ (remove = false → 3 ≤ (splitBlanks val).length) := by
  rw [← namedSubject_ok, preparePosixArg_eq]
  cases namedSubject (splitBlanks val) with
  | error e =>
      rw [error_bind]
      exact iff_of_false nofun (by rintro ⟨⟨_, ⟨⟩⟩, -⟩)
  | ok ret =>
      rw [ok_bind]
      cases remove with
      | true => exact iff_of_true ⟨ret, rfl⟩ ⟨⟨ret, rfl⟩, nofun⟩
      | false =>
          rw [if_neg (by simp), map_ok, item_ok]
          exact ⟨fun h => ⟨⟨ret, rfl⟩, fun _ => h⟩, fun h => h.2 rfl⟩

/-- The request makes the code run a command, by what it contains and how many words the specification has. -/
def RunsCommand (command spec : Option Str) : Prop :=
  ∃ op, command = some op ∧ (contains "RM_ALL".toList op = true ∨ ∃ val, spec = some val ∧
    (contains "MODIFY".toList op = true ∨ contains "RM".toList op = true) ∧
    (HasKind val → 2 ≤ (splitBlanks val).length) ∧
    (contains "MODIFY".toList op = true → 3 ≤ (splitBlanks val).length))

theorem setfaclPlan_runs (path : Str) (command spec : Option Str) (config : Settings) :
    (∃ text, setfaclPlan path command spec config = .ok (some text)) ↔ RunsCommand command spec := by
  unfold RunsCommand
  cases command with
  | none => exact iff_of_false (by rintro ⟨text, ⟨⟩⟩) (by rintro ⟨op, ⟨⟩, -⟩)
  | some op =>
      have hop : ∀ P : Str → Prop, (∃ o, some op = some o ∧ P o) ↔ P op := by simp
      rw [hop]
      cases hall : contains "RM_ALL".toList op with
      | true =>
          refine iff_of_true ⟨removeAllText config path (recursiveOption (contains "RECURSIVE".toList op)), ?_⟩ (Or.inl rfl)
          unfold setfaclPlan
          simp only [mentions, ok_bind, hall, if_true]
          rfl
      | false =>
          cases spec with
          | none =>
              refine iff_of_false ?_ (by simp)
              unfold setfaclPlan
              simp only [mentions, ok_bind, hall, Bool.false_eq_true, if_false, error_bind]
              rintro ⟨text, ⟨⟩⟩
          | some val =>
              have hval : ∀ P : Str → Prop, (∃ v, some val = some v ∧ P v) ↔ P val := by simp
              rw [hval, setfaclPlan_spec hall]
              cases hmodify : contains "MODIFY".toList op with
              | true =>
                  rw [if_neg (by simp), map_some_ok, preparePosixArg_ok]
                  exact ⟨fun h => Or.inr ⟨Or.inl rfl, h.1, fun _ => h.2 rfl⟩,
                    fun h => (h.resolve_left (by simp)).2.imp_right fun h _ => h rfl⟩
              | false =>
                  cases hrm : contains "RM".toList op with
                  | true =>
                      rw [if_neg (by simp), map_some_ok, preparePosixArg_ok]
                      exact ⟨fun h => Or.inr ⟨Or.inr rfl, h.1, by simp⟩,
                        fun h => ⟨(h.resolve_left (by simp)).2.1, by simp⟩⟩
                  | false =>
                      rw [if_pos (show (!false && !false) = true from rfl)]
                      exact iff_of_false (by rintro ⟨text, ⟨⟩⟩) (by simp)

end Plan

/-! ## The request as it is answered -/

def missingSpec : ConnCall := .failed (some "Missing parameter TSI_ACL_COMMAND_SPEC".toList)

def missingCommand : ConnCall := .failed (some "Missing parameter TSI_ACL_COMMAND".toList)

/-- What is reported about the parameters that are missing. -/
def reports (command spec : Option Str) : List ConnCall :=
  (if spec = none then [missingSpec] else []) ++ if command = none then [missingCommand] else []

/-- The state after these calls have been made. -/
def sent (calls : List ConnCall) (s : HandlerState) : HandlerState :=
  { s with tick := s.tick + calls.length, calls := s.calls ++ calls }

section Answers

variable {r : HandlerCtx} {s s' : HandlerState} {config : Settings} {path : Str} {command spec : Option Str}

theorem send_open (hopen : ∀ t, r.host.channelGone t = false) (hbroken : s.broken = false) {c : ConnCall}
    (hc : c ≠ .ok (some "ENDOFMESSAGE".toList)) : send c r s = (.done (), sent [c] s) :=
  send_connected (hopen _) hbroken hc

theorem failed_open (hopen : ∀ t, r.host.channelGone t = false) (hbroken : s.broken = false) (m : Option Str) :
    failed m r s = (.done (), sent [.failed m] s) := send_open hopen hbroken (by simp)

theorem reportMissing_run (hopen : ∀ t, r.host.channelGone t = false) (hbroken : s.broken = false)
    (value : Option Str) (name : String) :
    reportMissing value name r s = (.done (), sent
      (if value = none then [.failed (some ("Missing parameter ".toList ++ name.toList))] else []) s) := by
  unfold reportMissing
  split
  · exact failed_open hopen hbroken _
  · simp [sent]

/-- A path with POSIX ACLs: what is missing is reported, and the decision carried out all the same. -/
theorem setAcl_posix (hopen : ∀ t, r.host.channelGone t = false) (hbroken : s.broken = false) :
    setAcl "POSIX".toList (some path) command spec config r s =
      carryOut config (setfaclPlan path command spec config) r (sent (reports command spec) s) := by
  unfold setAcl
  rw [bind_run_done (reportMissing_run hopen hbroken spec _),
    bind_run_done (reportMissing_run (s := sent _ s) hopen hbroken command _), if_pos rfl]
  show setfaclPosix path command spec config r _ = _
  rw [setfaclPosix_eq]
  congr 1
  simp only [sent, reports, missingSpec, missingCommand, List.length_append, List.append_assoc, Nat.add_assoc]
  rfl

/-- `bash` runs the command and exits with status zero. -/
def ExitsZero (host : Host) (t : ℕ) (args : List Str) : Prop := ∃ raw, host.checkOutput t args = .ok (0, raw)

/-- A command is run once, and one call that `Right` allows is made. -/
def RunsOnce (Right : ConnCall → Prop) (args : List Str) (s s' : HandlerState) : Prop :=
  s'.commands = s.commands ++ [args] ∧ ∃ c, s'.calls = s.calls ++ [c] ∧ Right c

/-- Failure is reported, and no command is run. -/
def Refused (s s' : HandlerState) : Prop :=
  s'.commands = s.commands ∧ ∃ new ≠ [], s'.calls = s.calls ++ new ∧ ∀ c ∈ new, ∃ m, c = .failed m

/-- The exit status alone decides what is reported. -/
def ByStatus (host : Host) (t : ℕ) (args : List Str) (c : ConnCall) : Prop :=
  (ExitsZero host t args → c = .ok none) ∧ (¬ExitsZero host t args → ∃ m, c = .failed m)

/-- What a command ends with: success needs an output that can be decoded too. -/
def ByOutput (host : Host) (t : ℕ) (args : List Str) (c : ConnCall) : Prop :=
  (c = .ok none ∧ ∃ raw text, host.checkOutput t args = .ok (0, raw) ∧ decode raw = .ok text) ∨
    ((∃ m, c = .failed m) ∧ ∀ raw text, host.checkOutput t args = .ok (0, raw) → decode raw ≠ .ok text)

theorem answered_failed (hopen : ∀ t, r.host.channelGone t = false) (hbroken : s.broken = false) (m : Option Str) :
    (answered (failed m) r s).2 = sent [.failed m] s := by
  rw [answered, handle_run_done (failed_open hopen hbroken m)]

theorem answered_raised (hopen : ∀ t, r.host.channelGone t = false) {x : Handler Unit} {e : PyExc}
    (hx : x r s = (.raised e, s')) (hbroken : s'.broken = false) :
    (answered x r s).2 = sent [.failed (some e.text)] s' := by
  rw [answered, handle_run_raised hx, failed_open hopen hbroken]

/-- The state after a command has been run in the foreground. -/
def ran (args : List Str) (s : HandlerState) : HandlerState :=
  { s with tick := s.tick + 1, commands := s.commands ++ [args] }

/-- A command that is run in the foreground. -/
theorem runCommand_run (cmd : Str) (loginShell : Bool) (r : HandlerCtx) (s : HandlerState) :
    runCommand cmd false false loginShell r s =
      (match r.host.checkOutput s.tick (shellArgs cmd loginShell) with
        | .error e => .raised e
        | .ok (code, raw) => match decode raw with
            | .error e => .raised e
            | .ok output =>
                if code = 0 then .done (true, output) else .done (false, failedCommandText cmd code output),
        ran (shellArgs cmd loginShell) s) := by
  rw [runCommand, logCommand, bind_run_done (modify_run _), if_neg Bool.false_ne_true]
  have hattempt := attempt_run (fun h t => h.checkOutput t (shellArgs cmd loginShell)) r
    { s with commands := s.commands ++ [shellArgs cmd loginShell] }
  dsimp only at hattempt
  cases hcheck : r.host.checkOutput s.tick (shellArgs cmd loginShell) with
  | error e =>
      rw [hcheck] at hattempt
      rw [bind_run_raised hattempt]
      rfl
  | ok result =>
      obtain ⟨code, raw⟩ := result
      rw [hcheck] at hattempt
      rw [bind_run_done hattempt]
      dsimp only
      cases decode raw with
      | error e => rfl
      | ok output =>
          dsimp only
          rw [ofExcept_ok, pure_bind]
          split <;> rfl

theorem runSetfacl_done (hopen : ∀ t, r.host.channelGone t = false) {config : Settings} {text : Str}
    {result : Bool × Str} (hrun : runCommand text false false config.useLoginShell r s = (.done result, s'))
    (hbroken : s'.broken = false) :
    (answered (runSetfacl text config) r s).2 = sent [if result.1 then .ok none else .failed (some result.2)] s' := by
  obtain ⟨success, output⟩ := result
  cases success with
  | false =>
      have hfailed : runSetfacl text config r s = (.done (), sent [.failed (some output)] s') := by
        rw [runSetfacl, bind_run_done hrun]
        exact failed_open hopen hbroken _
      rw [answered, handle_run_done hfailed]
      rfl
  | true =>
      have hok : runSetfacl text config r s = (.done (), sent [.ok none] s') := by
        rw [runSetfacl, bind_run_done hrun]
        exact send_open (c := .ok none) hopen hbroken (by simp)
      rw [answered, handle_run_done hok]
      rfl

theorem runSetfacl_raised (hopen : ∀ t, r.host.channelGone t = false) {config : Settings} {text : Str} {e : PyExc}
    (hrun : runCommand text false false config.useLoginShell r s = (.raised e, s')) (hbroken : s'.broken = false) :
    (answered (runSetfacl text config) r s).2 = sent [.failed (some e.text)] s' :=
  answered_raised hopen (bind_run_raised hrun) hbroken

/-- `setfacl` is run once, and what it ends with decides about the reply. -/
theorem answered_runSetfacl (hopen : ∀ t, r.host.channelGone t = false) (hbroken : s.broken = false) (config : Settings)
    (text : Str) : RunsOnce (ByOutput r.host s.tick (shellArgs text config.useLoginShell))
      (shellArgs text config.useLoginShell) s (answered (runSetfacl text config) r s).2 := by
  have hcommand := runCommand_run text config.useLoginShell r s
  have hbroken' : (ran (shellArgs text config.useLoginShell) s).broken = false := hbroken
  cases hcheck : r.host.checkOutput s.tick (shellArgs text config.useLoginShell) with
  | error e =>
      -- `bash` itself could not be started: there is no exit status
      rw [hcheck] at hcommand
      rw [runSetfacl_raised hopen hcommand hbroken']
      refine ⟨rfl, _, rfl, Or.inr ⟨⟨_, rfl⟩, ?_⟩⟩
      intro raw text hok
      rw [hcheck] at hok
      cases hok
  | ok result =>
      obtain ⟨code, raw⟩ := result
      rw [hcheck] at hcommand
      dsimp only at hcommand
      cases hdecode : decode raw with
      | error e =>
          -- reported as failed, whatever the exit status is
          rw [hdecode] at hcommand
          rw [runSetfacl_raised hopen hcommand hbroken']
          refine ⟨rfl, _, rfl, Or.inr ⟨⟨_, rfl⟩, ?_⟩⟩
          intro raw' text hok
          obtain rfl : raw = raw' := (Prod.mk.inj (Except.ok.inj (hcheck.symm.trans hok))).2
          rw [hdecode]
          rintro ⟨⟩
      | ok output =>
          rw [hdecode] at hcommand
          dsimp only at hcommand
          by_cases hcode : code = 0
          · rw [if_pos hcode] at hcommand
            rw [runSetfacl_done hopen hcommand hbroken']
            subst hcode
            exact ⟨rfl, _, rfl, Or.inl ⟨rfl, raw, output, hcheck, hdecode⟩⟩
          · rw [if_neg hcode] at hcommand
            rw [runSetfacl_done hopen hcommand hbroken']
            refine ⟨rfl, _, rfl, Or.inr ⟨⟨_, rfl⟩, ?_⟩⟩
            intro raw' text hok
            exact absurd (Prod.mk.inj (Except.ok.inj (hcheck.symm.trans hok))).1 hcode

/-- Whatever comes of the decision but a command, one failure is reported. -/
theorem answered_refused (hopen : ∀ t, r.host.channelGone t = false) (hbroken : s.broken = false) (config : Settings)
    (plan : Except PyExc (Option Str)) (hplan : ∀ text, plan ≠ .ok (some text)) :
    ∃ m, (answered (carryOut config plan) r s).2 = sent [.failed m] s := by
  match plan with
  | .error e => exact ⟨some e.text, answered_raised hopen (x := raise e) rfl hbroken⟩
  | .ok none => exact ⟨_, answered_failed hopen hbroken _⟩
  | .ok (some text) => exact absurd rfl (hplan text)

theorem checkSupport_ticks (path : Option Str) (acl : List (Str × Str)) : Within Ticks (checkSupport path acl) := by
  unfold checkSupport
  refine within_bind (within_ofExcept _) ?_
  intro path
  have hsearch : Within Ticks
      (ask >>= fun r : HandlerCtx => ofExcept (bestMatch r.host path acl 0 "NONE".toList) : Handler Str) :=
    within_bind within_ask fun _ => within_ofExcept _
  split
  · exact within_bind (sysCall_ticks _) fun _ => hsearch
  · exact hsearch

/-- A `SETFACL` request on a path with POSIX ACLs. -/
theorem processAcl_setfacl {msg : Str} {s₁ : HandlerState}
    (hop : extractParameter msg "ACL_OPERATION".toList = some "SETFACL".toList)
    (hpath : extractParameter msg "ACL_PATH".toList = some path)
    (hsupport : checkSupport (some path) config.acl r s = (.done "POSIX".toList, s₁))
    (hopen : ∀ t, r.host.channelGone t = false) (hbroken : s₁.broken = false) :
    processAcl msg config r s =
      carryOut config (setfaclPlan path (extractParameter msg "ACL_COMMAND".toList)
        (extractParameter msg "ACL_COMMAND_SPEC".toList) config) r
        (sent (reports (extractParameter msg "ACL_COMMAND".toList) (extractParameter msg "ACL_COMMAND_SPEC".toList)) s₁) := by
  unfold processAcl
  rw [hop, hpath, if_neg (by decide), if_neg (by decide), if_pos rfl, bind_run_done hsupport]
  exact setAcl_posix hopen hbroken

theorem answered_congr {x y : Handler Unit} {s s₁ : HandlerState} (h : x r s = y r s₁) :
    answered x r s = answered y r s₁ := by
  rw [answered, answered, handle, handle, h]

end Answers

/-- Either a documented request is carried out by one `setfacl` and its exit status decides about the one reply, or
the request is none of the documented ones, failure is reported and nothing is run. -/
def AllOrNothing (IsSubject IsPermissions : Str → Prop) (host : Host) (config : Settings) (path : Str)
    (command spec : Option Str) (t : ℕ) (s s' : HandlerState) : Prop :=
  (∃ req args, Documented IsSubject IsPermissions command spec req ∧
    args = shellArgs (req.text config path) config.useLoginShell ∧ RunsOnce (ByStatus host t args) args s s') ∨
  ((∀ req, ¬Documented IsSubject IsPermissions command spec req) ∧ Refused s s')

/-- The code does what is asked for: the request is documented, has a specification, needed or not, and what a
successful `setfacl` prints can be decoded; or it is not documented, and does not run a command by chance. -/
def CarriedOut (IsSubject IsPermissions : Str → Prop) (host : Host) (config : Settings) (path : Str)
    (command spec : Option Str) (t : ℕ) : Prop :=
  (∃ req, Documented IsSubject IsPermissions command spec req ∧ spec ≠ none ∧
    ∀ raw, host.checkOutput t (shellArgs (req.text config path) config.useLoginShell) = .ok (0, raw) →
      ∃ text, decode raw = .ok text) ∨
  ((∀ req, ¬Documented IsSubject IsPermissions command spec req) ∧ ¬RunsCommand command spec)

/-- The exit status has decided if the output of success can be decoded. -/
theorem byStatus_iff {host : Host} {t : ℕ} {args : List Str} {c : ConnCall} (h : ByOutput host t args c) :
    ByStatus host t args c ↔ ∀ raw, host.checkOutput t args = .ok (0, raw) → ∃ text, decode raw = .ok text := by
  rcases h with ⟨hok, raw, text, hzero, hdecode⟩ | ⟨⟨m, hfailed⟩, hnone⟩
  · refine iff_of_true ⟨fun _ => hok, fun hnot => absurd ⟨raw, hzero⟩ hnot⟩ ?_
    intro raw' hzero'
    obtain rfl : raw = raw' := (Prod.mk.inj (Except.ok.inj (hzero.symm.trans hzero'))).2
    exact ⟨text, hdecode⟩
  · constructor
    · rintro ⟨hzero, -⟩ raw hraw
      have hboth := hfailed.symm.trans (hzero ⟨raw, hraw⟩)
      cases hboth
    · intro hdecodes
      refine ⟨?_, fun _ => ⟨m, hfailed⟩⟩
      rintro ⟨raw, hraw⟩
      obtain ⟨text, htext⟩ := hdecodes raw hraw
      exact absurd htext (hnone raw text hraw)

/-- A documented request has one command line. -/
theorem documented_text {IsSubject IsPermissions : Str → Prop} {command spec : Option Str} {req req' : SetRequest}
    (h : Documented IsSubject IsPermissions command spec req) (h' : Documented IsSubject IsPermissions command spec req')
    (config : Settings) (path : Str) : req.text config path = req'.text config path := by
  have hplan := (setfaclPlan_documented path config h).symm.trans (setfaclPlan_documented path config h')
  exact Option.some.inj (Except.ok.inj hplan)

theorem Documented.command_ne_none {IsSubject IsPermissions : Str → Prop} {command spec : Option Str}
    {req : SetRequest} (h : Documented IsSubject IsPermissions command spec req) : command ≠ none := by
  cases h <;> exact Option.some_ne_none _

theorem reports_failed {command spec : Option Str} {c : ConnCall} (h : c ∈ reports command spec) : ∃ m, c = .failed m := by
  rcases List.mem_append.mp h with h | h
  · split at h
    · exact ⟨_, List.mem_singleton.mp h⟩
    · cases h
  · split at h
    · exact ⟨_, List.mem_singleton.mp h⟩
    · cases h

theorem reports_eq_nil {command spec : Option Str} : reports command spec = [] ↔ spec ≠ none ∧ command ≠ none := by
  cases command <;> cases spec <;> simp [reports]

section Outcomes

variable {IsSubject IsPermissions : Str → Prop} {host : Host} {config : Settings} {path : Str} {command spec : Option Str}
  {t : ℕ} {s s' : HandlerState}

/-- A documented request: its command is run, and what is left to ask is who decides about the reply. -/
theorem allOrNothing_documented {req : SetRequest} (hreq : Documented IsSubject IsPermissions command spec req)
    (hcommands : s'.commands = s.commands ++ [shellArgs (req.text config path) config.useLoginShell]) {c : ConnCall}
    (hcalls : s'.calls = s.calls ++ reports command spec ++ [c])
    (hc : ByOutput host t (shellArgs (req.text config path) config.useLoginShell) c) :
    AllOrNothing IsSubject IsPermissions host config path command spec t s s' ↔
      CarriedOut IsSubject IsPermissions host config path command spec t := by
  constructor
  · -- a single call leaves no room for a report
    rintro (⟨req', args, hreq', rfl, -, c', hcalls', hstatus⟩ | ⟨hnone, -⟩)
    · rw [documented_text hreq' hreq] at hstatus
      have hone : reports command spec ++ [c] = [c'] :=
        List.append_cancel_left ((List.append_assoc ..).symm.trans (hcalls.symm.trans hcalls'))
      obtain ⟨hreports, hcc⟩ := (List.append_eq_singleton_iff.mp hone).resolve_right (by simp)
      obtain rfl : c = c' := List.singleton_inj.mp hcc
      exact Or.inl ⟨req, hreq, (reports_eq_nil.mp hreports).1, (byStatus_iff hc).mp hstatus⟩
    · exact absurd hreq (hnone req)
  · rintro (⟨req', hreq', hspec, hdecodes⟩ | ⟨hnone, -⟩)
    · rw [documented_text hreq' hreq] at hdecodes
      -- nothing is missing, so nothing has been reported before
      have hreports : reports command spec = [] := reports_eq_nil.mpr ⟨hspec, hreq.command_ne_none⟩
      rw [hreports, List.append_nil] at hcalls
      exact Or.inl ⟨req, _, hreq, rfl, hcommands, c, hcalls, (byStatus_iff hc).mpr hdecodes⟩
    · exact absurd hreq (hnone req)

/-- A request that is not documented has to be refused. -/
theorem allOrNothing_undocumented (hnone : ∀ req, ¬Documented IsSubject IsPermissions command spec req)
    (hruns : RunsCommand command spec → s'.commands ≠ s.commands)
    (hrefused : ¬RunsCommand command spec → Refused s s') :
    AllOrNothing IsSubject IsPermissions host config path command spec t s s' ↔
      CarriedOut IsSubject IsPermissions host config path command spec t := by
  constructor
  · rintro (⟨req, -, h, -⟩ | ⟨-, hcommands, -⟩)
    · exact absurd h (hnone req)
    · exact Or.inr ⟨hnone, fun h => hruns h hcommands⟩
  · rintro (⟨req, h, -⟩ | ⟨-, h⟩)
    · exact absurd h (hnone req)
    · exact Or.inr ⟨hnone, hrefused h⟩

end Outcomes

theorem setfacl_all_or_nothing_iff (IsSubject IsPermissions : Str → Prop) {msg path : Str} {config : Settings}
    {r : HandlerCtx} {s s₁ : HandlerState}
    (hop : extractParameter msg "ACL_OPERATION".toList = some "SETFACL".toList)
    (hpath : extractParameter msg "ACL_PATH".toList = some path)
    (hsupport : checkSupport (some path) config.acl r s = (.done "POSIX".toList, s₁))
    (hopen : ∀ t, r.host.channelGone t = false) (hbroken : s.broken = false) :
    let command := extractParameter msg "ACL_COMMAND".toList
    let spec := extractParameter msg "ACL_COMMAND_SPEC".toList
    let t := s₁.tick + (reports command spec).length
    AllOrNothing IsSubject IsPermissions r.host config path command spec t s (answered (processAcl msg config) r s).2 ↔
      CarriedOut IsSubject IsPermissions r.host config path command spec t := by
  intro command spec t
  obtain ⟨n, hn⟩ := checkSupport_ticks (some path) config.acl r s
  rw [hsupport] at hn
  dsimp only at hn
  have hcalls₁ : s₁.calls = s.calls := by rw [hn]
  have hcommands₁ : s₁.commands = s.commands := by rw [hn]
  have hbroken₁ : s₁.broken = false := by rw [hn, hbroken]
  set s₂ := sent (reports command spec) s₁ with hs₂
  have hsent : s₂.calls = s.calls ++ reports command spec := by rw [hs₂, sent, hcalls₁]
  have hbroken₂ : s₂.broken = false := hbroken₁
  rw [answered_congr (processAcl_setfacl hop hpath hsupport hopen hbroken₁)]
  by_cases hdocumented : ∃ req, Documented IsSubject IsPermissions command spec req
  · obtain ⟨req, hreq⟩ := hdocumented
    rw [setfaclPlan_documented path config hreq]
    obtain ⟨hcommands, c, hcalls, hc⟩ := answered_runSetfacl hopen hbroken₂ config (req.text config path)
    rw [hsent] at hcalls
    exact allOrNothing_documented hreq (hcommands.trans (congrArg (· ++ _) hcommands₁)) hcalls hc
  · refine allOrNothing_undocumented (fun req h => hdocumented ⟨req, h⟩) (fun hruns hcommands => ?_) fun hruns => ?_
    · -- a command that has been run is in the record
      obtain ⟨text, htext⟩ := (setfaclPlan_runs path command spec config).mpr hruns
      rw [htext] at hcommands
      have hran := (answered_runSetfacl hopen hbroken₂ config text).1
      have hgrown : s.commands = s.commands ++ [shellArgs text config.useLoginShell] :=
        hcommands.symm.trans (hran.trans (congrArg (· ++ _) hcommands₁))
      exact absurd hgrown (by simp)
    · obtain ⟨m, hm⟩ := answered_refused hopen hbroken₂ config (setfaclPlan path command spec config)
        fun text h => hruns ((setfaclPlan_runs path command spec config).mp ⟨text, h⟩)
      rw [hm]
      refine ⟨hcommands₁, reports command spec ++ [.failed m], by simp, ?_, ?_⟩
      · rw [sent, hsent, List.append_assoc]
      · intro c hc
        rcases List.mem_append.mp hc with hc | hc
        · exact reports_failed hc
        · exact ⟨m, List.mem_singleton.mp hc⟩

def aclSettings : Settings := { acl := [("/data".toList, "POSIX".toList)], setfacl := "setfacl".toList }

/-- The permissions are three of `rwx-`. -/
def IsRwx (text : Str) : Prop := text.length = 3 ∧ ∀ c ∈ text, c ∈ "rwx-".toList

def setfaclRequest (parameters : String) : Str :=
  "#TSI_FILE_ACL\n#TSI_ACL_OPERATION SETFACL\n#TSI_ACL_PATH /data/a\n".toList ++ parameters.toList

def modifyRequest : Str := setfaclRequest "#TSI_ACL_COMMAND MODIFY\n#TSI_ACL_COMMAND_SPEC U alice rw-\n"

def removeAllRequest : Str := setfaclRequest "#TSI_ACL_COMMAND RM_ALL\n"

theorem demo_support : checkSupport (some "/data/a".toList) aclSettings.acl ⟨plainHost, ⟨none, none, none⟩, 10⟩ .fresh =
    (.done "POSIX".toList, .fresh) := rfl

/-- Read and write access for a user. -/
theorem setfacl_all_or_nothing_iff_modify :
    AllOrNothing (fun _ => True) IsRwx plainHost aclSettings "/data/a".toList (some "MODIFY".toList)
        (some "U alice rw-".toList) 0 .fresh
        (answered (processAcl modifyRequest aclSettings) ⟨plainHost, ⟨none, none, none⟩, 10⟩ .fresh).2 ↔
      CarriedOut (fun _ => True) IsRwx plainHost aclSettings "/data/a".toList (some "MODIFY".toList)
        (some "U alice rw-".toList) 0 := by
  have hop : extractParameter modifyRequest "ACL_OPERATION".toList = some "SETFACL".toList :=
    extractParameter_of_given (by decide) (by decide +kernel) (by decide)
  have hpath : extractParameter modifyRequest "ACL_PATH".toList = some "/data/a".toList :=
    extractParameter_of_given (by decide) (by decide +kernel) (by decide)
  have hcommand : extractParameter modifyRequest "ACL_COMMAND".toList = some "MODIFY".toList :=
    extractParameter_of_given (by decide) (by decide +kernel) (by decide)
  have hspec : extractParameter modifyRequest "ACL_COMMAND_SPEC".toList = some "U alice rw-".toList :=
    extractParameter_of_given (by decide) (by decide +kernel) (by decide)
  have hiff := setfacl_all_or_nothing_iff (fun _ => True) IsRwx hop hpath demo_support (fun _ => rfl) rfl
  rw [hcommand, hspec] at hiff
  exact hiff

/-- `RM_ALL` needs no specification: without one, failure is reported and the ACL is removed. -/
theorem removed_though_failed :
    extractParameter removeAllRequest "ACL_COMMAND".toList = some "RM_ALL".toList ∧
      extractParameter removeAllRequest "ACL_COMMAND_SPEC".toList = none ∧
      ¬AllOrNothing (fun _ => True) IsRwx plainHost aclSettings "/data/a".toList (some "RM_ALL".toList) none 1 .fresh
        (answered (processAcl removeAllRequest aclSettings) ⟨plainHost, ⟨none, none, none⟩, 10⟩ .fresh).2 := by
  have hop : extractParameter removeAllRequest "ACL_OPERATION".toList = some "SETFACL".toList :=
    extractParameter_of_given (by decide) (by decide +kernel) (by decide)
  have hpath : extractParameter removeAllRequest "ACL_PATH".toList = some "/data/a".toList :=
    extractParameter_of_given (by decide) (by decide +kernel) (by decide)
  have hcommand : extractParameter removeAllRequest "ACL_COMMAND".toList = some "RM_ALL".toList :=
    extractParameter_of_given (by decide) (by decide +kernel) (by decide)
  have hspec : extractParameter removeAllRequest "ACL_COMMAND_SPEC".toList = none := by
    rw [extractParameter_eq (by decide)]
    decide +kernel
  refine ⟨hcommand, hspec, ?_⟩
  have hopen : ∀ t, plainHost.channelGone t = false := fun _ => rfl
  rw [answered_congr (processAcl_setfacl hop hpath demo_support hopen rfl), hcommand, hspec]
  have hplan := setfaclPlan_documented "/data/a".toList aclSettings
    (.removeAll false none : Documented (fun _ => True) IsRwx _ _ _)
  rw [show some "RM_ALL".toList = some (commandText "RM_ALL" false) from rfl, hplan]
  obtain ⟨hcommands, c, hcalls, -⟩ := answered_runSetfacl (r := ⟨plainHost, ⟨none, none, none⟩, 10⟩)
    (s := sent (reports (some (commandText "RM_ALL" false)) none) .fresh) hopen rfl aclSettings
    ((SetRequest.removeAll false).text aclSettings "/data/a".toList)
  rintro (⟨req, args, -, -, -, c', hcalls', -⟩ | ⟨-, hsame, -⟩)
  · -- the report of the missing specification comes before the reply
    have hlength := congrArg List.length (hcalls.symm.trans hcalls')
    cases hlength
  · exact absurd (hsame.symm.trans hcommands) (by simp [sent])

end UnicoreTsi.Acl
