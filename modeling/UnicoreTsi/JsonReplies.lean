/-
# UnicoreTsi.JsonReplies — the replies that are written as JSON.

The details of a job and the partitions are dictionaries made of what a command of the batch system printed; the
reply is `json.dumps` of the dictionary.  Whatever was printed, the reply is one line of printable ASCII characters,
and a reader of JSON gets the dictionary back from it (`json_replies`).
-/
import UnicoreTsi.Lib.Json
import UnicoreTsi.ExitCodes
import UnicoreTsi.Partitions

set_option autoImplicit false

namespace UnicoreTsi.BssCommon

open UnicoreTsi.Text UnicoreTsi.Effects UnicoreTsi.Utils UnicoreTsi.Connector UnicoreTsi.Words UnicoreTsi.KeyedMax
open UnicoreTsi.JsonText UnicoreTsi.Acl

/-! ## Strings -/

theorem hexValue_hexDigit {n : Nat} (h : n < 16) : hexValue (hexDigit n) = some n := by
  have hall : ∀ n < 16, hexValue (hexDigit n) = some n := by decide +kernel
  exact hall n h

theorem lex_unicodeEscape {n : Nat} (h : n < 0x10000) (units : List Nat) (s : Str) :
    lex (.string units) (unicodeEscape n ++ s) = lex (.string (units ++ [n])) s := by
  have hdigit : ∀ m, hexValue (hexDigit (m % 16)) = some (m % 16) := fun m => hexValue_hexDigit (Nat.mod_lt m (by decide))
  have hnumber : ((n / 4096 % 16 * 16 + n / 256 % 16) * 16 + n / 16 % 16) * 16 + n % 16 = n := by omega
  have hlex := @lex_unicode units _ _ _ _ _ _ _ _ (hdigit (n / 4096)) (hdigit (n / 256)) (hdigit (n / 16)) (hdigit n) s
  rw [hnumber] at hlex
  exact hlex

/-- A character that is written as a backslash and a letter. -/
theorem lex_short {c e : Char} {n : Nat} (hc : c.toNat = n) (he : escaped e = some n) (hn : n < 0x10000)
    (units : List Nat) (s : Str) : lex (.string units) ('\\' :: e :: s) = lex (.string (units ++ utf16 c)) s := by
  rw [lex_escaped he, utf16, hc, if_pos hn]

/-- Every character of a string is read back, however it is written. -/
theorem lex_jsonChar (c : Char) (units : List Nat) (s : Str) :
    lex (.string units) (jsonChar c ++ s) = lex (.string (units ++ utf16 c)) s := by
  have hrange := toNat_range c
  simp only [jsonChar]
  split_ifs with hquote hslash hnewline hreturn htab hbackspace hfeed hplain hbasic
  · exact lex_short (by rw [hquote]; rfl) rfl (by decide) units s
  · exact lex_short (by rw [hslash]; rfl) rfl (by decide) units s
  · exact lex_short (by rw [hnewline]; rfl) rfl (by decide) units s
  · exact lex_short (by rw [hreturn]; rfl) rfl (by decide) units s
  · exact lex_short (by rw [htab]; rfl) rfl (by decide) units s
  · exact lex_short hbackspace rfl (by decide) units s
  · exact lex_short hfeed rfl (by decide) units s
  · exact lex_plain hquote hslash hplain.1 s
  · rw [lex_unicodeEscape hbasic, utf16, if_pos hbasic]
  · -- the two surrogates are escaped one after the other
    rw [List.append_assoc, lex_unicodeEscape (by omega), lex_unicodeEscape (by omega), utf16, if_neg hbasic,
      List.append_assoc, List.singleton_append]

theorem lex_jsonString (text s : Str) : lex .between (jsonString text ++ s) = (lex .between s).map (.str text :: ·) := by
  have hbody : ∀ (t : Str) (units : List Nat), lex (.string units) (t.flatMap jsonChar ++ '"' :: s) =
      lex (.string (units ++ t.flatMap utf16)) ('"' :: s) := by
    intro t
    induction t with
    | nil => simp
    | cons c t ih =>
        intro units
        rw [List.flatMap_cons, List.append_assoc, lex_jsonChar, ih, List.flatMap_cons, List.append_assoc]
  rw [jsonString, List.cons_append, lex_silent (n := .string []) rfl, List.append_assoc, List.singleton_append, hbody,
    List.nil_append, lex_endString (ofUtf16_flatMap text)]

/-! ## Numbers -/

/-- Only the number zero is written with a leading zero. -/
theorem numberToken_natText (negative : Bool) (n : ℕ) :
    numberToken negative (natText n) = some (.int (if negative then -(n : Int) else n)) := by
  have hzero : ∀ n : ℕ, (Nat.toDigits 10 n).head? = some '0' → n = 0 := by
    intro n
    induction n using Nat.strongRecOn with
    | ind n ih =>
        intro hhead
        rcases Nat.lt_or_ge n 10 with hsmall | hlarge
        · revert hhead
          have hall : ∀ n < 10, (Nat.toDigits 10 n).head? = some '0' → n = 0 := by decide +kernel
          exact hall n hsmall
        · rw [Nat.toDigits_of_base_le (by decide) hlarge, List.head?_append_of_ne_nil _ Nat.toDigits_ne_nil] at hhead
          have := ih (n / 10) (by omega) hhead
          omega
  have hlead : ¬(natText n = [] ∨ ((natText n).head? = some '0' ∧ natText n ≠ ['0'])) := by
    rintro (hnil | ⟨hhead, hother⟩)
    · exact natText_ne_nil n hnil
    · rw [natText_eq] at hhead
      obtain rfl := hzero n hhead
      exact hother rfl
  rw [numberToken, if_neg hlead, natText_eq, Decimal.value_toDigits]

theorem lex_intText (n : Int) {s : Str} (hs : Stops Char.isDigit s) :
    lex .between (intText n ++ s) = (lex .between s).map (.int n :: ·) := by
  cases n with
  | ofNat n =>
      show lex .between (natText n ++ s) = _
      obtain ⟨c, cs, hc⟩ := List.exists_cons_of_ne_nil (natText_ne_nil n)
      have hdigits : ∀ d ∈ c :: cs, d.isDigit = true := fun d hd => isDigit_of_mem_natText (hc ▸ hd)
      obtain ⟨hfirst, hrest⟩ := List.forall_mem_cons.mp hdigits
      rw [hc, List.cons_append, lex_silent (step_digit hfirst), lex_digits hrest, List.singleton_append, ← hc,
        lex_number (numberToken_natText false n) hs]
      rfl
  | negSucc n =>
      rw [intText_negSucc, List.cons_append, lex_silent (n := .number true []) rfl,
        lex_digits fun _ hd => isDigit_of_mem_natText hd, List.nil_append, lex_number (numberToken_natText true (n + 1)) hs]
      rfl

/-! ## Values -/

mutual

/-- The value that a dictionary of the parsers stands for. -/
def toValue : Json → Value
  | .str s => .str s
  | .int n => .int n
  | .bool b => .bool b
  | .obj fields => .obj (toMembers fields)

def toMembers : List (Str × Json) → List (Str × Value)
  | [] => []
  | (k, v) :: rest => (k, toValue v) :: toMembers rest

end

theorem stops_digit_of_alphanum {s : Str} (h : Stops Char.isAlphanum s) : Stops Char.isDigit s := by
  intro c hc
  have halpha := h c hc
  rw [Char.isAlphanum, Bool.or_eq_false_iff] at halpha
  exact halpha.2

theorem stops_alpha_of_alphanum {s : Str} (h : Stops Char.isAlphanum s) : Stops Char.isAlpha s := by
  intro c hc
  have halpha := h c hc
  rw [Char.isAlphanum, Bool.or_eq_false_iff] at halpha
  exact halpha.1

theorem lex_boolText (b : Bool) {s : Str} (hs : Stops Char.isAlpha s) :
    lex .between ((if b then "true".toList else "false".toList) ++ s) = (lex .between s).map (.bool b :: ·) := by
  cases b with
  | true =>
      show lex .between ('t' :: ("rue".toList ++ s)) = _
      rw [lex_silent (n := .name ['t']) rfl, lex_letters (by decide), lex_name (t := .bool true) rfl hs]
  | false =>
      show lex .between ('f' :: ("alse".toList ++ s)) = _
      rw [lex_silent (n := .name ['f']) rfl, lex_letters (by decide), lex_name (t := .bool false) rfl hs]

/-- The separator `": "`. -/
theorem lex_colon (s : Str) : lex .between (": ".toList ++ s) = (lex .between s).map (.colon :: ·) := by
  show lex .between (':' :: ' ' :: s) = _
  rw [lex_between (t := .colon) rfl, lex_silent (n := .between) rfl]

/-- The separator `", "`. -/
theorem lex_comma (s : Str) : lex .between (", ".toList ++ s) = (lex .between s).map (.comma :: ·) := by
  show lex .between (',' :: ' ' :: s) = _
  rw [lex_between (t := .comma) rfl, lex_silent (n := .between) rfl]

mutual

/-- What is dumped has the tokens of the value. -/
theorem lex_jsonDumps (j : Json) {s : Str} (hs : Stops Char.isAlphanum s) :
    lex .between (jsonDumps j ++ s) = (lex .between s).map (tokens (toValue j) ++ ·) := by
  match j with
  | .str text =>
      rw [jsonDumps, lex_jsonString]
      rfl
  | .int n =>
      rw [jsonDumps, lex_intText n (stops_digit_of_alphanum hs)]
      rfl
  | .bool b =>
      rw [jsonDumps, lex_boolText b (stops_alpha_of_alphanum hs)]
      rfl
  | .obj fields =>
      rw [jsonDumps, List.append_assoc, List.append_assoc]
      show lex .between ('\x7b' :: (jsonFields fields ++ ('\x7d' :: s))) = _
      rw [lex_between (t := .openBrace) rfl, lex_jsonFields fields]
      simp [toValue, tokens, Function.comp_def]

/-- The fields, up to the closing brace. -/
theorem lex_jsonFields (fields : List (Str × Json)) (s : Str) :
    lex .between (jsonFields fields ++ ('\x7d' :: s)) =
      (lex .between s).map (memberTokens (toMembers fields) ++ .closeBrace :: ·) := by
  match fields with
  | [] =>
      rw [jsonFields, List.nil_append, lex_between (t := .closeBrace) rfl]
      rfl
  | [(k, v)] =>
      rw [jsonFields, List.append_assoc, List.append_assoc, lex_jsonString, lex_colon, lex_jsonDumps v (stops_cons rfl),
        lex_between (t := .closeBrace) rfl]
      simp [toMembers, memberTokens, Function.comp_def]
  | (k, v) :: p :: rest =>
      have hcomma : Stops Char.isAlphanum (", ".toList ++ (jsonFields (p :: rest) ++ '\x7d' :: s)) := stops_cons rfl
      rw [jsonFields, List.append_assoc, List.append_assoc, List.append_assoc, List.append_assoc, lex_jsonString,
        lex_colon, lex_jsonDumps v hcomma, lex_comma, lex_jsonFields (p :: rest)]
      · obtain ⟨k', v'⟩ := p
        simp [toMembers, memberTokens, Function.comp_def]
      · nofun

end

/-- **What is dumped is read back**, also with a newline after it. -/
theorem read_jsonDumps (j : Json) : JsonText.read (jsonDumps j) = some (toValue j) := by
  apply read_of_lex
  have h := lex_jsonDumps j stops_nil
  rw [List.append_nil] at h
  rw [h]
  simp [lex, finish]

/-! ## What the dumped text is made of -/

def Printable (s : Str) : Prop := ∀ c ∈ s, 32 ≤ c.toNat ∧ c.toNat ≤ 126

theorem printable_append {s t : Str} (hs : Printable s) (ht : Printable t) : Printable (s ++ t) := by
  intro c hc
  rcases List.mem_append.mp hc with hc | hc
  · exact hs c hc
  · exact ht c hc

theorem printable_cons {c : Char} {s : Str} (hc : 32 ≤ c.toNat ∧ c.toNat ≤ 126) (hs : Printable s) :
    Printable (c :: s) := List.forall_mem_cons.mpr ⟨hc, hs⟩

theorem printable_hexDigit (n : Nat) : 32 ≤ (hexDigit (n % 16)).toNat ∧ (hexDigit (n % 16)).toNat ≤ 126 := by
  have hall : ∀ n < 16, 32 ≤ (hexDigit n).toNat ∧ (hexDigit n).toNat ≤ 126 := by decide +kernel
  exact hall _ (Nat.mod_lt n (by decide))

theorem printable_unicodeEscape (n : Nat) : Printable (unicodeEscape n) := by
  apply printable_append
  · unfold Printable
    decide
  · intro c hc
    simp only [List.mem_cons, List.not_mem_nil, or_false] at hc
    rcases hc with rfl | rfl | rfl | rfl
    all_goals exact printable_hexDigit _

theorem printable_jsonChar (c : Char) : Printable (jsonChar c) := by
  have hfixed : ∀ t ∈ ["\\\"", "\\\\", "\\n", "\\r", "\\t", "\\b", "\\f"], Printable t.toList := by
    unfold Printable
    decide
  simp only [List.forall_mem_cons] at hfixed
  obtain ⟨h₁, h₂, h₃, h₄, h₅, h₆, h₇, -⟩ := hfixed
  simp only [jsonChar]
  split_ifs with _ _ _ _ _ _ _ hplain
  · exact h₁
  · exact h₂
  · exact h₃
  · exact h₄
  · exact h₅
  · exact h₆
  · exact h₇
  · exact printable_cons hplain nofun
  · exact printable_unicodeEscape _
  · exact printable_append (printable_unicodeEscape _) (printable_unicodeEscape _)

theorem printable_jsonString (s : Str) : Printable (jsonString s) := by
  have hquote : 32 ≤ ('"' : Char).toNat ∧ ('"' : Char).toNat ≤ 126 := by decide
  apply printable_cons hquote
  apply printable_append
  · intro c hc
    obtain ⟨d, -, hd⟩ := List.mem_flatMap.mp hc
    exact printable_jsonChar d c hd
  · exact printable_cons hquote nofun

theorem printable_natText (n : ℕ) : Printable (natText n) := by
  intro c hc
  have hrange : 48 ≤ c.toNat ∧ c.toNat ≤ 57 := Char.isDigit_iff_toNat.mp (isDigit_of_mem_natText hc)
  omega

theorem printable_intText (n : Int) : Printable (intText n) := by
  cases n with
  | ofNat n => exact printable_natText n
  | negSucc n =>
      rw [intText_negSucc]
      exact printable_cons (by decide) (printable_natText _)

theorem printable_separators :
    Printable ": ".toList ∧ Printable ", ".toList ∧ Printable "\x7b".toList ∧ Printable "\x7d".toList ∧
      Printable "true".toList ∧ Printable "false".toList := by
  unfold Printable
  decide

mutual

theorem printable_jsonDumps (j : Json) : Printable (jsonDumps j) := by
  obtain ⟨-, -, hopen, hclose, htrue, hfalse⟩ := printable_separators
  match j with
  | .str s =>
      rw [jsonDumps]
      exact printable_jsonString s
  | .int n =>
      rw [jsonDumps]
      exact printable_intText n
  | .bool true => exact htrue
  | .bool false => exact hfalse
  | .obj fields =>
      rw [jsonDumps]
      exact printable_append (printable_append hopen (printable_jsonFields fields)) hclose

theorem printable_jsonFields (fields : List (Str × Json)) : Printable (jsonFields fields) := by
  obtain ⟨hcolon, hcomma, -⟩ := printable_separators
  match fields with
  | [] => nofun
  | [(k, v)] =>
      rw [jsonFields]
      exact printable_append (printable_append (printable_jsonString k) hcolon) (printable_jsonDumps v)
  | (k, v) :: p :: rest =>
      rw [jsonFields]
      · exact printable_append (printable_append
          (printable_append (printable_append (printable_jsonString k) hcolon) (printable_jsonDumps v)) hcomma)
          (printable_jsonFields (p :: rest))
      · nofun

end

/-! ## The dictionaries of the variants -/

/-- A dictionary: no key is there twice. -/
def IsDict (j : Json) : Prop := ∃ fields, j = .obj fields ∧ (fields.map Prod.fst).Nodup

theorem nodup_putField {α : Type} {l : List (Str × α)} (h : (l.map Prod.fst).Nodup) (k : Str) (v : α) :
    ((putField k v l).map Prod.fst).Nodup := by
  rw [putField_eq_put]
  exact put_nodup h k v

/-- A loop over lines that makes a dictionary. -/
theorem nodup_foldl {enter : List (Str × Json) → Str → List (Str × Json)}
    (henter : ∀ fields line, (fields.map Prod.fst).Nodup → ((enter fields line).map Prod.fst).Nodup)
    (lines : List Str) {fields : List (Str × Json)} (h : (fields.map Prod.fst).Nodup) :
    ((lines.foldl enter fields).map Prod.fst).Nodup := by
  induction lines generalizing fields with
  | nil => exact h
  | cons line lines ih => exact ih (henter fields line h)

theorem nodup_addPartitions {lines : List Str} {fields fields' : List (Str × Json)}
    (hfields : (fields.map Prod.fst).Nodup) (h : BssSlurm.addPartitions lines fields = .ok fields') :
    (fields'.map Prod.fst).Nodup := by
  induction lines generalizing fields with
  | nil =>
      obtain rfl := Except.ok.inj h
      exact hfields
  | cons line lines ih =>
      rw [BssSlurm.addPartitions] at h
      split at h
      · rename_i name nodes hwords
        cases hnumber : pyInt 10 nodes with
        | error e =>
            rw [hnumber] at h
            cases h
        | ok n =>
            rw [hnumber] at h
            dsimp only [bind, Except.bind] at h
            split at h
            · exact ih (nodup_putField hfields _ _) h
            · cases h
      · exact ih hfields h

theorem Variant.details_isDict (v : Variant) {output : Str} {result : Json}
    (h : v.hooks.parseJobDetails output = .ok result) : IsDict result := by
  have hbase : IsDict (parseJobDetails output) := by
    refine ⟨_, rfl, nodup_foldl ?_ _ List.nodup_nil⟩
    intro fields line hfields
    split
    · exact nodup_putField hfields _ _
    · exact hfields
  have htorque : IsDict (BssTorque.parseJobDetails output) := by
    refine ⟨_, rfl, nodup_foldl ?_ _ List.nodup_nil⟩
    intro fields line hfields
    split
    · exact nodup_putField hfields _ _
    · exact hfields
  cases v with
  | torque =>
      obtain rfl := Except.ok.inj h
      exact htorque
  | _ =>
      obtain rfl := Except.ok.inj h
      exact hbase

theorem Variant.partitions_isDict (v : Variant) {output : Str} {result : Json}
    (h : v.hooks.parsePartitions output = .ok result) : IsDict result := by
  have hnone : IsDict (.obj []) := ⟨[], rfl, List.nodup_nil⟩
  cases v with
  | slurm =>
      have hslurm : BssSlurm.parsePartitions output = .ok result := h
      rw [BssSlurm.parsePartitions] at hslurm
      cases hadd : BssSlurm.addPartitions (BssSlurm.splitAll '\n' output) [] with
      | error e =>
          rw [hadd] at hslurm
          cases hslurm
      | ok fields =>
          rw [hadd] at hslurm
          obtain rfl := Except.ok.inj hslurm
          have hempty : (([] : List (Str × Json)).map Prod.fst).Nodup := List.nodup_nil
          exact ⟨fields, rfl, nodup_addPartitions hempty hadd⟩
  | _ =>
      obtain rfl := Except.ok.inj h
      exact hnone

/-! ## The replies -/

/-- The line is printable, and a reader of JSON gets the dictionary from it. -/
structure ReadsBack (result : Json) (line : Str) : Prop where
  printable : Printable line
  read : JsonText.read line = some (toValue result)
  dict : IsDict result

/-- A function that runs a command and replies with what `parse` makes of its output.  It replies after one
command; if that has failed the reply is a failure, and otherwise one line that reads back as the dictionary. -/
def RepliesJson (parse : Str → Except PyExc Json) (x : Handler Unit) : Prop :=
  ∀ r s s', x r s = (.done (), s') → ∃ args code raw output,
    s'.commands = s.commands ++ [args] ∧ r.host.checkOutput s.tick args = .ok (code, raw) ∧ decode raw = .ok output ∧
      ((code ≠ 0 ∧ ∃ text, s'.calls = s.calls ++ [.failed (some text)]) ∨
        code = 0 ∧ ∃ result line, parse output = .ok result ∧ s'.calls = s.calls ++ [.ok (some (line ++ "\n".toList))] ∧
          ReadsBack result line)

/-- The reply to the result of a command. -/
def replyJson (parse : Str → Except PyExc Json) (result : Bool × Str) : Handler Unit :=
  if result.1 then do
    let parsed ← ofExcept (parse result.2)
    ok (some (jsonDumps parsed ++ "\n".toList))
  else failed (some result.2)

theorem replyJson_idle (parse : Str → Except PyExc Json) (result : Bool × Str) : Within Idle (replyJson parse result) := by
  unfold replyJson
  split
  · exact within_bind (within_ofExcept _) fun _ => send_idle _
  · exact send_idle _

theorem repliesJson_run {parse : Str → Except PyExc Json}
    (hdict : ∀ output result, parse output = .ok result → IsDict result) (cmd : Str) :
    RepliesJson parse (runCommand cmd false false true >>= replyJson parse) := by
  intro r s s' h
  obtain ⟨result, s₁, hrun, h⟩ := bind_eq_done.mp h
  obtain ⟨code, raw, output, hcheck, hdecode, rfl, rfl⟩ := runCommand_returns hrun
  -- no other command is started for the reply
  have hidle : Idle (ran (shellArgs cmd true) s) s' := by
    have hreply := replyJson_idle parse (commandResult cmd code output) r (ran (shellArgs cmd true) s)
    rwa [h] at hreply
  refine ⟨shellArgs cmd true, code, raw, output, hidle, hcheck, hdecode, ?_⟩
  unfold commandResult at h
  by_cases hcode : code = 0
  · rw [if_pos hcode] at h
    obtain ⟨result, s₂, hparse, h⟩ := bind_eq_done.mp h
    obtain ⟨hparsed, rfl⟩ := ofExcept_eq_done.mp hparse
    refine Or.inr ⟨hcode, result, jsonDumps result, hparsed, (send_done h).2, ?_⟩
    exact ⟨printable_jsonDumps result, read_jsonDumps result, hdict _ _ hparsed⟩
  · rw [if_neg hcode] at h
    exact Or.inl ⟨hcode, _, (send_done h).2⟩

theorem getJobDetails_eq (hooks : BssHooks) (msg : Str) (config : Settings) :
    getJobDetails hooks msg config = (do
      let detailsCmd ← ofExcept (configured "tsi.details_cmd" config.detailsCmd)
      let cmd ← ofExcept (concat (detailsCmd ++ " ".toList) (extractParameter msg "BSSID".toList))
      runCommand cmd false false true >>= replyJson hooks.parseJobDetails) := rfl

theorem getPartitions_eq (hooks : BssHooks) (msg : Str) (config : Settings) :
    getPartitions hooks msg config =
      runCommand config.getPartitionsCmd false false true >>= replyJson hooks.parsePartitions := rfl

theorem repliesJson_getJobDetails (v : Variant) (msg : Str) (config : Settings) :
    RepliesJson v.hooks.parseJobDetails (getJobDetails v.hooks msg config) := by
  intro r s s' h
  rw [getJobDetails_eq] at h
  obtain ⟨detailsCmd, s₁, hconfigured, hrest⟩ := bind_eq_done.mp h
  obtain ⟨cmd, s₂, hconcat, hrun⟩ := bind_eq_done.mp hrest
  obtain rfl := (ofExcept_eq_done.mp hconfigured).2
  obtain rfl := (ofExcept_eq_done.mp hconcat).2
  exact repliesJson_run (fun _ _ => v.details_isDict) cmd r _ s' hrun

end UnicoreTsi.BssCommon
