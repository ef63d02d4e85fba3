/-
# UnicoreTsi.Lib.Json — reading JSON texts.

`read` is a reader of JSON: a lexer, which goes through the text character by character (`lex`), and a parser, which
goes through the tokens with a stack of the objects and arrays that are open (`next`).  The numbers it knows are the
integers.  A string is a sequence of UTF-16 units, written as they are or escaped; a text is made of them in the end
(`ofUtf16`), since the two halves of a character beyond the basic plane may be escaped one by one.

A writer is proved right against this reader in two steps: its output has the tokens of the value (`Scans`), and
the tokens of a value are read as that value (`foldlM_tokens`).
-/
import UnicoreTsi.Lib.Decimal
import UnicoreTsi.Lib.Words

set_option autoImplicit false

namespace UnicoreTsi.JsonText

open UnicoreTsi.Words

/-! ## Values -/

inductive Value where
  | null
  | bool (b : Bool)
  | int (n : Int)
  | str (s : List Char)
  | arr (elements : List Value)
  | obj (members : List (List Char × Value))

/-! ## UTF-16 -/

/-- The UTF-16 units of a character. -/
def utf16 (c : Char) : List Nat :=
  if c.toNat < 0x10000 then [c.toNat]
  else [0xd800 + (c.toNat - 0x10000) / 0x400, 0xdc00 + (c.toNat - 0x10000) % 0x400]

/-- The text made of UTF-16 units; there is none if a surrogate has not got its other half. -/
def ofUtf16 : List Nat → Option (List Char)
  | [] => some []
  | [u] => if u < 0xd800 ∨ 0xdfff < u then some [Char.ofNat u] else none
  | u :: v :: us =>
      if u < 0xd800 ∨ 0xdfff < u then (ofUtf16 (v :: us)).map (Char.ofNat u :: ·)
      else if u < 0xdc00 ∧ 0xdc00 ≤ v ∧ v ≤ 0xdfff then
        (ofUtf16 us).map (Char.ofNat (0x10000 + (u - 0xd800) * 0x400 + (v - 0xdc00)) :: ·)
      else none

theorem toNat_range (c : Char) : c.toNat < 0xd800 ∨ 0xdfff < c.toNat ∧ c.toNat < 0x110000 := c.valid

theorem ofUtf16_cons {u : Nat} (h : u < 0xd800 ∨ 0xdfff < u) (us : List Nat) :
    ofUtf16 (u :: us) = (ofUtf16 us).map (Char.ofNat u :: ·) := by
  cases us with
  | nil => simp [ofUtf16, h]
  | cons v us => rw [ofUtf16, if_pos h]

theorem ofUtf16_utf16 (c : Char) (us : List Nat) : ofUtf16 (utf16 c ++ us) = (ofUtf16 us).map (c :: ·) := by
  have hrange := toNat_range c
  unfold utf16
  split
  · rw [List.singleton_append, ofUtf16_cons (by omega), Char.ofNat_toNat]
  · rename_i hlarge
    -- the two halves of a character beyond the basic plane
    have hnumber : 0x10000 + (0xd800 + (c.toNat - 0x10000) / 0x400 - 0xd800) * 0x400 +
        (0xdc00 + (c.toNat - 0x10000) % 0x400 - 0xdc00) = c.toNat := by omega
    rw [List.cons_append, List.singleton_append, ofUtf16, if_neg (by omega), if_pos (by omega), hnumber,
      Char.ofNat_toNat]

theorem ofUtf16_flatMap (s : List Char) : ofUtf16 (s.flatMap utf16) = some s := by
  induction s with
  | nil => rfl
  | cons c s ih => rw [List.flatMap_cons, ofUtf16_utf16, ih, Option.map_some]

/-! ## Lexing -/

inductive Token where
  | openBrace | closeBrace | openBracket | closeBracket | colon | comma
  | str (s : List Char)
  | int (n : Int)
  | bool (b : Bool)
  | null
  deriving DecidableEq

/-- Where the lexer is, with what it has of a number, a name or a string. -/
inductive Mode where
  | between
  | number (negative : Bool) (digits : List Char)
  | name (text : List Char)
  | string (units : List Nat)
  | escape (units : List Nat)
  | hex (units : List Nat) (digits : List Nat)

def isBlank (c : Char) : Bool := c = ' ' || c = '\t' || c = '\n' || c = '\r'

/-- The value of a hexadecimal digit. -/
def hexValue (c : Char) : Option Nat :=
  if c.isDigit then some (c.toNat - '0'.toNat)
  else if 'a' ≤ c ∧ c ≤ 'f' then some (c.toNat - 'a'.toNat + 10)
  else if 'A' ≤ c ∧ c ≤ 'F' then some (c.toNat - 'A'.toNat + 10)
  else none

/-- A character between two tokens. -/
def between (c : Char) : Option (List Token × Mode) :=
  if isBlank c then some ([], .between)
  else if c = '\x7b' then some ([.openBrace], .between)
  else if c = '\x7d' then some ([.closeBrace], .between)
  else if c = '[' then some ([.openBracket], .between)
  else if c = ']' then some ([.closeBracket], .between)
  else if c = ':' then some ([.colon], .between)
  else if c = ',' then some ([.comma], .between)
  else if c = '"' then some ([], .string [])
  else if c = '-' then some ([], .number true [])
  else if c.isDigit then some ([], .number false [c])
  else if c.isAlpha then some ([], .name [c])
  else none

/-- The number with these digits; a leading zero stands alone. -/
def numberToken (negative : Bool) (digits : List Char) : Option Token :=
  if digits = [] ∨ (digits.head? = some '0' ∧ digits ≠ ['0']) then none
  else some (.int (if negative then -(Decimal.value digits : Int) else Decimal.value digits))

def nameToken (text : List Char) : Option Token :=
  if text = "true".toList then some (.bool true)
  else if text = "false".toList then some (.bool false)
  else if text = "null".toList then some .null
  else none

/-- The unit that a character after a backslash stands for. -/
def escaped (c : Char) : Option Nat :=
  if c = '"' ∨ c = '\\' ∨ c = '/' then some c.toNat
  else if c = 'b' then some 8
  else if c = 'f' then some 12
  else if c = 'n' then some 10
  else if c = 'r' then some 13
  else if c = 't' then some 9
  else none

/-- End a token, and go on with the character behind it. -/
def ended (token : Option Token) (c : Char) : Option (List Token × Mode) :=
  match token with
  | none => none
  | some t => (between c).map fun p => (t :: p.1, p.2)

def step : Mode → Char → Option (List Token × Mode)
  | .between, c => between c
  | .number negative digits, c =>
      if c.isDigit then some ([], .number negative (digits ++ [c])) else ended (numberToken negative digits) c
  | .name text, c => if c.isAlpha then some ([], .name (text ++ [c])) else ended (nameToken text) c
  | .string units, c =>
      if c = '"' then (ofUtf16 units).map fun s => ([.str s], .between)
      else if c = '\\' then some ([], .escape units)
      else if c.toNat < 0x20 then none
      else some ([], .string (units ++ utf16 c))
  | .escape units, c =>
      if c = 'u' then some ([], .hex units [])
      else (escaped c).map fun u => ([], .string (units ++ [u]))
  | .hex units digits, c =>
      (hexValue c).map fun v =>
        if digits.length = 3 then ([], .string (units ++ [(digits ++ [v]).foldl (fun n d => n * 16 + d) 0]))
        else ([], .hex units (digits ++ [v]))

/-- The end of the text. -/
def finish : Mode → Option (List Token)
  | .between => some []
  | .number negative digits => (numberToken negative digits).map ([·])
  | .name text => (nameToken text).map ([·])
  | .string _ | .escape _ | .hex _ _ => none

def lex : Mode → List Char → Option (List Token)
  | m, [] => finish m
  | m, c :: s =>
      match step m c with
      | none => none
      | some (ts, m') => (lex m' s).map (ts ++ ·)

/-! ## Parsing -/

/-- An object or array that is open, with its complete members or elements. -/
inductive Frame where
  | member (done : List (List Char × Value)) (key : List Char)
  | element (done : List Value)

/-- What is to come next, or the value that is complete, inside of the open objects and arrays. -/
inductive State where
  | value (stack : List Frame)
  | valueOrClose (stack : List Frame)
  | key (done : List (List Char × Value)) (stack : List Frame)
  | keyOrClose (stack : List Frame)
  | colon (done : List (List Char × Value)) (key : List Char) (stack : List Frame)
  | complete (v : Value) (stack : List Frame)

/-- The first token of a value. -/
def startValue (stack : List Frame) : Token → Option State
  | .openBrace => some (.keyOrClose stack)
  | .openBracket => some (.valueOrClose stack)
  | .str s => some (.complete (.str s) stack)
  | .int n => some (.complete (.int n) stack)
  | .bool b => some (.complete (.bool b) stack)
  | .null => some (.complete .null stack)
  | .closeBrace | .closeBracket | .colon | .comma => none

def next : State → Token → Option State
  | .value stack, t => startValue stack t
  | .valueOrClose stack, .closeBracket => some (.complete (.arr []) stack)
  | .valueOrClose stack, t => startValue (.element [] :: stack) t
  | .key done stack, .str k => some (.colon done k stack)
  | .keyOrClose stack, .str k => some (.colon [] k stack)
  | .keyOrClose stack, .closeBrace => some (.complete (.obj []) stack)
  | .colon done k stack, .colon => some (.value (.member done k :: stack))
  | .complete v (.member done k :: stack), .comma => some (.key (done ++ [(k, v)]) stack)
  | .complete v (.member done k :: stack), .closeBrace => some (.complete (.obj (done ++ [(k, v)])) stack)
  | .complete v (.element done :: stack), .comma => some (.value (.element (done ++ [v]) :: stack))
  | .complete v (.element done :: stack), .closeBracket => some (.complete (.arr (done ++ [v])) stack)
  | _, _ => none

/-- The value that a text stands for. -/
def read (text : List Char) : Option Value := do
  let tokens ← lex .between text
  match ← tokens.foldlM next (.value []) with
  | .complete v [] => some v
  | _ => none

/-! ## The tokens of a value -/

mutual

def tokens : Value → List Token
  | .null => [.null]
  | .bool b => [.bool b]
  | .int n => [.int n]
  | .str s => [.str s]
  | .arr elements => .openBracket :: (elementTokens elements ++ [.closeBracket])
  | .obj members => .openBrace :: (memberTokens members ++ [.closeBrace])

def elementTokens : List Value → List Token
  | [] => []
  | [v] => tokens v
  | v :: rest => tokens v ++ .comma :: elementTokens rest

def memberTokens : List (List Char × Value) → List Token
  | [] => []
  | [(k, v)] => .str k :: .colon :: tokens v
  | (k, v) :: rest => .str k :: .colon :: (tokens v ++ .comma :: memberTokens rest)

end

/-! ## What the lexer makes of the parts of a text -/

section Lex

variable {m n : Mode} {c : Char} {units : List Nat}

theorem lex_step {ts : List Token} (h : step m c = some (ts, n)) (s : List Char) :
    lex m (c :: s) = (lex n s).map (ts ++ ·) := by
  rw [lex, h]

/-- A character that ends no token. -/
theorem lex_silent (h : step m c = some ([], n)) (s : List Char) : lex m (c :: s) = lex n s := by
  rw [lex_step h]
  show Option.map id _ = _
  rw [Option.map_id, id]

theorem lex_between {t : Token} (h : between c = some ([t], .between)) (s : List Char) :
    lex .between (c :: s) = (lex .between s).map (t :: ·) := lex_step (m := .between) h s

/-- A character of a string that is written as it is. -/
theorem lex_plain (hquote : c ≠ '"') (hslash : c ≠ '\\') (hcontrol : 0x20 ≤ c.toNat) (s : List Char) :
    lex (.string units) (c :: s) = lex (.string (units ++ utf16 c)) s := by
  apply lex_silent
  simp only [step]
  rw [if_neg hquote, if_neg hslash, if_neg (by omega)]

theorem lex_escaped {u : Nat} (hu : escaped c = some u) (s : List Char) :
    lex (.string units) ('\\' :: c :: s) = lex (.string (units ++ [u])) s := by
  have hother : c ≠ 'u' := by
    rintro rfl
    simp [escaped] at hu
  rw [lex_silent (n := .escape units) rfl]
  apply lex_silent
  simp only [step]
  rw [if_neg hother, hu, Option.map_some]

/-- Four hexadecimal digits. -/
theorem lex_unicode {a b c d : Char} {i j k l : Nat} (ha : hexValue a = some i) (hb : hexValue b = some j)
    (hc : hexValue c = some k) (hd : hexValue d = some l) (s : List Char) :
    lex (.string units) ('\\' :: 'u' :: a :: b :: c :: d :: s) =
      lex (.string (units ++ [((i * 16 + j) * 16 + k) * 16 + l])) s := by
  rw [lex_silent (n := .escape units) rfl, lex_silent (n := .hex units []) rfl,
    lex_silent (n := .hex units [i]) (by simp [step, ha]),
    lex_silent (n := .hex units [i, j]) (by simp [step, hb]),
    lex_silent (n := .hex units [i, j, k]) (by simp [step, hc])]
  apply lex_silent
  simp [step, hd]

theorem lex_endString {t : List Char} (h : ofUtf16 units = some t) (s : List Char) :
    lex (.string units) ('"' :: s) = (lex .between s).map (.str t :: ·) := by
  have hstep : step (.string units) '"' = some ([.str t], .between) := by simp [step, h]
  exact lex_step hstep s

/-- A token that ends before the next character, or with the text. -/
theorem lex_ended {t : Token} {s : List Char} (hfinish : finish m = some [t])
    (hstep : ∀ c ∈ s.head?, step m c = ended (some t) c) : lex m s = (lex .between s).map (t :: ·) := by
  cases s with
  | nil => rw [lex, lex, hfinish]; rfl
  | cons c s =>
      rw [lex, hstep c rfl, lex]
      rcases hbetween : between c with _ | ⟨ts, m'⟩
      · simp [ended, step, hbetween]
      · simp [ended, step, hbetween, Function.comp_def]

theorem step_digit (h : c.isDigit = true) : step .between c = some ([], .number false [c]) := by
  have hne : ∀ d : Char, d.isDigit = false → c ≠ d := by
    rintro d hd rfl
    rw [h] at hd
    cases hd
  have hblank : isBlank c = false := by
    simp [isBlank, hne ' ' rfl, hne '\t' rfl, hne '\n' rfl, hne '\r' rfl]
  simp only [step, between]
  rw [if_neg (by rw [hblank]; exact Bool.false_ne_true), if_neg (hne '\x7b' rfl), if_neg (hne '\x7d' rfl),
    if_neg (hne '[' rfl), if_neg (hne ']' rfl), if_neg (hne ':' rfl), if_neg (hne ',' rfl), if_neg (hne '"' rfl),
    if_neg (hne '-' rfl), if_pos h]

theorem lex_digits {negative : Bool} {t : List Char} (ht : ∀ c ∈ t, c.isDigit = true) (digits s : List Char) :
    lex (.number negative digits) (t ++ s) = lex (.number negative (digits ++ t)) s := by
  induction t generalizing digits with
  | nil => simp
  | cons c t ih =>
      obtain ⟨hc, ht⟩ := List.forall_mem_cons.mp ht
      rw [List.cons_append, lex_silent (n := .number negative (digits ++ [c])) (by simp [step, hc]), ih ht,
        List.append_assoc, List.singleton_append]

theorem lex_letters {t : List Char} (ht : ∀ c ∈ t, c.isAlpha = true) (text s : List Char) :
    lex (.name text) (t ++ s) = lex (.name (text ++ t)) s := by
  induction t generalizing text with
  | nil => simp
  | cons c t ih =>
      obtain ⟨hc, ht⟩ := List.forall_mem_cons.mp ht
      rw [List.cons_append, lex_silent (n := .name (text ++ [c])) (by simp [step, hc]), ih ht, List.append_assoc,
        List.singleton_append]

/-- A number up to something that is not a digit. -/
theorem lex_number {negative : Bool} {digits s : List Char} {t : Token} (ht : numberToken negative digits = some t)
    (hs : Stops Char.isDigit s) : lex (.number negative digits) s = (lex .between s).map (t :: ·) := by
  apply lex_ended
  · simp [finish, ht]
  · intro c hc
    simp [step, hs c hc, ht]

theorem lex_name {text s : List Char} {t : Token} (ht : nameToken text = some t) (hs : Stops Char.isAlpha s) :
    lex (.name text) s = (lex .between s).map (t :: ·) := by
  apply lex_ended
  · simp [finish, ht]
  · intro c hc
    simp [step, hs c hc, ht]

end Lex

/-! ## What the parser makes of the tokens of a value -/

/-- The first token of a value is not a closing bracket. -/
theorem next_valueOrClose (v : Value) (stack : List Frame) (ts : List Token) :
    (tokens v ++ ts).foldlM next (.valueOrClose stack) = (tokens v ++ ts).foldlM next (.value (.element [] :: stack)) := by
  cases v with
  | _ =>
      simp only [tokens, List.cons_append, List.foldlM_cons]
      rfl

mutual

theorem foldlM_tokens (v : Value) (stack : List Frame) (ts : List Token) :
    (tokens v ++ ts).foldlM next (.value stack) = ts.foldlM next (.complete v stack) := by
  match v with
  | .null => rfl
  | .bool b => rfl
  | .int n => rfl
  | .str s => rfl
  | .arr [] => rfl
  | .arr (v :: rest) =>
      rw [tokens, List.cons_append, List.append_assoc, List.foldlM_cons]
      show (elementTokens (v :: rest) ++ (Token.closeBracket :: ts)).foldlM next (.valueOrClose stack) = _
      have hfirst : ∃ us, elementTokens (v :: rest) = tokens v ++ us := by
        cases rest with
        | nil => exact ⟨[], by rw [elementTokens, List.append_nil]⟩
        | cons w rest => exact ⟨_, by rw [elementTokens]; nofun⟩
      obtain ⟨us, hus⟩ := hfirst
      rw [hus, List.append_assoc, next_valueOrClose, ← List.append_assoc, ← hus, foldlM_elementTokens v rest]
      rfl
  | .obj [] => rfl
  | .obj ((k, v) :: rest) =>
      rw [tokens, List.cons_append, List.append_assoc, List.foldlM_cons]
      show (memberTokens ((k, v) :: rest) ++ (Token.closeBrace :: ts)).foldlM next (.keyOrClose stack) = _
      have hfirst : ∃ us, memberTokens ((k, v) :: rest) = .str k :: us := by
        cases rest with
        | nil => exact ⟨_, rfl⟩
        | cons p rest => exact ⟨_, by rw [memberTokens]; nofun⟩
      obtain ⟨us, hus⟩ := hfirst
      have hkey : (memberTokens ((k, v) :: rest) ++ (Token.closeBrace :: ts)).foldlM next (.keyOrClose stack) =
          (memberTokens ((k, v) :: rest) ++ (Token.closeBrace :: ts)).foldlM next (.key [] stack) := by
        rw [hus]
        rfl
      rw [hkey, foldlM_memberTokens k v rest]
      rfl
termination_by sizeOf v

/-- The elements of an array, up to its end. -/
theorem foldlM_elementTokens (v : Value) (rest : List Value) (done : List Value) (stack : List Frame)
    (ts : List Token) :
    (elementTokens (v :: rest) ++ (Token.closeBracket :: ts)).foldlM next (.value (.element done :: stack)) =
      ts.foldlM next (.complete (.arr (done ++ v :: rest)) stack) := by
  match rest with
  | [] =>
      rw [elementTokens, foldlM_tokens v]
      rfl
  | w :: rest =>
      rw [elementTokens, List.append_assoc, foldlM_tokens v, List.cons_append, List.foldlM_cons]
      show (elementTokens (w :: rest) ++ (Token.closeBracket :: ts)).foldlM next
        (.value (.element (done ++ [v]) :: stack)) = _
      rw [foldlM_elementTokens w rest, List.append_assoc, List.singleton_append]
      nofun
termination_by 1 + sizeOf v + sizeOf rest

/-- The members of an object, up to its end. -/
theorem foldlM_memberTokens (k : List Char) (v : Value) (rest : List (List Char × Value))
    (done : List (List Char × Value)) (stack : List Frame) (ts : List Token) :
    (memberTokens ((k, v) :: rest) ++ (Token.closeBrace :: ts)).foldlM next (.key done stack) =
      ts.foldlM next (.complete (.obj (done ++ (k, v) :: rest)) stack) := by
  match rest with
  | [] =>
      rw [memberTokens, List.cons_append, List.cons_append, List.foldlM_cons]
      show (tokens v ++ (Token.closeBrace :: ts)).foldlM next (.value (.member done k :: stack)) = _
      rw [foldlM_tokens v]
      rfl
  | (k', v') :: rest =>
      rw [memberTokens, List.cons_append, List.cons_append, List.foldlM_cons]
      show (tokens v ++ .comma :: memberTokens ((k', v') :: rest) ++ (Token.closeBrace :: ts)).foldlM next
        (.value (.member done k :: stack)) = _
      rw [List.append_assoc, foldlM_tokens v, List.cons_append, List.foldlM_cons]
      show (memberTokens ((k', v') :: rest) ++ (Token.closeBrace :: ts)).foldlM next
        (.key (done ++ [(k, v)]) stack) = _
      rw [foldlM_memberTokens k' v' rest, List.append_assoc, List.singleton_append]
      nofun
termination_by 1 + sizeOf v + sizeOf rest

end

/-- A text is read as the value whose tokens it has. -/
theorem read_of_lex {text : List Char} {v : Value} (h : lex .between text = some (tokens v)) : read text = some v := by
  have hparse : (tokens v).foldlM next (.value []) = some (.complete v []) := by
    have := foldlM_tokens v [] []
    rwa [List.append_nil] at this
  simp [read, h, hparse]

end UnicoreTsi.JsonText
