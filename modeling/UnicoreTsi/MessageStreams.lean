/-
# UnicoreTsi.MessageStreams — the two ways in which a worker reads its messages.

A worker that is connected to UNICORE/X reads with `Connector.read_message`, a worker that runs a single request
from its standard input with `StreamConnector.read_message`.  The two loops differ in what ends a message: the
first takes the line `ENDOFMESSAGE` and nothing else, the second every line that is `ENDOFMESSAGE` up to white
space, and the end of the stream.  They read the same if and only if the stream gives them no occasion to differ
(`connectors_agree_iff`).
-/
import UnicoreTsi.Tsi

set_option autoImplicit false

namespace UnicoreTsi.StreamConnector

open UnicoreTsi.Text

/-- The loop of `read_message` over the lines of the stream: the message, and the lines after it. -/
def readLines (termination : Str) : Str → List Str → Str × List Str
  | message, [] => (message, [])
  | message, line :: rest =>
      if line.length = 0 then readLines termination message rest
      else if strip line = termination then (message, rest)
      else readLines termination (message ++ line) rest

def readMessage (termination : Str) (lines : List Str) : Str × List Str := readLines termination [] lines

/-- A line that ends a message. -/
def Ends (termination line : Str) : Prop := line ≠ [] ∧ strip line = termination

variable {termination : Str}

theorem readLines_append {f : List Str} (hf : ∀ line ∈ f, ¬ Ends termination line) (message : Str) (rest : List Str) :
    readLines termination message (f ++ rest) = readLines termination (message ++ f.flatten) rest := by
  induction f generalizing message with
  | nil => simp
  | cons line f ih =>
      obtain ⟨hline, hrest⟩ := List.forall_mem_cons.mp hf
      rw [List.cons_append, readLines]
      by_cases hempty : line = []
      · rw [if_pos (by simp [hempty]), ih hrest, hempty]
        simp
      · have hother : strip line ≠ termination := fun h => hline ⟨hempty, h⟩
        rw [if_neg (by simpa using hempty), if_neg hother, ih hrest]
        simp

theorem readMessage_ends {f : List Str} (hf : ∀ line ∈ f, ¬ Ends termination line) {line : Str}
    (hline : Ends termination line) (rest : List Str) :
    readMessage termination (f ++ line :: rest) = (f.flatten, rest) := by
  rw [readMessage, readLines_append hf, readLines, if_neg (by simpa using hline.1), if_pos hline.2, List.nil_append]

theorem readMessage_rest {f : List Str} (hf : ∀ line ∈ f, ¬ Ends termination line) :
    readMessage termination f = (f.flatten, []) := by
  have h := readLines_append hf [] []
  rw [List.append_nil] at h
  rw [readMessage, h]
  rfl

/-- A call goes past the first line. -/
theorem readMessage_length (line : Str) (lines : List Str) :
    (readMessage termination (line :: lines)).2.length ≤ lines.length := by
  have hle : ∀ (message : Str) (lines : List Str), (readLines termination message lines).2.length ≤ lines.length := by
    intro message lines
    induction lines generalizing message with
    | nil => exact Nat.le_refl _
    | cons line lines ih =>
        rw [readLines]
        split_ifs
        · exact Nat.le_succ_of_le (ih _)
        · exact Nat.le_succ _
        · exact Nat.le_succ_of_le (ih _)
  rw [readMessage, readLines]
  split_ifs
  · exact hle _ _
  · exact Nat.le_refl _
  · exact hle _ _

end UnicoreTsi.StreamConnector

namespace UnicoreTsi.Tsi

open UnicoreTsi.Text UnicoreTsi.Effects UnicoreTsi.Utils UnicoreTsi.Connector

/-! ## Readers -/

/-- How a connector reads a message: what the call returns or raises, and the lines it leaves.  A call takes at
least one line, if there is one. -/
structure Reader where
  read : List Str → Except PyExc Str × List Str
  takes_line : ∀ line lines, (read (line :: lines)).2.length ≤ lines.length

/-- `Connector.read_message` -/
def socketReader : Reader where
  read lines :=
    match readLines [] lines with
    | some (message, rest) => (.ok message, rest)
    | none => (.error socketClosed, [])
  takes_line line lines := by
    rcases h : readLines [] (line :: lines) with _ | ⟨message, rest⟩
    · exact Nat.zero_le _
    · exact Nat.le_of_lt_succ (readLines_length h)

/-- `StreamConnector.read_message`, which raises nothing. -/
def streamReader : Reader where
  read lines := ((.ok (StreamConnector.readMessage endOfMessage lines).1),
    (StreamConnector.readMessage endOfMessage lines).2)
  takes_line := StreamConnector.readMessage_length

/-- What the calls return or raise, one after the other, until the stream is at its end. -/
def deliveries (reader : Reader) : List Str → List (Except PyExc Str)
  | [] => []
  | line :: lines => (reader.read (line :: lines)).1 :: deliveries reader (reader.read (line :: lines)).2
termination_by lines => lines.length
decreasing_by exact Nat.lt_succ_of_le (reader.takes_line line lines)

theorem deliveries_of_ne_nil {reader : Reader} {lines : List Str} (h : lines ≠ []) :
    deliveries reader lines = (reader.read lines).1 :: deliveries reader (reader.read lines).2 := by
  obtain ⟨line, rest, rfl⟩ := List.exists_cons_of_ne_nil h
  rw [deliveries]

/-- The line that ends a message on a socket. -/
def endLine : Str := endOfMessage ++ ['\n']

theorem readLines_cons (message line : Str) (rest : List Str) :
    readLines message (line :: rest) =
      if line = endLine then some (message, rest) else readLines (message ++ line) rest := rfl

theorem socketReader_of_some {lines rest : List Str} {message : Str} (h : readLines [] lines = some (message, rest)) :
    socketReader.read lines = (.ok message, rest) := by
  show (match readLines [] lines with | some (message, rest) => _ | none => _) = _
  rw [h]

theorem socketReader_of_none {lines : List Str} (h : readLines [] lines = none) :
    socketReader.read lines = (.error socketClosed, []) := by
  show (match readLines [] lines with | some (message, rest) => _ | none => _) = _
  rw [h]

theorem socketReader_ends {f : List Str} (hf : endLine ∉ f) (rest : List Str) :
    socketReader.read (f ++ endLine :: rest) = (.ok f.flatten, rest) := by
  have hread : ∀ message, readLines message (f ++ endLine :: rest) = some (message ++ f.flatten, rest) := by
    induction f with
    | nil =>
        intro message
        rw [List.nil_append, readLines_cons, if_pos rfl, List.flatten_nil, List.append_nil]
    | cons line f ih =>
        rw [List.mem_cons, not_or] at hf
        intro message
        rw [List.cons_append, readLines_cons, if_neg (Ne.symm hf.1), ih hf.2, List.flatten_cons, List.append_assoc]
  exact socketReader_of_some (hread [])

theorem socketReader_rest {f : List Str} (hf : endLine ∉ f) : socketReader.read f = (.error socketClosed, []) := by
  have hread : ∀ message, readLines message f = none := by
    induction f with
    | nil => exact fun _ => rfl
    | cons line f ih =>
        rw [List.mem_cons, not_or] at hf
        intro message
        rw [readLines_cons, if_neg (Ne.symm hf.1), ih hf.2]
  exact socketReader_of_none (hread [])

theorem streamReader_of_eq {lines rest : List Str} {message : Str}
    (h : StreamConnector.readMessage endOfMessage lines = (message, rest)) :
    streamReader.read lines = (.ok message, rest) := by
  unfold streamReader
  dsimp only
  rw [h]

/-! ## Reading in the loop of the worker -/

/-- `connector.read_message()` in `process`, with `none` for the end of the connection. -/
def nextMessageOf (reader : Reader) : WorkerM (Option Str) := do
  let w ← get
  modify fun w => { w with controlIn := (reader.read w.controlIn).2 }
  match (reader.read w.controlIn).1 with
  | .ok message => return some message
  | .error e => if e.isOSError then pure none else raise e

section NextMessage

variable {reader : Reader} {w : Worker}

theorem nextMessageOf_ok {message : Str} {rest : List Str} (h : reader.read w.controlIn = (.ok message, rest))
    (r : WorkerCtx) : nextMessageOf reader r w = (.done (some message), { w with controlIn := rest }) := by
  rw [nextMessageOf, bind_run_done get_run, bind_run_done (modify_run _), h]
  rfl

theorem nextMessageOf_closed {rest : List Str} (h : reader.read w.controlIn = (.error socketClosed, rest))
    (r : WorkerCtx) : nextMessageOf reader r w = (.done none, { w with controlIn := rest }) := by
  rw [nextMessageOf, bind_run_done get_run, bind_run_done (modify_run _), h]
  rfl

/-- A call of `read_message` in front of an end mark. -/
theorem readMessage_some {p : Str × List Str} (h : readLines [] w.controlIn = some p) (r : WorkerCtx) :
    readMessage r w = (.done p.1, { w with controlIn := p.2 }) := by
  rw [readMessage, bind_run_done get_run, h]
  rfl

/-- A call of `read_message` when no end mark is to come. -/
theorem readMessage_none (h : readLines [] w.controlIn = none) (r : WorkerCtx) :
    readMessage r w = (.raised socketClosed, { w with controlIn := [] }) := by
  rw [readMessage, bind_run_done get_run, h]
  rfl

/-- The worker that is connected to UNICORE/X reads with the reader for sockets. -/
theorem nextMessage_eq : nextMessage = nextMessageOf socketReader := by
  funext r w
  cases h : readLines [] w.controlIn with
  | none =>
      rw [nextMessage, handle_run_raised (bind_run_raised (readMessage_none h r)),
        nextMessageOf_closed (socketReader_of_none h)]
      rfl
  | some p =>
      rw [nextMessage, handle_run_done (bind_run_done (readMessage_some h r)), nextMessageOf_ok (socketReader_of_some h)]

/-- A request that has been cut off: the worker on a socket stops, the worker on the standard input goes on with
what there is of the request. -/
theorem nextMessageOf_cut_off (h : ∀ line ∈ w.controlIn, ¬ StreamConnector.Ends endOfMessage line) (r : WorkerCtx) :
    nextMessageOf socketReader r w = (.done none, { w with controlIn := [] }) ∧
      nextMessageOf streamReader r w = (.done (some w.controlIn.flatten), { w with controlIn := [] }) := by
  have hend : endLine ∉ w.controlIn := fun hmem => h endLine hmem ⟨by decide, by decide⟩
  exact ⟨nextMessageOf_closed (socketReader_rest hend) r,
    nextMessageOf_ok (streamReader_of_eq (StreamConnector.readMessage_rest h)) r⟩

end NextMessage

/-! ## Where the two readers agree -/

/-- A line that both readers take for the end of a message, or neither. -/
def Clear (line : Str) : Prop := StreamConnector.Ends endOfMessage line → line = endLine

theorem ends_endLine : StreamConnector.Ends endOfMessage endLine := ⟨by decide, by decide⟩

/-- The stream ends with the end of a message. -/
def Complete (lines : List Str) : Prop := lines = [] ∨ lines.getLast? = some endLine

theorem complete_append_endLine {f rest : List Str} : Complete (f ++ endLine :: rest) ↔ Complete rest := by
  unfold Complete
  cases rest with
  | nil => simp
  | cons line rest => simp [List.getLast?_append, List.getLast?_cons_cons]

/-- The first line that ends a message for the reader of a stream. -/
theorem cases_ends (f : List Str) :
    (∀ line ∈ f, ¬ StreamConnector.Ends endOfMessage line) ∨
      ∃ g line h, f = g ++ line :: h ∧ (∀ l ∈ g, ¬ StreamConnector.Ends endOfMessage l) ∧
        StreamConnector.Ends endOfMessage line := by
  induction f with
  | nil => exact Or.inl nofun
  | cons first f ih =>
      by_cases hfirst : StreamConnector.Ends endOfMessage first
      · exact Or.inr ⟨[], first, f, rfl, nofun, hfirst⟩
      · rcases ih with hnone | ⟨g, line, h, rfl, hg, hline⟩
        · exact Or.inl (List.forall_mem_cons.mpr ⟨hfirst, hnone⟩)
        · exact Or.inr ⟨first :: g, line, h, rfl, List.forall_mem_cons.mpr ⟨hfirst, hg⟩, hline⟩

/-- **The two connectors.**  Up to the end of a stream the calls of both deliver the same if and only if no line
only looks like the end of a message and nothing follows the last message.  At the end of the stream the one raises
an exception and the other delivers an empty message. -/
theorem connectors_agree_iff (lines : List Str) :
    (deliveries streamReader lines = deliveries socketReader lines ↔
      (∀ line ∈ lines, Clear line) ∧ Complete lines) ∧
    socketReader.read [] = (.error socketClosed, []) ∧ streamReader.read [] = (.ok [], []) := by
  refine ⟨?_, rfl, rfl⟩
  induction lines using Framing.frameInduction endLine with
  | tail t ht =>
      by_cases hempty : t = []
      · subst hempty
        simp [deliveries, Complete]
      · have hincomplete : ¬ Complete t := by
          rintro (hnil | hlast)
          · exact hempty hnil
          · exact ht (List.mem_of_getLast? hlast)
        rw [deliveries_of_ne_nil hempty, deliveries_of_ne_nil hempty, socketReader_rest ht]
        constructor
        · intro h
          cases List.head_eq_of_cons_eq h
        · exact fun h => absurd h.2 hincomplete
  | frame f rest hf ih =>
      have hne : f ++ endLine :: rest ≠ [] := by simp
      rw [deliveries_of_ne_nil hne, deliveries_of_ne_nil hne, socketReader_ends hf]
      rcases cases_ends f with hnone | ⟨g, line, h, rfl, hg, hline⟩
      · -- The message ends at the same line for both.
        have hclear : (∀ line ∈ f ++ endLine :: rest, Clear line) ↔ ∀ line ∈ rest, Clear line := by
          rw [List.forall_mem_append, List.forall_mem_cons]
          constructor
          · exact fun hall => hall.2.2
          · exact fun hrest => ⟨fun line hmem hends => absurd hends (hnone line hmem), fun _ => rfl, hrest⟩
        rw [streamReader_of_eq (StreamConnector.readMessage_ends hnone ends_endLine rest), hclear, complete_append_endLine, ← ih]
        simp
      · -- The reader of the stream ends the message early.
        have hnot : line ≠ endLine := fun heq => hf (by simp [heq])
        rw [List.append_assoc, List.cons_append, streamReader_of_eq (StreamConnector.readMessage_ends hg hline _)]
        constructor
        · intro heq
          have htext := Except.ok.inj (List.head_eq_of_cons_eq heq)
          rw [List.flatten_append, List.flatten_cons, List.self_eq_append_right, List.append_eq_nil_iff] at htext
          exact absurd htext.1 hline.1
        · intro hall
          exact absurd (hall.1 line (by simp) hline) hnot

/-- A script that has been cut off is delivered by the one and refused by the other. -/
theorem cut_off_delivered :
    ¬ ∀ lines : List Str, deliveries streamReader lines = deliveries socketReader lines := by
  intro h
  have hcut := h ["#TSI_EXECUTESCRIPT\n".toList, "rm -rf /tmp/work".toList]
  rw [deliveries, deliveries] at hcut
  cases List.head_eq_of_cons_eq hcut

end UnicoreTsi.Tsi
