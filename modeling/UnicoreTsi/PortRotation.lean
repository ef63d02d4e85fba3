/-
# UnicoreTsi.PortRotation — the local ports of the connections to UNICORE/X.

`setup_portrange` turns the setting `lower:upper` into the triple of the next port and the two ends of the range,
and `open_connection` goes on from the next port until an attempt is not refused because the port is in use.  The
ports it goes through are the range, rotated so that it begins with the next port (`iterate_after`), and
`open_connection_rotates` says what follows for any sequence of calls.
-/
import UnicoreTsi.Serving
import Mathlib.Data.List.Iterate
import Mathlib.Data.List.Rotate

set_option autoImplicit false

namespace UnicoreTsi.Server

open UnicoreTsi.Text UnicoreTsi.Effects UnicoreTsi.Utils

/-! ## The setting -/

def invalidPortrange : PyExc :=
  { kind := .exception, text := "Invalid 'tsi.local_portrange' specified, must be 'lower:upper'".toList }

/-- The two numbers of the setting. -/
def parsePortrange (rangespec : Str) : Except PyExc PortRange :=
  match (strip rangespec).splitOn ':' with
  | [lower, upper] => do
      let lower ← pyInt 10 lower
      let upper ← pyInt 10 upper
      if upper ≤ lower then .error invalidPortrange
      else .ok { next := lower, lower := lower, upper := upper }
  | _ => .error invalidPortrange

/-- The triple that replaces the setting; whatever is wrong with it, the exception is the same. -/
def setupPortrange (rangespec : Option Str) : Except PyExc PortRange :=
  match rangespec with
  | none => .ok { next := 0, lower := -1, upper := -1 }
  | some spec =>
      match parsePortrange spec with
      | .ok range => .ok range
      | .error _ => .error invalidPortrange

example : setupPortrange (some "50000:52000".toList) = .ok ⟨50000, 50000, 52000⟩ := by decide +kernel

/-- A range of ports that is in use, with the next port in it. -/
structure PortRange.Valid (range : PortRange) : Prop where
  positive : 0 < range.lower
  lower_lt : range.lower < range.upper
  lower_le_next : range.lower ≤ range.next
  next_le : range.next ≤ range.upper

theorem parsePortrange_ok {spec : Str} {range : PortRange} (h : parsePortrange spec = .ok range) :
    range.next = range.lower ∧ range.lower < range.upper := by
  unfold parsePortrange at h
  split at h
  · cases hlower : pyInt 10 _ with
    | error e => rw [hlower] at h; cases h
    | ok lower =>
        rw [hlower] at h
        cases hupper : pyInt 10 _ with
        | error e => rw [hupper] at h; cases h
        | ok upper =>
            rw [hupper] at h
            change (if upper ≤ lower then _ else _) = _ at h
            split at h
            · cases h
            · rename_i hlt
              cases h
              exact ⟨rfl, Int.not_le.mp hlt⟩
  · cases h

theorem setupPortrange_valid {rangespec : Option Str} {range : PortRange} (h : setupPortrange rangespec = .ok range)
    (hpositive : 0 < range.lower) : range.Valid := by
  cases rangespec with
  | none =>
      cases h
      exact absurd hpositive (by decide)
  | some spec =>
      have hspec : parsePortrange spec = .ok range := by
        cases hparsed : parsePortrange spec with
        | error e => simp [setupPortrange, hparsed] at h
        | ok parsed => simpa [setupPortrange, hparsed] using h
      obtain ⟨hnext, hlt⟩ := parsePortrange_ok hspec
      exact ⟨hpositive, hlt, hnext.ge, hnext.le.trans hlt.le⟩

/-! ## The range as a cycle -/

namespace PortRange

/-- How many ports there are. -/
def size (range : PortRange) : ℕ := (range.upper - range.lower + 1).toNat

/-- The ports of the range, in order. -/
def ports (range : PortRange) : List Int := (List.range range.size).map fun i : ℕ => range.lower + (i : Int)

/-- The ports of the range in the order in which they are tried: from the next one up, then from the lower end. -/
def cyclic (range : PortRange) : List Int := range.ports.rotate (range.next - range.lower).toNat

variable {range : PortRange}

theorem mem_ports {port : Int} : port ∈ range.ports ↔ range.lower ≤ port ∧ port ≤ range.upper := by
  simp only [ports, List.mem_map, List.mem_range, size]
  constructor
  · rintro ⟨i, hi, rfl⟩
    omega
  · rintro ⟨hlower, hupper⟩
    exact ⟨(port - range.lower).toNat, by omega, by omega⟩

theorem ports_length : range.ports.length = range.size := by rw [ports, List.length_map, List.length_range]

theorem ports_nodup : range.ports.Nodup := by
  refine List.Nodup.map (fun i j hij => ?_) List.nodup_range
  omega

theorem getElem_ports {i : ℕ} (h : i < range.ports.length) : range.ports[i] = range.lower + (i : Int) := by
  simp [ports]

theorem mem_cyclic {port : Int} : port ∈ range.cyclic ↔ range.lower ≤ port ∧ port ≤ range.upper :=
  List.mem_rotate.trans mem_ports

theorem cyclic_nodup : range.cyclic.Nodup := List.nodup_rotate.mpr ports_nodup

theorem cyclic_length : range.cyclic.length = range.size := (List.length_rotate _ _).trans ports_length

/-- One port further is one further modulo the size. -/
theorem after_add {i : ℕ} (hi : i < range.size) :
    range.after (range.lower + (i : Int)) = range.lower + (((i + 1) % range.size : ℕ) : Int) := by
  have hsize : (range.size : Int) = range.upper - range.lower + 1 := by
    unfold size at hi ⊢
    omega
  unfold after
  split
  · -- `i` is the last port of the range
    have hlast : i + 1 = range.size := by omega
    rw [hlast, Nat.mod_self]
    simp
  · rw [Nat.mod_eq_of_lt (by omega)]
    omega

theorem iterate_after_add {i : ℕ} (hi : i < range.size) (k : ℕ) :
    range.after^[k] (range.lower + (i : Int)) = range.lower + (((k + i) % range.size : ℕ) : Int) := by
  induction k with
  | zero => rw [Function.iterate_zero_apply, Nat.zero_add, Nat.mod_eq_of_lt hi]
  | succ k ih =>
      have hpos : 0 < range.size := Nat.zero_lt_of_lt hi
      rw [Function.iterate_succ_apply', ih, after_add (Nat.mod_lt _ hpos), Nat.mod_add_mod, Nat.add_right_comm]

theorem Valid.next_eq (h : range.Valid) : range.next = range.lower + ((range.next - range.lower).toNat : Int) := by
  have := h.lower_le_next
  omega

theorem Valid.offset_lt (h : range.Valid) : (range.next - range.lower).toNat < range.size := by
  have hnext := h.next_le
  have hlower := h.lower_le_next
  unfold size
  omega

theorem Valid.used (h : range.Valid) : range.used = true :=
  decide_eq_true (lt_of_lt_of_le h.positive h.lower_le_next)

theorem Valid.maxAttempts (h : range.Valid) : range.maxAttempts = range.size := by
  rw [PortRange.maxAttempts, if_pos h.used, size]

/-- The ports gone through from the next one on are the range, rotated. -/
theorem Valid.iterate_after (h : range.Valid) : List.iterate range.after range.next range.size = range.cyclic := by
  refine List.ext_getElem ?_ fun k hk _ => ?_
  · rw [List.length_iterate, cyclic_length]
  · rw [List.getElem_iterate, h.next_eq, iterate_after_add h.offset_lt k]
    simp only [cyclic, List.getElem_rotate, getElem_ports, ports_length]

theorem Valid.after_mem (h : range.Valid) {port : Int} (hlower : range.lower ≤ port) :
    range.lower ≤ range.after port ∧ range.after port ≤ range.upper := by
  have hlt := h.lower_lt
  unfold after
  split <;> omega

end PortRange

/-! ## One call -/

/-- An attempt that finds the port in use. -/
def portInUse (answer : Option PyExc) : Bool :=
  match answer with
  | none => false
  | some e => e.isOSError && decide (e.errno = eaddrinuse)

/-- What the attempts from number `k` on are answered, one for each port. -/
def answers (c : Connection) : ℕ → List Int → List (Option PyExc)
  | _, [] => []
  | k, port :: ports => c.createConnection k port :: answers c (k + 1) ports

/-- The first answer other than that the port is in use. -/
def firstAnswer (outcomes : List (Option PyExc)) : Option (Option PyExc) := outcomes.find? fun a => !portInUse a

def verdict (range : PortRange) (outcomes : List (Option PyExc)) : Outcome PyExc Unit :=
  match firstAnswer outcomes with
  | none => .raised (noFreePorts range)
  | some none => .done ()
  | some (some e) => .raised e

/-- The ports for which an attempt is made. -/
def triedPorts (ports : List Int) (outcomes : List (Option PyExc)) : List Int :=
  ports.take ((outcomes.takeWhile portInUse).length + 1)

section Run

variable {range : PortRange} {c : Connection} {s : ServerState}

theorem firstAnswer_cons_inUse {a : Option PyExc} (ha : portInUse a = true) (rest : List (Option PyExc)) :
    firstAnswer (a :: rest) = firstAnswer rest := List.find?_cons_of_neg (by simp [ha])

theorem firstAnswer_cons_other {a : Option PyExc} (ha : portInUse a = false) (rest : List (Option PyExc)) :
    firstAnswer (a :: rest) = some a := List.find?_cons_of_pos (by simp [ha])

theorem firstAnswer_eq_none {outcomes : List (Option PyExc)} :
    firstAnswer outcomes = none ↔ ∀ a ∈ outcomes, portInUse a = true := by
  simp [firstAnswer]

theorem inUse_iff (hused : range.used = true) (a : Option PyExc) : InUse range a ↔ portInUse a = true := by
  cases a with
  | none => simp [InUse, portInUse]
  | some e => simp [InUse, portInUse, hused]

theorem triedPorts_cons_inUse {a : Option PyExc} (ha : portInUse a = true) (port : Int) (ports : List Int)
    (rest : List (Option PyExc)) : triedPorts (port :: ports) (a :: rest) = port :: triedPorts ports rest := by
  rw [triedPorts, List.takeWhile_cons_of_pos ha, List.length_cons, List.take_succ_cons]
  rfl

theorem triedPorts_cons_other {a : Option PyExc} (ha : portInUse a = false) (port : Int) (ports : List Int)
    (rest : List (Option PyExc)) : triedPorts (port :: ports) (a :: rest) = [port] := by
  rw [triedPorts, List.takeWhile_cons_of_neg (by simp [ha])]
  rfl

/-- What a loop over these ports does. -/
structure Tries (range : PortRange) (c : Connection) (ports : List Int) (s : ServerState) (o : Outcome PyExc Unit)
    (s' : ServerState) : Prop where
  outcome : o = verdict range (answers c s.attempts ports)
  acts : s'.acts = s.acts ++ (triedPorts ports (answers c s.attempts ports)).map .callback
  stored : o = .done () → ∃ port, (triedPorts ports (answers c s.attempts ports)).getLast? = some port ∧
    s'.config.portRange = { range with next := range.after port }
  kept : ∀ e, o = .raised e → s'.config = s.config

theorem tryPorts_tries (hused : range.used = true) (n : ℕ) (port : Int) (s : ServerState) :
    Tries range c (List.iterate range.after port n) s (tryPorts range n port c s).1 (tryPorts range n port c s).2 := by
  induction n generalizing port s with
  | zero =>
      refine ⟨rfl, ?_, fun h => ?_, fun _ _ => rfl⟩
      · exact (List.append_nil s.acts).symm
      · cases h
  | succ n ih =>
      rw [List.iterate]
      by_cases hbusy : InUse range (c.createConnection s.attempts port)
      · have hfirst := (inUse_iff hused _).mp hbusy
        rw [tryPorts_inUse hbusy]
        -- the rest of the loop begins one attempt later, with the next port
        have hrest := ih (range.after port) (afterAttempt port s)
        have htried : triedPorts (port :: List.iterate range.after (range.after port) n)
            (answers c s.attempts (port :: List.iterate range.after (range.after port) n)) =
              port :: triedPorts (List.iterate range.after (range.after port) n)
                (answers c (s.attempts + 1) (List.iterate range.after (range.after port) n)) :=
          triedPorts_cons_inUse hfirst _ _ _
        refine ⟨?_, ?_, fun h => ?_, hrest.kept⟩
        · rw [hrest.outcome, verdict, verdict, answers, firstAnswer_cons_inUse hfirst]
          rfl
        · rw [hrest.acts, htried, List.map_cons, afterAttempt, List.append_assoc, List.singleton_append]
        · obtain ⟨stored, hlast, hrange⟩ := hrest.stored h
          have hlast' : (triedPorts (List.iterate range.after (range.after port) n)
              (answers c (s.attempts + 1) (List.iterate range.after (range.after port) n))).getLast? = some stored := hlast
          refine ⟨stored, ?_, hrange⟩
          rw [htried, List.getLast?_cons, hlast']
          rfl
      · have hfirst : portInUse (c.createConnection s.attempts port) = false :=
          Bool.eq_false_iff.mpr fun h => hbusy ((inUse_iff hused _).mpr h)
        have htried : triedPorts (port :: List.iterate range.after (range.after port) n)
            (answers c s.attempts (port :: List.iterate range.after (range.after port) n)) = [port] :=
          triedPorts_cons_other hfirst _ _ _
        cases hanswer : c.createConnection s.attempts port with
        | none =>
            rw [tryPorts_connected hanswer, if_pos hused]
            refine ⟨?_, ?_, fun _ => ⟨port, ?_, rfl⟩, fun e he => ?_⟩
            · rw [verdict, answers, firstAnswer_cons_other hfirst, hanswer]
            · rw [htried]
              rfl
            · rw [htried]
              rfl
            · cases he
        | some e =>
            rw [tryPorts_failed hanswer (hanswer ▸ hbusy)]
            refine ⟨?_, ?_, fun h => ?_, fun _ _ => rfl⟩
            · rw [verdict, answers, firstAnswer_cons_other hfirst, hanswer]
            · rw [htried]
              rfl
            · cases h

theorem openConnection_tries (h : s.config.portRange.Valid) :
    Tries s.config.portRange c s.config.portRange.cyclic s (openConnection c s).1 (openConnection c s).2 := by
  have htries := tryPorts_tries (c := c) h.used s.config.portRange.size s.config.portRange.next s
  rw [h.iterate_after] at htries
  unfold openConnection
  rw [bind_run_done get_run, h.maxAttempts]
  exact htries

end Run

/-! ## Sequences of calls -/

/-- A call of `open_connection`, with the state before and after it. -/
structure OpenCall where
  connection : Connection
  before : ServerState
  outcome : Outcome PyExc Unit
  after : ServerState

namespace OpenCall

/-- What the attempts of a call are answered if it goes through the whole range. -/
def answers (call : OpenCall) : List (Option PyExc) :=
  Server.answers call.connection call.before.attempts call.before.config.portRange.cyclic

/-- The next port stored before and after the call is one of the range, and the range is kept. -/
def InRange (range : PortRange) (s : ServerState) : Prop :=
  s.config.portRange.lower = range.lower ∧ s.config.portRange.upper = range.upper ∧
    range.lower ≤ s.config.portRange.next ∧ s.config.portRange.next ≤ range.upper

/-- What is expected of a call, for a range of ports. -/
structure Rotates (range : PortRange) (call : OpenCall) : Prop where
  before : InRange range call.before
  after : InRange range call.after
  tries : ∃ tried : List Int, call.after.acts = call.before.acts ++ tried.map .callback ∧
    (∀ port ∈ tried, range.lower ≤ port ∧ port ≤ range.upper) ∧ tried.Nodup ∧
      (tried.length : Int) ≤ range.upper - range.lower + 1 ∧
        (call.outcome = .done () → ∃ port, tried.getLast? = some port ∧
          call.after.config.portRange.next = range.after port)
  returns : call.outcome = .done () ↔ firstAnswer call.answers = some none
  raises : ∀ e, e.isOSError = true → (call.outcome = .raised e ↔ firstAnswer call.answers = some (some e))
  exhausted : call.outcome = .raised (noFreePorts range) ↔ ∀ answer ∈ call.answers, portInUse answer = true
  keeps : ∀ e, call.outcome = .raised e → call.after.config.portRange = call.before.config.portRange

end OpenCall

/-- The calls of `open_connection` that follow one another, whatever comes of them. -/
def openCalls : List Connection → ServerState → List OpenCall
  | [], _ => []
  | c :: cs, s =>
      let (outcome, after) := openConnection c s
      ⟨c, s, outcome, after⟩ :: openCalls cs after

/-- An attempt that fails raises an `OSError`. -/
def FailsWithOSErrors (c : Connection) : Prop := ∀ k port e, c.createConnection k port = some e → e.isOSError = true

theorem mem_answers {c : Connection} {a : Option PyExc} {k : ℕ} {ports : List Int} (h : a ∈ answers c k ports) :
    ∃ k port, a = c.createConnection k port := by
  induction ports generalizing k with
  | nil => cases h
  | cons port ports ih =>
      cases h with
      | head => exact ⟨k, port, rfl⟩
      | tail _ h => exact ih h

section Calls

variable {range : PortRange} {c : Connection} {s : ServerState}

theorem OpenCall.InRange.valid (hs : OpenCall.InRange range s) (hrange : range.Valid) : s.config.portRange.Valid := by
  obtain ⟨hlower, hupper, hmin, hmax⟩ := hs
  exact ⟨hlower ▸ hrange.positive, by rw [hlower, hupper]; exact hrange.lower_lt, hlower.symm ▸ hmin, hupper.symm ▸ hmax⟩

theorem verdict_ne_hung {outcomes : List (Option PyExc)} : verdict range outcomes ≠ .hung := by
  unfold verdict
  split <;> simp

theorem verdict_eq_done {outcomes : List (Option PyExc)} :
    verdict range outcomes = .done () ↔ firstAnswer outcomes = some none := by
  unfold verdict
  split <;> simp_all

theorem verdict_eq_raised {outcomes : List (Option PyExc)} {e : PyExc} (he : e.isOSError = true) :
    verdict range outcomes = .raised e ↔ firstAnswer outcomes = some (some e) := by
  have hother : noFreePorts range ≠ e := by
    intro heq
    rw [← heq] at he
    cases he
  unfold verdict
  split <;> simp_all

/-- Nothing but OSErrors comes of the attempts, so that the exception for a full range is told from them. -/
theorem verdict_exhausted {outcomes : List (Option PyExc)} (h : ∀ e, some e ∈ outcomes → e.isOSError = true) :
    verdict range outcomes = .raised (noFreePorts range) ↔ ∀ a ∈ outcomes, portInUse a = true := by
  rw [← firstAnswer_eq_none]
  unfold verdict
  cases hfirst : firstAnswer outcomes with
  | none => exact iff_of_true rfl rfl
  | some a =>
      cases a with
      | none => exact iff_of_false nofun nofun
      | some e =>
          refine iff_of_false (fun heq => ?_) nofun
          have hos := h e (List.mem_of_find?_eq_some hfirst)
          cases heq
          cases hos

theorem openConnection_rotates (hrange : range.Valid) (hs : OpenCall.InRange range s) (hc : FailsWithOSErrors c) :
    OpenCall.Rotates range ⟨c, s, (openConnection c s).1, (openConnection c s).2⟩ := by
  have hvalid := hs.valid hrange
  have htries := openConnection_tries (c := c) hvalid
  have hlower : s.config.portRange.lower = range.lower := hs.1
  have hupper : s.config.portRange.upper = range.upper := hs.2.1
  have hexception : noFreePorts s.config.portRange = noFreePorts range := by rw [noFreePorts, hlower, hupper, noFreePorts]
  have hnext : ∀ port, s.config.portRange.after port = range.after port := by
    intro port
    rw [PortRange.after, hlower, hupper, PortRange.after]
  have hsub : (triedPorts s.config.portRange.cyclic (answers c s.attempts s.config.portRange.cyclic)).Sublist
      s.config.portRange.cyclic := List.take_sublist _ _
  have htried : ∀ port ∈ triedPorts s.config.portRange.cyclic (answers c s.attempts s.config.portRange.cyclic),
      range.lower ≤ port ∧ port ≤ range.upper := by
    intro port hport
    have hmem := PortRange.mem_cyclic.mp (hsub.subset hport)
    rwa [hlower, hupper] at hmem
  have hos : ∀ e, some e ∈ answers c s.attempts s.config.portRange.cyclic → e.isOSError = true := by
    intro e he
    obtain ⟨k, port, hanswer⟩ := mem_answers he
    exact hc k port e hanswer.symm
  refine ⟨hs, ?_, ⟨_, htries.acts, htried, hsub.nodup PortRange.cyclic_nodup, ?_, ?_⟩, ?_, ?_, ?_, ?_⟩
  · -- the port stored after a call is the one after the port of the connection, or the one stored before
    cases hend : (openConnection c s).1 with
    | done =>
        obtain ⟨port, hlast, hstored⟩ := htries.stored hend
        have hport := (htried port (List.mem_of_getLast? hlast)).1
        have hafter := hrange.after_mem hport
        refine ⟨?_, ?_, ?_⟩
        · exact (congrArg PortRange.lower hstored).trans hlower
        · exact (congrArg PortRange.upper hstored).trans hupper
        · dsimp only
          rw [hstored, hnext]
          exact hafter
    | raised e =>
        have hkept := htries.kept e hend
        unfold OpenCall.InRange
        rw [hkept]
        exact hs
    | hung => exact absurd (htries.outcome.symm.trans hend) verdict_ne_hung
  · have hlength := hsub.length_le
    rw [PortRange.cyclic_length, PortRange.size, hlower, hupper] at hlength
    have := hrange.lower_lt
    omega
  · intro hdone
    obtain ⟨port, hlast, hstored⟩ := htries.stored hdone
    exact ⟨port, hlast, (congrArg PortRange.next hstored).trans (hnext port)⟩
  · rw [htries.outcome]
    exact verdict_eq_done
  · intro e he
    rw [htries.outcome]
    exact verdict_eq_raised he
  · rw [htries.outcome, ← hexception]
    exact verdict_exhausted hos
  · intro e he
    exact congrArg ServerConfig.portRange (htries.kept e he)

theorem openCalls_rotates (hrange : range.Valid) (cs : List Connection) (hcs : ∀ c ∈ cs, FailsWithOSErrors c)
    (hs : OpenCall.InRange range s) : ∀ call ∈ openCalls cs s, OpenCall.Rotates range call := by
  induction cs generalizing s with
  | nil =>
      intro call hcall
      cases hcall
  | cons c cs ih =>
      have hfirst := openConnection_rotates hrange hs (hcs c List.mem_cons_self)
      intro call hcall
      rcases List.mem_cons.mp hcall with rfl | hcall
      · exact hfirst
      · exact ih (fun c hc => hcs c (List.mem_cons_of_mem _ hc)) hfirst.after call hcall

/-- **Local port rotation.**  For a range that `setup_portrange` has accepted and any sequence of calls, the stored
port stays in the range, and each call goes through the range from there on, at most once, until an attempt is
answered otherwise than that the port is in use. -/
theorem open_connection_rotates {rangespec : Option Str} (hsetup : setupPortrange rangespec = .ok range)
    (hpositive : 0 < range.lower) (hs : s.config.portRange = range) {cs : List Connection}
    (hcs : ∀ c ∈ cs, FailsWithOSErrors c) : ∀ call ∈ openCalls cs s, OpenCall.Rotates range call := by
  have hrange := setupPortrange_valid hsetup hpositive
  refine openCalls_rotates hrange cs hcs ?_
  rw [OpenCall.InRange, hs]
  exact ⟨rfl, rfl, hrange.lower_le_next, hrange.next_le⟩

end Calls

/-- The first port is in use, and the second one is free. -/
def busyPeer : Connection :=
  { peer "127.0.0.1".toList [] with
    createConnection := fun _ port =>
      if port = 24000 then some { kind := .osError, errno := eaddrinuse, text := "Address already in use".toList }
      else none }

theorem open_connection_rotates_busyPeer :
    (openCalls [busyPeer, busyPeer] (listening localServer)).length = 2 ∧
      ∀ call ∈ openCalls [busyPeer, busyPeer] (listening localServer),
        OpenCall.Rotates ⟨24000, 24000, 24001⟩ call := by
  have hsetup : setupPortrange (some "24000:24001".toList) = .ok ⟨24000, 24000, 24001⟩ := by decide +kernel
  refine ⟨rfl, open_connection_rotates hsetup (by decide) rfl ?_⟩
  have hfails : FailsWithOSErrors busyPeer := by
    intro k port e he
    change (if port = 24000 then _ else _) = some e at he
    split at he
    · cases he
      rfl
    · cases he
  intro c hc
  rw [List.mem_cons, List.mem_singleton, or_self] at hc
  exact hc ▸ hfails

end UnicoreTsi.Server
