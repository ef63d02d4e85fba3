/-
# UnicoreTsi.Forwarding — what gets through a forwarded connection.

`transfer` hands every buffer it has received to one call of `send` and does not look at how much of it was
accepted, so a direction is passed on intact exactly when every call accepts its whole buffer
(`forwarded_iff`).  The thread whose direction ends first closes both sockets and ends the process, so the
other direction is safe only where it has ended by then (`half_close`).
-/
import UnicoreTsi.Forwarder

set_option autoImplicit false

namespace UnicoreTsi.Forwarding

open UnicoreTsi.Steps

/-! ## What a thread does in one step -/

/-- The steps of `transfer`, each with the state it leads to. -/
inductive Moves (rateLimit : Int) (t : Transfer) : Event → Transfer → Prop where
  | receive {buffer : List UInt8} (hpoint : t.point = .receiving) (hsome : buffer ≠ []) :
      Moves rateLimit t (.received buffer)
        { t with point := .sending buffer, buffers := t.buffers ++ [buffer] }
  | finish (hpoint : t.point = .receiving) : Moves rateLimit t (.received []) (t.leave .endOfStream)
  | failReceiving (hpoint : t.point = .receiving) : Moves rateLimit t .recvFailed (t.leave .failed)
  | send {buffer : List UInt8} {n : Nat} {point : Point} (hpoint : t.point = .sending buffer)
      (hn : n ≤ buffer.length) (hnext : point = .measuring ∨ point = .receiving) :
      Moves rateLimit t (.sent n)
        { t with
          point := point
          sends := t.sends ++ [(buffer, n)]
          total := t.total + buffer.length }
  | failSending {buffer : List UInt8} (hpoint : t.point = .sending buffer) :
      Moves rateLimit t .sendFailed (t.leave .failed)
  | measure {interval : Int} {point : Point} {sleepTime : Int} (hpoint : t.point = .measuring)
      (hnext : point = .dead ∨ point = .receiving ∨ point = .sleeping) :
      Moves rateLimit t (.measured interval) { t with point := point, sleepTime := sleepTime }
  | wake (hpoint : t.point = .sleeping) : Moves rateLimit t .slept { t with point := .receiving }
  | close {closed : Nat} (hpoint : t.point = .closing closed) (hlt : closed < 2) :
      Moves rateLimit t .closed { t with point := .closing (closed + 1) }
  | exit (hpoint : t.point = .closing 2) : Moves rateLimit t .exited t

theorem moves_of_advance {rateLimit : Int} {t t' : Transfer} {e : Event}
    (h : t.advance rateLimit e = some t') : Moves rateLimit t e t' := by
  unfold Transfer.advance at h
  split at h
  · rename_i buffer hpoint
    split at h
    · split at h
      · rename_i hsome
        cases h
        exact .receive hpoint (List.length_pos_iff.mp hsome)
      · rename_i hnone
        have hempty : buffer = [] := List.length_eq_zero_iff.mp (by omega)
        subst hempty
        cases h
        exact .finish hpoint
    · cases h
  · rename_i hpoint
    cases h
    exact .failReceiving hpoint
  · rename_i buffer n hpoint
    split at h
    · rename_i hn
      cases h
      refine .send hpoint hn ?_
      split
      · exact Or.inl rfl
      · exact Or.inr rfl
    · cases h
  · rename_i buffer hpoint
    cases h
    exact .failSending hpoint
  · rename_i interval hpoint
    cases h
    unfold Transfer.limitRate
    split
    · exact .measure hpoint (Or.inl rfl)
    · exact .measure hpoint (Or.inr (Or.inl rfl))
    · split
      · exact .measure hpoint (Or.inl rfl)
      · exact .measure hpoint (Or.inr (Or.inr rfl))
  · rename_i hpoint
    cases h
    exact .wake hpoint
  · rename_i closed hpoint
    split at h
    · rename_i hlt
      cases h
      exact .close hpoint hlt
    · cases h
  · rename_i hpoint
    cases h
    exact .exit hpoint
  · cases h

/-! ## One direction -/

/-- The bytes that have been handed to `send`. -/
def Transfer.handed (t : Transfer) : List UInt8 := (t.sends.map Prod.fst).flatten

/-- The buffers are handed to `send` in the order in which they came, and none is left out but the one in
hand, or the one at which the loop failed. -/
structure Sound (t : Transfer) : Prop where
  accepted : ∀ p ∈ t.sends, p.2 ≤ p.1.length
  ordered : t.sends.map Prod.fst <+: t.buffers
  complete : t.ending ≠ some .failed → t.buffers = t.sends.map Prod.fst ++ t.inHand
  ended : t.ending.isSome = true ↔ ∃ closed, t.point = .closing closed

theorem sound_start : Sound {} where
  accepted := by simp
  ordered := List.prefix_rfl
  complete _ := rfl
  ended := by simp

/-- A thread that waits for a call of its loop has not left it. -/
theorem Sound.ending_eq_none {t : Transfer} (h : Sound t) (hpoint : ∀ closed, t.point ≠ .closing closed) :
    t.ending = none := by
  cases hending : t.ending with
  | none => rfl
  | some ending =>
      obtain ⟨closed, hclosed⟩ := h.ended.mp (by rw [hending]; rfl)
      exact absurd hclosed (hpoint closed)

theorem Moves.sound {rateLimit : Int} {t t' : Transfer} {e : Event} (hmoves : Moves rateLimit t e t')
    (h : Sound t) : Sound t' := by
  have hgoing : (∀ closed, t.point ≠ .closing closed) →
      t.ending = none ∧ t.buffers = t.sends.map Prod.fst ++ t.inHand := by
    intro hpoint
    have hnone := h.ending_eq_none hpoint
    exact ⟨hnone, h.complete (by rw [hnone]; nofun)⟩
  cases hmoves with
  | receive hpoint hsome =>
      obtain ⟨hnone, hbuffers⟩ := hgoing (by rw [hpoint]; nofun)
      have hhand : t.inHand = [] := by rw [Transfer.inHand, hpoint]
      rw [hhand, List.append_nil] at hbuffers
      refine ⟨h.accepted, ?_, ?_, ?_⟩
      · exact h.ordered.trans (List.prefix_append _ _)
      · intro _
        show t.buffers ++ _ = _
        rw [hbuffers]
        rfl
      · simp [hnone]
  | finish hpoint =>
      obtain ⟨-, hbuffers⟩ := hgoing (by rw [hpoint]; nofun)
      have hhand : t.inHand = [] := by rw [Transfer.inHand, hpoint]
      rw [hhand] at hbuffers
      exact ⟨h.accepted, h.ordered, fun _ => hbuffers, by simp [Transfer.leave]⟩
  | failReceiving hpoint =>
      exact ⟨h.accepted, h.ordered, fun hfailed => absurd rfl hfailed, by simp [Transfer.leave]⟩
  | @send buffer n point hpoint hn hnext =>
      obtain ⟨hnone, hbuffers⟩ := hgoing (by rw [hpoint]; nofun)
      have hhand : t.inHand = [buffer] := by rw [Transfer.inHand, hpoint]
      rw [hhand] at hbuffers
      have hmap : (t.sends ++ [(buffer, n)]).map Prod.fst = t.buffers := by
        rw [hbuffers, List.map_append]
        rfl
      refine ⟨?_, ?_, ?_, ?_⟩
      · rw [List.forall_mem_append, List.forall_mem_singleton]
        exact ⟨h.accepted, hn⟩
      · show (t.sends ++ [(buffer, n)]).map Prod.fst <+: t.buffers
        exact hmap ▸ List.prefix_rfl
      · intro _
        show t.buffers = (t.sends ++ [(buffer, n)]).map Prod.fst ++ _
        rw [hmap]
        rcases hnext with rfl | rfl <;> exact (List.append_nil _).symm
      · rcases hnext with rfl | rfl <;> simp [hnone]
  | failSending hpoint =>
      exact ⟨h.accepted, h.ordered, fun hfailed => absurd rfl hfailed, by simp [Transfer.leave]⟩
  | measure hpoint hnext =>
      obtain ⟨hnone, hbuffers⟩ := hgoing (by rw [hpoint]; nofun)
      have hhand : t.inHand = [] := by rw [Transfer.inHand, hpoint]
      rw [hhand] at hbuffers
      refine ⟨h.accepted, h.ordered, fun _ => ?_, ?_⟩
      · rcases hnext with rfl | rfl | rfl <;> exact hbuffers
      · rcases hnext with rfl | rfl | rfl <;> simp [hnone]
  | wake hpoint =>
      obtain ⟨hnone, hbuffers⟩ := hgoing (by rw [hpoint]; nofun)
      have hhand : t.inHand = [] := by rw [Transfer.inHand, hpoint]
      rw [hhand] at hbuffers
      exact ⟨h.accepted, h.ordered, fun _ => hbuffers, by simp [hnone]⟩
  | close hpoint hlt =>
      have hended : t.ending.isSome = true := h.ended.mpr ⟨_, hpoint⟩
      refine ⟨h.accepted, h.ordered, fun hending => ?_, by simp [hended]⟩
      have hbuffers := h.complete hending
      rwa [Transfer.inHand, hpoint] at hbuffers
  | exit hpoint => exact h

/-- A shorter list of the same pieces, cut short somewhere, is shorter. -/
theorem flatten_take_eq_iff {sends : List (List UInt8 × Nat)} (h : ∀ p ∈ sends, p.2 ≤ p.1.length) :
    (sends.map fun p => p.1.take p.2).flatten = (sends.map Prod.fst).flatten ↔
      ∀ p ∈ sends, p.2 = p.1.length := by
  have hshort : ∀ sends : List (List UInt8 × Nat),
      ((sends.map fun p => p.1.take p.2).flatten).length ≤ ((sends.map Prod.fst).flatten).length := by
    intro sends
    induction sends with
    | nil => exact Nat.le_refl _
    | cons p sends ih =>
        simp only [List.map_cons, List.flatten_cons, List.length_append, List.length_take]
        omega
  induction sends with
  | nil => simp
  | cons p sends ih =>
      rw [List.forall_mem_cons] at h ⊢
      rw [List.map_cons, List.map_cons, List.flatten_cons, List.flatten_cons]
      constructor
      · intro heq
        have hrest := hshort sends
        have hlength := congrArg List.length heq
        simp only [List.length_append, List.length_take] at hlength
        have hfull : p.2 = p.1.length := by omega
        rw [hfull, List.take_length] at heq
        exact ⟨hfull, (ih h.2).mp (List.append_cancel_left heq)⟩
      · rintro ⟨hfull, hall⟩
        rw [hfull, List.take_length, (ih h.2).mpr hall]

/-- **One direction is passed on intact.**  When a thread has come to the end of its source without an
error, the destination has taken exactly what was received, in this order, if and only if every `send` took
its whole buffer. -/
theorem forwarded_iff {rateLimit : Int} {steps : List (Transfer × Event)} {t : Transfer}
    (hruns : Runs (Transfer.advance rateLimit) {} steps t) (hend : t.ending = some .endOfStream) :
    t.delivered = t.received ↔ ∀ p ∈ t.sends, p.2 = p.1.length := by
  have hsound : Sound t :=
    hruns.always sound_start fun _ _ _ hs hstep => (moves_of_advance hstep).sound hs
  obtain ⟨closed, hpoint⟩ := hsound.ended.mp (by rw [hend]; rfl)
  have hbuffers := hsound.complete (by rw [hend]; nofun)
  rw [Transfer.inHand, hpoint, List.append_nil] at hbuffers
  rw [Transfer.delivered, Transfer.received, hbuffers]
  exact flatten_take_eq_iff hsound.accepted

/-- Two buffers, both taken whole. -/
theorem forwarded_iff_whole :
    ∃ steps t, Runs (Transfer.advance 0) {} steps t ∧ t.sends = [([1, 2], 2), ([3], 1)] ∧
      (t.delivered = t.received ↔ ∀ p ∈ t.sends, p.2 = p.1.length) := by
  have hruns := runs_of_trace (show trace (Transfer.advance 0) {}
    [.received [1, 2], .sent 2, .received [3], .sent 1, .received []] = some (_, _) from rfl)
  exact ⟨_, _, hruns, rfl, forwarded_iff hruns rfl⟩

/-- A `send` that takes one byte of two: the other one is lost. -/
theorem partial_send_loses :
    ∃ steps t, Runs (Transfer.advance 0) {} steps t ∧ t.ending = some .endOfStream ∧
      t.received = [1, 2, 3] ∧ t.delivered = [1, 3] := by
  have hruns := runs_of_trace (show trace (Transfer.advance 0) {}
    [.received [1, 2], .sent 1, .received [3], .sent 1, .received []] = some (_, _) from rfl)
  exact ⟨_, _, hruns, rfl, rfl, rfl⟩

/-! ## Both directions -/

/-- What a step of the whole process is. -/
theorem step_eq_some {rateLimit : Int} {f f' : Forwarder} {side : Side} {e : Event} :
    f.step rateLimit (side, e) = some f' ↔
      f.exitStatus = none ∧ f.allows side e = true ∧
        ∃ t, (f.transfers side).advance rateLimit e = some t ∧ f' = f.after side e t := by
  unfold Forwarder.step
  constructor
  · intro h
    split at h
    · rename_i hallowed
      rw [Bool.and_eq_true, Option.isNone_iff_eq_none] at hallowed
      obtain ⟨t, ht, hafter⟩ := Option.map_eq_some_iff.mp h
      exact ⟨hallowed.1, hallowed.2, t, ht, hafter.symm⟩
    · cases h
  · rintro ⟨hexit, hallows, t, ht, rfl⟩
    dsimp only
    rw [hexit, hallows, ht]
    rfl

/-- Both threads are sound, and what a peer sends is received in order. -/
structure Passing (incoming : Side → List UInt8) (f : Forwarder) : Prop where
  sound : ∀ side, Sound (f.transfers side)
  received : ∀ side, (f.transfers side).received ++ f.incoming side = incoming side
  exhausted : ∀ side, (f.transfers side).ending = some .endOfStream → f.incoming side = []

theorem passing_start (incoming : Side → List UInt8) : Passing incoming (Forwarder.start incoming) where
  sound _ := sound_start
  received _ := rfl
  exhausted _ h := nomatch h

/-- The bytes an event brings in. -/
def Event.bytes : Event → List UInt8
  | .received buffer => buffer
  | _ => []

theorem Moves.received_eq {rateLimit : Int} {t t' : Transfer} {e : Event} (hmoves : Moves rateLimit t e t') :
    t'.received = t.received ++ e.bytes := by
  cases hmoves with
  | receive _ _ => simp [Transfer.received, Event.bytes]
  | finish _ => simp [Transfer.received, Transfer.leave, Event.bytes]
  | failReceiving _ => simp [Transfer.received, Transfer.leave, Event.bytes]
  | send _ _ _ => simp [Transfer.received, Event.bytes]
  | failSending _ => simp [Transfer.received, Transfer.leave, Event.bytes]
  | measure _ _ => simp [Transfer.received, Event.bytes]
  | wake _ => simp [Transfer.received, Event.bytes]
  | close _ _ => simp [Transfer.received, Event.bytes]
  | exit _ => simp [Event.bytes]

/-- The loop is left at the end of the stream only on an empty `recv`. -/
theorem Moves.endOfStream {rateLimit : Int} {t t' : Transfer} {e : Event}
    (hmoves : Moves rateLimit t e t') (h : t'.ending = some .endOfStream) :
    t.ending = some .endOfStream ∨ e = .received [] := by
  cases hmoves with
  | finish _ => exact Or.inr rfl
  | failReceiving _ => cases h
  | failSending _ => cases h
  | receive _ _ => exact Or.inl h
  | send _ _ _ => exact Or.inl h
  | measure _ _ => exact Or.inl h
  | wake _ => exact Or.inl h
  | close _ _ => exact Or.inl h
  | exit _ => exact Or.inl h

/-- What a peer will still send becomes less by what comes in from it. -/
theorem incoming_after {f : Forwarder} {side : Side} {e : Event} (hallows : f.allows side e = true)
    (t : Transfer) (side' : Side) :
    (if side' = side then e.bytes else []) ++ (f.after side e t).incoming side' = f.incoming side' := by
  cases e with
  | received buffer =>
      simp only [Forwarder.allows, Bool.and_eq_true, List.isPrefixOf_iff_prefix] at hallows
      obtain ⟨rest, hrest⟩ := hallows.1.2
      show (if side' = side then buffer else []) ++
        update f.incoming side ((f.incoming side).drop buffer.length) side' = f.incoming side'
      unfold update
      by_cases hside : side' = side
      · rw [if_pos hside, if_pos hside, hside, ← hrest, List.drop_left]
      · rw [if_neg hside, if_neg hside, List.nil_append]
  | recvFailed => simp [Event.bytes, Forwarder.after]
  | sent n => simp [Event.bytes, Forwarder.after]
  | sendFailed => simp [Event.bytes, Forwarder.after]
  | measured interval => simp [Event.bytes, Forwarder.after]
  | slept => simp [Event.bytes, Forwarder.after]
  | closed => simp [Event.bytes, Forwarder.after]
  | exited => simp [Event.bytes, Forwarder.after]

/-- An empty `recv` comes only at the end of what the peer sends. -/
theorem exhausted_of_allows {f : Forwarder} {side : Side} (h : f.allows side (.received []) = true) :
    f.incoming side = [] := by
  simp only [Forwarder.allows, Bool.and_eq_true, Bool.or_eq_true, decide_eq_true_eq] at h
  rcases h.2 with hne | hend
  · exact absurd rfl hne
  · exact hend

theorem passing_step {rateLimit : Int} {incoming : Side → List UInt8} {f f' : Forwarder}
    {p : Side × Event} (h : Passing incoming f) (hstep : f.step rateLimit p = some f') :
    Passing incoming f' := by
  obtain ⟨side, e⟩ := p
  obtain ⟨-, hallows, t, hadvance, rfl⟩ := step_eq_some.mp hstep
  have hmoves := moves_of_advance hadvance
  have hincoming := incoming_after hallows t
  have hother : (f.after side e t).transfers side.other = f.transfers side.other := update_other _ _ _
  have hsame : (f.after side e t).transfers side = t := update_same _ _ _
  refine ⟨?_, ?_, ?_⟩
  · intro side'
    rcases side.eq_or_eq_other side' with rfl | rfl
    · rw [hsame]
      exact hmoves.sound (h.sound _)
    · rw [hother]
      exact h.sound _
  · intro side'
    have hrest := hincoming side'
    rw [← h.received, ← hrest]
    rcases side.eq_or_eq_other side' with rfl | rfl
    · rw [hsame, hmoves.received_eq, if_pos rfl, List.append_assoc]
    · have hne : side.other ≠ side := by cases side <;> decide
      rw [hother, if_neg hne, List.nil_append]
  · intro side' hending
    have hrest := hincoming side'
    have hnone : f.incoming side' = [] := by
      rcases side.eq_or_eq_other side' with rfl | rfl
      · rw [hsame] at hending
        rcases hmoves.endOfStream hending with hbefore | rfl
        · exact h.exhausted _ hbefore
        · exact exhausted_of_allows hallows
      · rw [hother] at hending
        exact h.exhausted _ hending
    rw [hnone] at hrest
    exact (List.append_eq_nil_iff.mp hrest).2

/-! ## Closing the sockets -/

/-- A thread that has left its loop does not go back. -/
theorem Moves.ending_ne_none {rateLimit : Int} {t t' : Transfer} {e : Event}
    (hmoves : Moves rateLimit t e t') (h : t.ending ≠ none) : t'.ending ≠ none := by
  cases hmoves with
  | finish _ => exact nofun
  | failReceiving _ => exact nofun
  | failSending _ => exact nofun
  | receive _ _ => exact h
  | send _ _ _ => exact h
  | measure _ _ => exact h
  | wake _ => exact h
  | close _ _ => exact h
  | exit _ => exact h

/-- A thread that has closed a socket has just done so, or had done so before. -/
theorem Moves.closed {rateLimit : Int} {t t' : Transfer} {e : Event} (hmoves : Moves rateLimit t e t')
    {closed : Nat} (h : t'.point = .closing (closed + 1)) :
    (e = .closed ∧ t.point = .closing closed) ∨ t.point = .closing (closed + 1) := by
  cases hmoves with
  | finish _ => cases h
  | failReceiving _ => cases h
  | failSending _ => cases h
  | receive _ _ => cases h
  | send _ _ hnext => rcases hnext with rfl | rfl <;> cases h
  | measure _ hnext => rcases hnext with rfl | rfl | rfl <;> cases h
  | wake _ => cases h
  | close hpoint _ =>
      cases h
      exact Or.inl ⟨rfl, hpoint⟩
  | exit _ => exact Or.inr h

theorem Moves.of_closed {rateLimit : Int} {t t' : Transfer} (hmoves : Moves rateLimit t .closed t') :
    ∃ closed, t.point = .closing closed := by
  cases hmoves with
  | close hpoint _ => exact ⟨_, hpoint⟩

theorem Moves.of_exited {rateLimit : Int} {t t' : Transfer} (hmoves : Moves rateLimit t .exited t') :
    t.point = .closing 2 := by
  cases hmoves with
  | exit hpoint => exact hpoint

/-- A thread is about to close a socket only when the other direction has ended as well. -/
def Patient (f : Forwarder) (p : Side × Event) : Prop :=
  p.2 = .closed → (f.transfers p.1.other).ending ≠ none

instance (f : Forwarder) (p : Side × Event) : Decidable (Patient f p) := by
  unfold Patient
  infer_instance

/-- No direction is cut: while one goes on, the sockets are open and the process runs. -/
structure Uncut (f : Forwarder) : Prop where
  opened : ∀ side, (f.transfers side).ending = none → ∀ side', f.isOpen side' = true
  closing : ∀ side closed, (f.transfers side).point = .closing (closed + 1) →
    ∀ side', (f.transfers side').ending ≠ none
  running : f.exitStatus ≠ none → ∀ side, (f.transfers side).ending ≠ none

theorem uncut_start (incoming : Side → List UInt8) : Uncut (Forwarder.start incoming) where
  opened _ _ _ := rfl
  closing _ _ h := nomatch h
  running h := absurd rfl h

theorem ending_after {rateLimit : Int} {f : Forwarder} {side : Side} {e : Event} {t : Transfer}
    (hmoves : Moves rateLimit (f.transfers side) e t) (side' : Side)
    (h : (f.transfers side').ending ≠ none) : ((f.after side e t).transfers side').ending ≠ none := by
  rcases side.eq_or_eq_other side' with rfl | rfl
  · show (update f.transfers side' t side').ending ≠ none
    rw [update_same]
    exact hmoves.ending_ne_none h
  · show (update f.transfers side t side.other).ending ≠ none
    rw [update_other]
    exact h

theorem uncut_step {rateLimit : Int} {f f' : Forwarder} {p : Side × Event}
    (hsound : ∀ side, Sound (f.transfers side)) (h : Uncut f) (hpatient : Patient f p)
    (hstep : f.step rateLimit p = some f') : Uncut f' := by
  obtain ⟨side, e⟩ := p
  obtain ⟨hexit, -, t, hadvance, rfl⟩ := step_eq_some.mp hstep
  have hmoves := moves_of_advance hadvance
  have hended : e = .closed → ∀ side', (f.transfers side').ending ≠ none := by
    rintro rfl side'
    obtain ⟨closed, hpoint⟩ := hmoves.of_closed
    rcases side.eq_or_eq_other side' with rfl | rfl
    · have hsome := (hsound side').ended.mpr ⟨closed, hpoint⟩
      intro hnone
      rw [hnone] at hsome
      cases hsome
    · exact hpatient rfl
  refine ⟨?_, ?_, ?_⟩
  · intro side₀ hnone side'
    have hbefore : (f.transfers side₀).ending = none := by
      by_contra hne
      exact ending_after hmoves side₀ hne hnone
    have hopen := h.opened side₀ hbefore side'
    cases e with
    | closed => exact absurd hbefore (hended rfl side₀)
    | received buffer => exact hopen
    | recvFailed => exact hopen
    | sent n => exact hopen
    | sendFailed => exact hopen
    | measured interval => exact hopen
    | slept => exact hopen
    | exited => exact hopen
  · intro side₀ closed hpoint side'
    apply ending_after hmoves
    rcases side.eq_or_eq_other side₀ with rfl | rfl
    · have hpoint' : t.point = .closing (closed + 1) := by
        rwa [show (f.after side₀ e t).transfers side₀ = t from update_same _ _ _] at hpoint
      rcases hmoves.closed hpoint' with ⟨hclosed, -⟩ | hbefore
      · exact hended hclosed side'
      · exact h.closing side₀ closed hbefore side'
    · rw [show (f.after side e t).transfers side.other = f.transfers side.other from
        update_other _ _ _] at hpoint
      exact h.closing side.other closed hpoint side'
  · intro hstatus side'
    apply ending_after hmoves
    cases e with
    | exited => exact h.closing side 1 hmoves.of_exited side'
    | received buffer => exact absurd hexit hstatus
    | recvFailed => exact absurd hexit hstatus
    | sent n => exact absurd hexit hstatus
    | sendFailed => exact absurd hexit hstatus
    | measured interval => exact absurd hexit hstatus
    | slept => exact absurd hexit hstatus
    | closed => exact absurd hexit hstatus

/-- A thread that has closed a socket has closed that of the client. -/
def ClientFirst (f : Forwarder) : Prop :=
  ∀ side closed, (f.transfers side).point = .closing (closed + 1) → f.isOpen .client = false

/-- A socket that is closed stays closed. -/
theorem isOpen_after {f : Forwarder} {side : Side} {e : Event} (t : Transfer) {side' : Side}
    (h : f.isOpen side' = false) : (f.after side e t).isOpen side' = false := by
  cases e with
  | closed =>
      show update f.isOpen _ false side' = false
      unfold update
      split
      · rfl
      · exact h
  | received buffer => exact h
  | recvFailed => exact h
  | sent n => exact h
  | sendFailed => exact h
  | measured interval => exact h
  | slept => exact h
  | exited => exact h

/-- After a thread has closed a socket, that of the client is closed. -/
theorem isOpen_closed {f : Forwarder} {side : Side} (hfirst : ClientFirst f) {closed : Nat}
    (hpoint : (f.transfers side).point = .closing closed) (t : Transfer) :
    (f.after side .closed t).isOpen .client = false := by
  cases closed with
  | zero =>
      show update f.isOpen (f.transfers side).point.socket false .client = false
      rw [hpoint]
      rfl
  | succ closed => exact isOpen_after t (hfirst side closed hpoint)

theorem clientFirst_step {rateLimit : Int} {f f' : Forwarder} {p : Side × Event} (h : ClientFirst f)
    (hstep : f.step rateLimit p = some f') : ClientFirst f' := by
  obtain ⟨side, e⟩ := p
  obtain ⟨-, -, t, hadvance, rfl⟩ := step_eq_some.mp hstep
  intro side₀ closed hpoint
  rcases side.eq_or_eq_other side₀ with rfl | rfl
  · have hpoint' : t.point = .closing (closed + 1) := by
      rwa [show (f.after side₀ e t).transfers side₀ = t from update_same _ _ _] at hpoint
    rcases (moves_of_advance hadvance).closed hpoint' with ⟨rfl, hbefore⟩ | hbefore
    · exact isOpen_closed h hbefore t
    · exact isOpen_after t (h side₀ closed hbefore)
  · rw [show (f.after side e t).transfers side.other = f.transfers side.other from
      update_other _ _ _] at hpoint
    exact isOpen_after t (h side.other closed hpoint)

/-! ## What is lost -/

/-- The direction from `side` has been cut with bytes outstanding: the client's socket is closed, and the
peer's bytes have not all been received, or not all been handed on to the client. -/
def Cut (incoming : Side → List UInt8) (side : Side) (f : Forwarder) : Prop :=
  f.isOpen .client = false ∧
    match side with
    | .client => f.incoming .client ≠ []
    | .service => (f.transfers .service).handed.length < (incoming .service).length

/-- What has been handed to `send` are bytes the peer has sent. -/
theorem handed_length_le {incoming : Side → List UInt8} {f : Forwarder} (h : Passing incoming f)
    (side : Side) :
    (f.transfers side).handed.length + (f.incoming side).length ≤ (incoming side).length := by
  obtain ⟨rest, hrest⟩ := (h.sound side).ordered
  have hstream := congrArg List.length (h.received side)
  rw [Transfer.received, ← hrest, List.flatten_append, List.length_append, List.length_append] at hstream
  have hhanded : (f.transfers side).handed.length =
      ((f.transfers side).sends.map Prod.fst).flatten.length := rfl
  omega

theorem Cut.loses {incoming : Side → List UInt8} {side : Side} {f : Forwarder} (hcut : Cut incoming side f)
    (h : Passing incoming f) : (f.transfers side).handed ≠ incoming side := by
  intro hall
  have hle := handed_length_le h side
  rw [hall] at hle
  cases side with
  | client =>
      have hsome := List.length_pos_iff.mpr hcut.2
      omega
  | service =>
      have hshort : (f.transfers .service).handed.length < (incoming .service).length := hcut.2
      rw [hall] at hshort
      omega

/-- The buffers handed to `send` change only with a `send`. -/
theorem Moves.handed_eq {rateLimit : Int} {t t' : Transfer} {e : Event} (hmoves : Moves rateLimit t e t')
    (h : ∀ n, e ≠ .sent n) : t'.handed = t.handed := by
  cases hmoves with
  | send _ _ _ => exact absurd rfl (h _)
  | receive _ _ => rfl
  | finish _ => rfl
  | failReceiving _ => rfl
  | failSending _ => rfl
  | measure _ _ => rfl
  | wake _ => rfl
  | close _ _ => rfl
  | exit _ => rfl

theorem Cut.step {rateLimit : Int} {incoming : Side → List UInt8} {side : Side} {f f' : Forwarder}
    {p : Side × Event} (hcut : Cut incoming side f) (hstep : f.step rateLimit p = some f') :
    Cut incoming side f' := by
  obtain ⟨thread, e⟩ := p
  obtain ⟨-, hallows, t, hadvance, rfl⟩ := step_eq_some.mp hstep
  have hmoves := moves_of_advance hadvance
  refine ⟨isOpen_after t hcut.1, ?_⟩
  cases side with
  | client =>
      -- nothing is received through a closed socket
      have hsame : (f.after thread e t).incoming .client = f.incoming .client := by
        have hrest := incoming_after hallows t .client
        cases thread with
        | service => simpa using hrest
        | client =>
            cases e with
            | received buffer =>
                simp [Forwarder.allows, hcut.1] at hallows
            | recvFailed => rfl
            | sent n => rfl
            | sendFailed => rfl
            | measured interval => rfl
            | slept => rfl
            | closed => rfl
            | exited => rfl
      show (f.after thread e t).incoming .client ≠ []
      rw [hsame]
      exact hcut.2
  | service =>
      -- nothing is sent through a closed socket
      have hsame : ((f.after thread e t).transfers .service).handed = (f.transfers .service).handed := by
        cases thread with
        | client => rfl
        | service =>
            refine hmoves.handed_eq ?_
            rintro n rfl
            have hopen : f.isOpen .client = true := hallows
            rw [hcut.1] at hopen
            cases hopen
      show ((f.after thread e t).transfers .service).handed.length < _
      rw [hsame]
      exact hcut.2

/-- A thread that closes a socket while the other peer has bytes left to send cuts its direction. -/
theorem cut_of_closed {rateLimit : Int} {incoming : Side → List UInt8} {f f' : Forwarder} {side : Side}
    (h : Passing incoming f) (hfirst : ClientFirst f) (hleft : f.incoming side.other ≠ [])
    (hstep : f.step rateLimit (side, .closed) = some f') : Cut incoming side.other f' := by
  obtain ⟨-, -, t, hadvance, rfl⟩ := step_eq_some.mp hstep
  obtain ⟨closed, hpoint⟩ := (moves_of_advance hadvance).of_closed
  refine ⟨isOpen_closed hfirst hpoint t, ?_⟩
  have hle := handed_length_le h side.other
  have hsome := List.length_pos_iff.mpr hleft
  cases side with
  | service => exact hleft
  | client =>
      show (f.transfers .service).handed.length < (incoming .service).length
      have hle' : (f.transfers .service).handed.length + (f.incoming .service).length ≤
          (incoming .service).length := hle
      have hsome' : 0 < (f.incoming .service).length := hsome
      omega

/-- **Half-close.**  In a run in which a thread closes a socket only when the other direction has ended as
well, a direction that goes on has both its sockets, one that comes to its end has handed on all that its
peer sent, and the process exits only after both have ended.  A thread that closes a socket while the other
peer still has bytes to send cuts that direction for good. -/
theorem half_close {rateLimit : Int} {incoming : Side → List UInt8}
    {steps : List (Forwarder × Side × Event)} {f : Forwarder}
    (hruns : Runs (Forwarder.step rateLimit) (Forwarder.start incoming) steps f) :
    ((∀ p ∈ steps, Patient p.1 p.2) →
      (∀ side, (f.transfers side).ending = none → ∀ side', f.isOpen side' = true) ∧
      (∀ side, (f.transfers side).ending = some .endOfStream → (f.transfers side).handed = incoming side) ∧
      (f.exitStatus ≠ none → ∀ side, (f.transfers side).ending ≠ none)) ∧
    ∀ p ∈ steps, p.2.2 = .closed → p.1.incoming p.2.1.other ≠ [] →
      (f.transfers p.2.1.other).handed ≠ incoming p.2.1.other := by
  have hpassing : Passing incoming f :=
    hruns.always (passing_start incoming) fun _ _ _ h hstep => passing_step h hstep
  constructor
  · intro hpatient
    have hboth : Passing incoming f ∧ Uncut f :=
      hruns.invariant (I := fun g => Passing incoming g ∧ Uncut g) hpatient
        ⟨passing_start incoming, uncut_start incoming⟩
        fun _ _ _ h hp hstep => ⟨passing_step h.1 hstep, uncut_step h.1.sound h.2 hp hstep⟩
    refine ⟨hboth.2.opened, ?_, hboth.2.running⟩
    intro side hending
    -- at its end a thread has no buffer in hand, and its peer has none left
    obtain ⟨closed, hpoint⟩ := (hpassing.sound side).ended.mp (by rw [hending]; rfl)
    have hbuffers := (hpassing.sound side).complete (by rw [hending]; nofun)
    have hstream := hpassing.received side
    rw [Transfer.inHand, hpoint, List.append_nil] at hbuffers
    rw [hpassing.exhausted side hending, List.append_nil, Transfer.received, hbuffers] at hstream
    exact hstream
  · rintro ⟨g, side, e⟩ hmem rfl hleft
    obtain ⟨before, g', rest, hbefore, hstep, hrest⟩ := hruns.after hmem
    have hinvariant : Passing incoming g ∧ ClientFirst g :=
      hbefore.always (I := fun g => Passing incoming g ∧ ClientFirst g)
        ⟨passing_start incoming, fun _ _ h => nomatch h⟩
        fun _ _ _ h hstep => ⟨passing_step h.1 hstep, clientFirst_step h.2 hstep⟩
    have hcut : Cut incoming side.other f :=
      hrest.always (cut_of_closed hinvariant.1 hinvariant.2 hleft hstep) fun _ _ _ h hstep => h.step hstep
    exact hcut.loses hpassing

/-- A client that sends one byte and a service that sends two. -/
def conversation : Side → List UInt8
  | .client => [1]
  | .service => [2, 3]

/-- Both directions end before a socket is closed. -/
theorem half_close_patient :
    ∃ steps f, Runs (Forwarder.step 0) (Forwarder.start conversation) steps f ∧ f.exitStatus = some 0 ∧
      (∀ p ∈ steps, Patient p.1 p.2) ∧
      ((∀ p ∈ steps, Patient p.1 p.2) →
        (∀ side, (f.transfers side).ending = none → ∀ side', f.isOpen side' = true) ∧
        (∀ side, (f.transfers side).ending = some .endOfStream →
          (f.transfers side).handed = conversation side) ∧
        (f.exitStatus ≠ none → ∀ side, (f.transfers side).ending ≠ none)) ∧
      ∀ p ∈ steps, p.2.2 = .closed → p.1.incoming p.2.1.other ≠ [] →
        (f.transfers p.2.1.other).handed ≠ conversation p.2.1.other := by
  have hruns := runs_of_trace (show trace (Forwarder.step 0) (Forwarder.start conversation)
    [(.client, .received [1]), (.client, .sent 1), (.client, .received []), (.service, .received [2, 3]),
      (.service, .sent 2), (.service, .received []), (.client, .closed), (.client, .closed),
      (.client, .exited)] = some (_, _) from rfl)
  exact ⟨_, _, hruns, rfl, by decide, half_close hruns⟩

/-- The client ends its direction first: the process exits with the service's answer not delivered. -/
theorem half_close_cuts_answer :
    ∃ steps f, Runs (Forwarder.step 0) (Forwarder.start conversation) steps f ∧
      (f.transfers .client).ending = some .endOfStream ∧ (f.transfers .service).ending = none ∧
      f.exitStatus = some 0 ∧ (f.transfers .service).handed = [] := by
  have hruns := runs_of_trace (show trace (Forwarder.step 0) (Forwarder.start conversation)
    [(.client, .received [1]), (.client, .sent 1), (.client, .received []), (.client, .closed),
      (.client, .closed), (.client, .exited)] = some (_, _) from rfl)
  exact ⟨_, _, hruns, rfl, rfl, rfl, rfl⟩

end UnicoreTsi.Forwarding
