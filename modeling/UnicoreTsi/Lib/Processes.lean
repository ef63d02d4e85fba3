/-
# UnicoreTsi.Lib.Processes — processes that fork, wait for their child, and end.

A program (`Prog`) is a tree.  Its nodes are pieces of code, each run at one stroke, and between them the
operations of the system: `fork` goes on in two processes, `wait` goes on when the child has ended.  A program
ends with a value, with an exception or with `exit`.  A `System` has a pool of processes over a shared state and
takes the step of any process that can move (`next`), so that its runs are the interleavings of the processes.

A `Discipline` says what the first process may do in each of its phases, when it may fork, and what a child may
do.  `Obeys` checks the program of the first process against it: it has to wait for a child before it does
anything else, and a child has to leave, whatever its pieces of code return or raise (`Leaves`).  A child that
leaves never reaches the code that would follow in the program of the process that forked it (`Leaves.bind`).
The rule is `tidy_of_runs`: in every run of such a program the children act one at a time, each between its fork
and the next act of the first process.
-/
import UnicoreTsi.Lib.Effects
import UnicoreTsi.Lib.Steps

set_option autoImplicit false

namespace UnicoreTsi.Processes

open UnicoreTsi.Effects UnicoreTsi.Steps

/-! ## Programs -/

/-- A program over the state `σ`; a piece of code has a label and ends with an `R` or an exception. -/
inductive Prog (ρ σ ε R L α : Type) where
  | ret (a : α)
  | raised (e : ε)
  | exit
  | stuck
  | step (label : L) (x : Comp ρ σ ε R) (k : Except ε R → Prog ρ σ ε R L α)
  | fork (k : Bool → Prog ρ σ ε R L α)
  | wait (k : Prog ρ σ ε R L α)

variable {ρ σ ε R L α β : Type}

namespace Prog

protected def bind : Prog ρ σ ε R L α → (α → Prog ρ σ ε R L β) → Prog ρ σ ε R L β
  | ret a, f => f a
  | raised e, _ => raised e
  | exit, _ => exit
  | stuck, _ => stuck
  | step label x k, f => step label x fun result => (k result).bind f
  | fork k, f => fork fun child => (k child).bind f
  | wait k, f => wait (k.bind f)

instance : Monad (Prog ρ σ ε R L) where
  pure := ret
  bind := Prog.bind

/-- Run `h` on the exception that `p` ends with. -/
def catching : Prog ρ σ ε R L α → (ε → Prog ρ σ ε R L α) → Prog ρ σ ε R L α
  | ret a, _ => ret a
  | raised e, h => h e
  | exit, _ => exit
  | stuck, _ => stuck
  | step label x k, h => step label x fun result => (k result).catching h
  | fork k, h => fork fun child => (k child).catching h
  | wait k, h => wait (k.catching h)

/-- A piece of code. -/
def call (label : L) (x : Comp ρ σ ε R) : Prog ρ σ ε R L R :=
  step label x fun
    | .ok b => ret b
    | .error e => raised e

/-- `true` in the child. -/
def forking : Prog ρ σ ε R L Bool := fork ret

def waiting : Prog ρ σ ε R L Unit := wait (ret ())

def ended : Prog ρ σ ε R L α → Bool
  | ret _ | raised _ | exit => true
  | _ => false

/-- How a program goes on after a piece of code. -/
def resume (k : Except ε R → Prog ρ σ ε R L α) : Outcome ε R → Prog ρ σ ε R L α
  | .done b => k (.ok b)
  | .raised e => k (.error e)
  | .hung => stuck

end Prog

/-! ## Systems -/

/-- What a process has to itself of the state. -/
structure Locals (σ ν : Type) where
  get : σ → ν
  set : ν → σ → σ

structure Process (ρ σ ε R L ν : Type) where
  prog : Prog ρ σ ε R L Unit
  locals : ν
  /-- The child that was forked last. -/
  child : Option ℕ

/-- What a process did: it ran a piece of code or forked. -/
inductive Event (L : Type) where
  | did (label : L)
  | forked (child : ℕ)
  deriving DecidableEq, Repr

/-- The processes have their positions as numbers and are kept when they have ended. -/
structure System (ρ σ ε R L ν : Type) where
  world : σ
  procs : List (Process ρ σ ε R L ν)
  trace : List (ℕ × Event L)

variable {ν : Type}

/-- The step of a process. -/
def next (m : Locals σ ν) (r : ρ) (sys : System ρ σ ε R L ν) (i : ℕ) : Option (System ρ σ ε R L ν) :=
  match sys.procs[i]? with
  | none => none
  | some p =>
      match p.prog with
      | .step label x k =>
          let (outcome, world) := x r (m.set p.locals sys.world)
          some
            { world := world
              procs := sys.procs.set i { p with prog := .resume k outcome, locals := m.get world }
              trace := sys.trace ++ [(i, .did label)] }
      | .fork k =>
          some { sys with
            procs := sys.procs.set i { p with prog := k false, child := some sys.procs.length } ++
              [{ prog := k true, locals := p.locals, child := none }]
            trace := sys.trace ++ [(i, .forked sys.procs.length)] }
      | .wait k =>
          match p.child.bind fun c => sys.procs[c]? with
          | some c => if c.prog.ended then some { sys with procs := sys.procs.set i { p with prog := k } } else none
          | none => none
      | _ => none

/-- A single process that runs the program. -/
def start (m : Locals σ ν) (world : σ) (p : Prog ρ σ ε R L Unit) : System ρ σ ε R L ν :=
  { world := world, procs := [{ prog := p, locals := m.get world, child := none }], trace := [] }

/-! ## Disciplines -/

/-- What the first process may do in a phase, with the phase after it; in which phases it may fork; what a child
may do. -/
structure Discipline (L Φ : Type) where
  move : Φ → L → Option Φ
  forks : Φ → Bool
  inChild : L → Bool

variable {Φ : Type} (d : Discipline L Φ)

/-- Whatever its pieces of code return or raise, the program ends without a value and does only what a child
may do. -/
def Leaves : Prog ρ σ ε R L α → Prop
  | .ret _ => False
  | .raised _ => True
  | .exit => True
  | .stuck => True
  | .step label _ k => d.inChild label = true ∧ ∀ result, Leaves (k result)
  | .fork _ => False
  | .wait _ => False

/-- The program keeps the discipline from a phase on, with `true` while it has a child to wait for, and returns
its values in the phases that `Q` allows. -/
def Obeys (Q : α → Φ → Prop) : Bool → Φ → Prog ρ σ ε R L α → Prop
  | false, φ, .ret a => Q a φ
  | false, _, .raised _ => True
  | false, _, .exit => True
  | false, _, .stuck => True
  | false, φ, .step label _ k => ∃ φ', d.move φ label = some φ' ∧ ∀ result, Obeys Q false φ' (k result)
  | false, φ, .fork k => d.forks φ = true ∧ Leaves d (k true) ∧ Obeys Q true φ (k false)
  | true, φ, .wait k => Obeys Q false φ k
  | _, _, _ => False

variable {d}

/-- What would follow a program that leaves is never reached. -/
theorem Leaves.bind {p : Prog ρ σ ε R L α} (h : Leaves d p) (f : α → Prog ρ σ ε R L β) : Leaves d (p >>= f) := by
  induction p with
  | ret a => cases h
  | raised e => trivial
  | exit => trivial
  | stuck => trivial
  | step label x k ih => exact ⟨h.1, fun result => ih result (h.2 result)⟩
  | fork k => cases h
  | wait k => cases h

/-- Whatever its pieces of code return or raise, the program does only what a child may do. -/
def Stays (d : Discipline L Φ) : Prog ρ σ ε R L α → Prop
  | .ret _ => True
  | .raised _ => True
  | .exit => True
  | .stuck => True
  | .step label _ k => d.inChild label = true ∧ ∀ result, Stays d (k result)
  | .fork _ => False
  | .wait _ => False

theorem Stays.call {label : L} (h : d.inChild label = true) (x : Comp ρ σ ε R) : Stays d (.call label x) :=
  ⟨h, fun result => by cases result <;> trivial⟩

theorem Stays.catching {p : Prog ρ σ ε R L α} (hp : Stays d p) {h : ε → Prog ρ σ ε R L α}
    (hh : ∀ e, Stays d (h e)) : Stays d (p.catching h) := by
  induction p with
  | ret a => trivial
  | raised e => exact hh e
  | exit => trivial
  | stuck => trivial
  | step label x k ih => exact ⟨hp.1, fun result => ih result (hp.2 result)⟩
  | fork k => cases hp
  | wait k => cases hp

/-- A program leaves if what follows its value does. -/
theorem Stays.leaves_bind {p : Prog ρ σ ε R L α} (hp : Stays d p) {f : α → Prog ρ σ ε R L β}
    (hf : ∀ a, Leaves d (f a)) : Leaves d (p >>= f) := by
  induction p with
  | ret a => exact hf a
  | raised e => trivial
  | exit => trivial
  | stuck => trivial
  | step label x k ih => exact ⟨hp.1, fun result => ih result (hp.2 result)⟩
  | fork k => cases hp
  | wait k => cases hp

section Obeys

variable {Q : α → Φ → Prop}

theorem Obeys.bind {S : β → Φ → Prop} {forked : Bool} {φ : Φ} {p : Prog ρ σ ε R L α} (hp : Obeys d Q forked φ p)
    {f : α → Prog ρ σ ε R L β} (hf : ∀ a φ', Q a φ' → Obeys d S false φ' (f a)) :
    Obeys d S forked φ (p >>= f) := by
  induction p generalizing forked φ with
  | ret a =>
      cases forked with
      | false => exact hf a φ hp
      | true => cases hp
  | raised e => cases forked <;> exact hp
  | exit => cases forked <;> exact hp
  | stuck => cases forked <;> exact hp
  | step label x k ih =>
      cases forked with
      | false =>
          obtain ⟨φ', hmove, hk⟩ := hp
          exact ⟨φ', hmove, fun result => ih result (hk result)⟩
      | true => cases hp
  | fork k ih =>
      cases forked with
      | false => exact ⟨hp.1, hp.2.1.bind f, ih false hp.2.2⟩
      | true => cases hp
  | wait k ih =>
      cases forked with
      | false => cases hp
      | true => exact ih hp

theorem Obeys.call {φ φ' : Φ} {label : L} (h : d.move φ label = some φ') {Q : R → Φ → Prop} (hQ : ∀ b, Q b φ')
    (x : Comp ρ σ ε R) : Obeys d Q false φ (.call label x) := by
  refine ⟨φ', h, fun result => ?_⟩
  cases result with
  | ok b => exact hQ b
  | error e => trivial

theorem Obeys.catching_call {φ φ' : Φ} {label : L} (hmove : d.move φ label = some φ') {Q : R → Φ → Prop}
    (hQ : ∀ b, Q b φ') {h : ε → Prog ρ σ ε R L R} (hh : ∀ e, Obeys d Q false φ' (h e)) (x : Comp ρ σ ε R) :
    Obeys d Q false φ ((Prog.call label x).catching h) := by
  refine ⟨φ', hmove, fun result => ?_⟩
  cases result with
  | ok b => exact hQ b
  | error e => exact hh e

end Obeys

/-! ## Runs -/

/-- What the processes have done when the first process is in the phase and waits for the child, if for one. -/
inductive Tidy (d : Discipline L Φ) (φ₀ : Φ) : List (ℕ × Event L) → Φ → Option ℕ → Prop where
  | start : Tidy d φ₀ [] φ₀ none
  | root {t : List (ℕ × Event L)} {φ φ' : Φ} {label : L} (ht : Tidy d φ₀ t φ none)
      (hmove : d.move φ label = some φ') : Tidy d φ₀ (t ++ [(0, .did label)]) φ' none
  | fork {t : List (ℕ × Event L)} {φ : Φ} {c : ℕ} (ht : Tidy d φ₀ t φ none) (hforks : d.forks φ = true)
      (hc : c ≠ 0) : Tidy d φ₀ (t ++ [(0, .forked c)]) φ (some c)
  | child {t : List (ℕ × Event L)} {φ : Φ} {c : ℕ} {label : L} (ht : Tidy d φ₀ t φ (some c))
      (hlabel : d.inChild label = true) : Tidy d φ₀ (t ++ [(c, .did label)]) φ (some c)
  | wait {t : List (ℕ × Event L)} {φ : Φ} {c : ℕ} (ht : Tidy d φ₀ t φ (some c)) : Tidy d φ₀ t φ none

/-- The first process keeps the discipline, and only the child it waits for has not ended. -/
structure Disciplined (d : Discipline L Φ) (φ₀ : Φ) (sys : System ρ σ ε R L ν) (φ : Φ) (waitsFor : Option ℕ) :
    Prop where
  tidy : Tidy d φ₀ sys.trace φ waitsFor
  root : ∃ p, sys.procs[0]? = some p ∧ Obeys d (fun _ _ => True) waitsFor.isSome φ p.prog ∧
    (waitsFor.isSome = true → p.child = waitsFor)
  others : ∀ c p, c ≠ 0 → sys.procs[c]? = some p →
    (waitsFor = some c ∧ Leaves d p.prog) ∨ (waitsFor ≠ some c ∧ p.prog.ended = true)
  waits_ne_zero : waitsFor ≠ some 0

theorem Leaves.resume {k : Except ε R → Prog ρ σ ε R L α} (h : ∀ result, Leaves d (k result)) (outcome : Outcome ε R) :
    Leaves d (.resume k outcome) := by
  cases outcome with
  | done b => exact h _
  | raised e => exact h _
  | hung => trivial

theorem Obeys.resume {Q : α → Φ → Prop} {φ : Φ} {k : Except ε R → Prog ρ σ ε R L α}
    (h : ∀ result, Obeys d Q false φ (k result)) (outcome : Outcome ε R) : Obeys d Q false φ (.resume k outcome) := by
  cases outcome with
  | done b => exact h _
  | raised e => exact h _
  | hung => trivial

section Step

variable {φ₀ φ : Φ} {m : Locals σ ν} {r : ρ} {sys sys' : System ρ σ ε R L ν} {waitsFor : Option ℕ} {i : ℕ}

/-- What a step can be. -/
theorem next_cases (h : next m r sys i = some sys') : ∃ p, sys.procs[i]? = some p ∧
    ((∃ label x k, p.prog = .step label x k ∧ ∃ outcome world, x r (m.set p.locals sys.world) = (outcome, world) ∧
        sys' = ⟨world, sys.procs.set i { p with prog := .resume k outcome, locals := m.get world },
          sys.trace ++ [(i, .did label)]⟩) ∨
      (∃ k, p.prog = .fork k ∧
        sys' = ⟨sys.world, sys.procs.set i { p with prog := k false, child := some sys.procs.length } ++
          [{ prog := k true, locals := p.locals, child := none }], sys.trace ++ [(i, .forked sys.procs.length)]⟩) ∨
      ∃ k c q, p.prog = .wait k ∧ p.child = some c ∧ sys.procs[c]? = some q ∧ q.prog.ended = true ∧
        sys' = ⟨sys.world, sys.procs.set i { p with prog := k }, sys.trace⟩) := by
  unfold next at h
  split at h
  · cases h
  · rename_i p hp
    refine ⟨p, hp, ?_⟩
    split at h
    · rename_i label x k hprog
      exact Or.inl ⟨label, x, k, hprog, _, _, rfl, (Option.some.inj h).symm⟩
    · rename_i k hprog
      exact Or.inr (Or.inl ⟨k, hprog, (Option.some.inj h).symm⟩)
    · rename_i k hprog
      split at h
      · rename_i q hq
        obtain ⟨c, hc, hprocs⟩ := Option.bind_eq_some_iff.mp hq
        split at h
        · rename_i hended
          exact Or.inr (Or.inr ⟨k, c, q, hprog, hc, hprocs, hended, (Option.some.inj h).symm⟩)
        · cases h
      · cases h
    · cases h

/-- The processes after one has been changed. -/
theorem getElem?_set_cases {procs : List (Process ρ σ ε R L ν)} {p' q : Process ρ σ ε R L ν} {c : ℕ}
    (h : (procs.set i p')[c]? = some q) : (c = i ∧ q = p') ∨ (c ≠ i ∧ procs[c]? = some q) := by
  rw [List.getElem?_set] at h
  split_ifs at h with heq hlt
  · exact Or.inl ⟨heq.symm, (Option.some.inj h).symm⟩
  · exact Or.inr ⟨Ne.symm heq, h⟩

/-- A process other than the first one moves only while the first one waits for it. -/
theorem Disciplined.moving (h : Disciplined d φ₀ sys φ waitsFor) (hi : i ≠ 0) {p : Process ρ σ ε R L ν}
    (hp : sys.procs[i]? = some p) (hmoves : p.prog.ended = false) : waitsFor = some i ∧ Leaves d p.prog := by
  rcases h.others i p hi hp with hleaves | ⟨-, hended⟩
  · exact hleaves
  · rw [hended] at hmoves
    cases hmoves

theorem Disciplined.step_child (h : Disciplined d φ₀ sys φ waitsFor) (hi : i ≠ 0)
    (hstep : next m r sys i = some sys') : Disciplined d φ₀ sys' φ waitsFor := by
  obtain ⟨root, hroot, hobeys, hchild⟩ := h.root
  obtain ⟨p, hp, ⟨label, x, k, hprog, outcome, world, -, rfl⟩ | ⟨k, hprog, -⟩ | ⟨k, c, q, hprog, -⟩⟩ := next_cases hstep
  · obtain ⟨rfl, hleaves⟩ := h.moving hi hp (by rw [hprog]; rfl)
    rw [hprog] at hleaves
    refine ⟨h.tidy.child hleaves.1, ⟨root, ?_, hobeys, hchild⟩, fun c q hc hq => ?_, h.waits_ne_zero⟩
    · rw [← hroot]
      exact List.getElem?_set_ne hi
    · rcases getElem?_set_cases hq with ⟨rfl, rfl⟩ | ⟨-, hold⟩
      · exact Or.inl ⟨rfl, Leaves.resume hleaves.2 outcome⟩
      · exact h.others c q hc hold
  · have hleaves := (h.moving hi hp (by rw [hprog]; rfl)).2
    rw [hprog] at hleaves
    cases hleaves
  · have hleaves := (h.moving hi hp (by rw [hprog]; rfl)).2
    rw [hprog] at hleaves
    cases hleaves

theorem Disciplined.step_root (h : Disciplined d φ₀ sys φ waitsFor) (hstep : next m r sys 0 = some sys') :
    ∃ φ' waitsFor', Disciplined d φ₀ sys' φ' waitsFor' := by
  obtain ⟨root, hroot, hobeys, hchild⟩ := h.root
  have hlen : 0 < sys.procs.length := (List.getElem?_eq_some_iff.mp hroot).1
  obtain ⟨p, hp, hcases⟩ := next_cases hstep
  obtain rfl : root = p := Option.some.inj (hroot.symm.trans hp)
  rcases hcases with ⟨label, x, k, hprog, outcome, world, -, rfl⟩ | ⟨k, hprog, rfl⟩ | ⟨k, c, q, hprog, hc, hq, hended, rfl⟩
  · -- The first process has no child to wait for, so all others have ended.
    rw [hprog] at hobeys
    cases waitsFor with
    | some c => cases hobeys
    | none =>
        obtain ⟨φ', hmove, hk⟩ := hobeys
        refine ⟨φ', none, h.tidy.root hmove, ⟨_, List.getElem?_set_self hlen, Obeys.resume hk outcome, nofun⟩, ?_, nofun⟩
        intro c q hc hq
        rcases getElem?_set_cases hq with ⟨rfl, -⟩ | ⟨-, hold⟩
        · exact absurd rfl hc
        · exact h.others c q hc hold
  · rw [hprog] at hobeys
    cases waitsFor with
    | some c => cases hobeys
    | none =>
        obtain ⟨hforks, hleaves, hk⟩ := hobeys
        have hne : sys.procs.length ≠ 0 := Nat.pos_iff_ne_zero.mp hlen
        refine ⟨φ, some sys.procs.length, h.tidy.fork hforks hne,
          ⟨{ root with prog := k false, child := some sys.procs.length }, ?_, hk, fun _ => rfl⟩, ?_,
          fun heq => hne (Option.some.inj heq)⟩
        · rw [List.getElem?_append_left (by simpa using hlen), List.getElem?_set_self hlen]
        · intro c q hc hq
          by_cases hnew : c = sys.procs.length
          · subst hnew
            rw [List.getElem?_append_right (by simp), List.length_set, Nat.sub_self] at hq
            obtain rfl := Option.some.inj hq
            exact Or.inl ⟨rfl, hleaves⟩
          · have hlt : c < sys.procs.length := by
              have hbound := (List.getElem?_eq_some_iff.mp hq).1
              simp only [List.length_append, List.length_set, List.length_singleton] at hbound
              omega
            rw [List.getElem?_append_left (by simpa using hlt)] at hq
            rcases getElem?_set_cases hq with ⟨rfl, -⟩ | ⟨-, hold⟩
            · exact absurd rfl hc
            · rcases h.others c q hc hold with ⟨hnone, -⟩ | ⟨-, hended⟩
              · cases hnone
              · exact Or.inr ⟨fun heq => hnew (Option.some.inj heq).symm, hended⟩
  · -- The child that the first process waits for has ended.
    rw [hprog] at hobeys
    cases waitsFor with
    | none => cases hobeys
    | some c₀ =>
        obtain rfl : c = c₀ := Option.some.inj (hc.symm.trans (hchild rfl))
        refine ⟨φ, none, h.tidy.wait, ⟨_, List.getElem?_set_self hlen, hobeys, nofun⟩, ?_, nofun⟩
        intro c' q' hc' hq'
        rcases getElem?_set_cases hq' with ⟨rfl, -⟩ | ⟨-, hold⟩
        · exact absurd rfl hc'
        · rcases h.others c' q' hc' hold with ⟨hwaits, -⟩ | ⟨-, hended'⟩
          · obtain rfl : c = c' := Option.some.inj hwaits
            obtain rfl : q = q' := Option.some.inj (hq.symm.trans hold)
            exact Or.inr ⟨nofun, hended⟩
          · exact Or.inr ⟨nofun, hended'⟩

theorem Disciplined.of_start {world : σ} {p : Prog ρ σ ε R L Unit} (hp : Obeys d (fun _ _ => True) false φ₀ p) :
    Disciplined d φ₀ (start m world p) φ₀ none := by
  refine ⟨.start, ⟨_, rfl, hp, nofun⟩, fun c q hc hq => ?_, nofun⟩
  obtain ⟨c, rfl⟩ := Nat.exists_eq_succ_of_ne_zero hc
  cases hq

/-- **Runs of a disciplined program.** -/
theorem tidy_of_runs {world : σ} {p : Prog ρ σ ε R L Unit} (hp : Obeys d (fun _ _ => True) false φ₀ p)
    {steps : List (System ρ σ ε R L ν × ℕ)} (hruns : Runs (next m r) (start m world p) steps sys) :
    ∃ φ waitsFor, Tidy d φ₀ sys.trace φ waitsFor := by
  have hinv : ∃ φ waitsFor, Disciplined d φ₀ sys φ waitsFor := by
    refine Runs.always (I := fun s => ∃ φ waitsFor, Disciplined d φ₀ s φ waitsFor) hruns ⟨φ₀, none, .of_start hp⟩ ?_
    intro s i s' hs hstep
    obtain ⟨φ, waitsFor, h⟩ := hs
    by_cases hi : i = 0
    · subst hi
      exact h.step_root hstep
    · exact ⟨φ, waitsFor, h.step_child hi hstep⟩
  obtain ⟨φ, waitsFor, h⟩ := hinv
  exact ⟨φ, waitsFor, h.tidy⟩

end Step

/-! ## Reading a tidy trace -/

section Trace

variable {φ₀ φ : Φ} {t pre post : List (ℕ × Event L)} {waitsFor : Option ℕ}

/-- While the first process waits for a child, only the child has done something since it was forked. -/
theorem Tidy.waiting (h : Tidy d φ₀ t φ waitsFor) {c : ℕ} (hc : waitsFor = some c) :
    c ≠ 0 ∧ ∃ front own, t = front ++ (0, .forked c) :: own ∧ (∀ x ∈ own, x.1 = c) ∧ Tidy d φ₀ front φ none ∧
      d.forks φ = true := by
  induction h with
  | start => cases hc
  | root ht hmove => cases hc
  | wait ht => cases hc
  | @fork t φ c' ht hforks hne =>
      obtain rfl := Option.some.inj hc
      exact ⟨hne, t, [], rfl, nofun, ht, hforks⟩
  | @child t φ c' label ht hlabel ih =>
      obtain rfl := Option.some.inj hc
      obtain ⟨hne, front, own, rfl, hown, hfront, hforks⟩ := ih rfl
      refine ⟨hne, front, own ++ [(c', .did label)], by simp, ?_, hfront, hforks⟩
      rw [List.forall_mem_append, List.forall_mem_singleton]
      exact ⟨hown, rfl⟩

/-- An entry of a longer trace is the last one, or it is one of those before. -/
theorem append_entry_cases {x y : ℕ × Event L} (h : t ++ [y] = pre ++ x :: post) :
    (t = pre ∧ y = x) ∨ ∃ post', t = pre ++ x :: post' := by
  rcases List.eq_nil_or_concat post with rfl | ⟨post', z, rfl⟩
  · obtain ⟨rfl, hlast⟩ := List.append_inj' h rfl
    exact Or.inl ⟨rfl, List.singleton_inj.mp hlast⟩
  · have hassoc : pre ++ x :: post'.concat z = (pre ++ x :: post') ++ [z] := by simp
    rw [hassoc] at h
    exact Or.inr ⟨post', (List.append_inj' h rfl).1⟩

/-- What an entry of the trace can be, with what was the case before it. -/
theorem Tidy.entry (h : Tidy d φ₀ t φ waitsFor) {x : ℕ × Event L} (hx : t = pre ++ x :: post) :
    (∃ φ₁ label φ₂, x = (0, .did label) ∧ Tidy d φ₀ pre φ₁ none ∧ d.move φ₁ label = some φ₂) ∨
      (∃ φ₁ c, x = (0, .forked c) ∧ Tidy d φ₀ pre φ₁ none ∧ d.forks φ₁ = true) ∨
      ∃ φ₁ c label, x = (c, .did label) ∧ Tidy d φ₀ pre φ₁ (some c) ∧ d.inChild label = true := by
  induction h generalizing post with
  | start => simp at hx
  | @root t φ φ' label ht hmove ih =>
      rcases append_entry_cases hx with ⟨rfl, rfl⟩ | ⟨post', heq⟩
      · exact Or.inl ⟨φ, label, φ', rfl, ht, hmove⟩
      · exact ih heq
  | @fork t φ c ht hforks hne ih =>
      rcases append_entry_cases hx with ⟨rfl, rfl⟩ | ⟨post', heq⟩
      · exact Or.inr (Or.inl ⟨φ, c, rfl, ht, hforks⟩)
      · exact ih heq
  | @child t φ c label ht hlabel ih =>
      rcases append_entry_cases hx with ⟨rfl, rfl⟩ | ⟨post', heq⟩
      · exact Or.inr (Or.inr ⟨φ, c, label, rfl, ht, hlabel⟩)
      · exact ih heq
  | wait ht ih => exact ih hx

end Trace

/-! ## What a complete run computes -/

/-- How a process goes on that waits for its child, which has left the state; `back` restores what the process
has to itself. -/
def whenEnded (back : σ → σ) (child : Outcome ε α × σ) (y : σ → Outcome ε β × σ) : Outcome ε β × σ :=
  match child with
  | (.hung, s) => (.hung, back s)
  | (_, s) => y (back s)

theorem whenEnded_congr {γ : Type} {child : Outcome ε α × σ} {child' : Outcome ε γ × σ} (hstate : child.2 = child'.2)
    (hhung : child.1 = .hung ↔ child'.1 = .hung) (back : σ → σ) (y : σ → Outcome ε β × σ) :
    whenEnded back child y = whenEnded back child' y := by
  obtain ⟨outcome, s⟩ := child
  obtain ⟨outcome', s'⟩ := child'
  obtain rfl : s = s' := hstate
  by_cases hh : outcome = .hung
  · obtain rfl : outcome' = .hung := hhung.mp hh
    rw [hh]
    rfl
  · have hh' : outcome' ≠ .hung := fun h => hh (hhung.mpr h)
    cases outcome <;> cases outcome' <;> first | rfl | exact absurd rfl hh | exact absurd rfl hh'

namespace Prog

/-- The program as a computation, in which a child runs to its end as soon as it is forked.  `none` is `exit`. -/
def run (m : Locals σ ν) : Prog ρ σ ε R L α → Comp ρ σ ε (Option α)
  | ret a => pure (some a)
  | raised e => raise e
  | exit => pure none
  | stuck => diverge
  | step _ x k => fun r s =>
      match x r s with
      | (.done b, s') => run m (k (.ok b)) r s'
      | (.raised e, s') => run m (k (.error e)) r s'
      | (.hung, s') => (.hung, s')
  | fork k => fun r s => whenEnded (m.set (m.get s)) (run m (k true) r s) (run m (k false) r)
  | wait k => run m k

/-- How a program that has ended came to its end. -/
def result : Prog ρ σ ε R L α → Outcome ε (Option α)
  | ret a => .done (some a)
  | raised e => .raised e
  | exit => .done none
  | _ => .hung

variable {m : Locals σ ν}

theorem run_step (label : L) (x : Comp ρ σ ε R) (k : Except ε R → Prog ρ σ ε R L α) (r : ρ) (s : σ) :
    run m (step label x k) r s = run m (resume k (x r s).1) r (x r s).2 := by
  rw [run]
  dsimp only
  rcases x r s with ⟨b | e | _, s'⟩ <;> rfl

theorem run_ended {p : Prog ρ σ ε R L α} (h : p.ended = true) (r : ρ) (s : σ) : run m p r s = (p.result, s) := by
  cases p with
  | ret a => rfl
  | raised e => rfl
  | exit => rfl
  | stuck => cases h
  | step label x k => cases h
  | fork k => cases h
  | wait k => cases h

theorem result_ne_hung {p : Prog ρ σ ε R L α} (h : p.ended = true) : p.result ≠ .hung := by
  cases p with
  | ret a => nofun
  | raised e => nofun
  | exit => nofun
  | stuck => cases h
  | step label x k => cases h
  | fork k => cases h
  | wait k => cases h

theorem run_call_bind (label : L) (x : Comp ρ σ ε R) (f : R → Prog ρ σ ε R L α) :
    run m (call label x >>= f) = x >>= fun b => run m (f b) := by
  funext r s
  refine (run_step label x _ r s).trans ?_
  rw [bind_run]
  rcases x r s with ⟨b | e | _, s'⟩ <;> rfl

/-- The exception of a piece of code is caught. -/
theorem run_catching_bind (label : L) (x : Comp ρ σ ε R) (h : ε → Prog ρ σ ε R L R) (f : R → Prog ρ σ ε R L α) :
    run m ((call label x).catching h >>= f) = fun r s =>
      match x r s with
      | (.done b, s') => run m (f b) r s'
      | (.raised e, s') => run m (h e >>= f) r s'
      | (.hung, s') => (.hung, s') := by
  funext r s
  refine (run_step label x _ r s).trans ?_
  rcases x r s with ⟨b | e | _, s'⟩ <;> rfl

/-- A program that leaves does the same whatever would follow it. -/
theorem run_leaves_bind {p : Prog ρ σ ε R L α} (hp : Leaves d p) (f : α → Prog ρ σ ε R L β) (r : ρ) (s : σ) :
    (run m (p >>= f) r s).2 = (run m p r s).2 ∧
      ((run m (p >>= f) r s).1 = .hung ↔ (run m p r s).1 = .hung) := by
  induction p generalizing s with
  | ret a => cases hp
  | raised e => exact ⟨rfl, ⟨nofun, nofun⟩⟩
  | exit => exact ⟨rfl, ⟨nofun, nofun⟩⟩
  | stuck => exact ⟨rfl, fun _ => rfl, fun _ => rfl⟩
  | step label x k ih =>
      have hbind : run m (step label x k >>= f) r s =
          run m (resume (fun result => k result >>= f) (x r s).1) r (x r s).2 := run_step label x _ r s
      rw [hbind, run_step]
      cases (x r s).1 with
      | done b => exact ih _ (hp.2 _) _
      | raised e => exact ih _ (hp.2 _) _
      | hung => exact ⟨rfl, fun _ => rfl, fun _ => rfl⟩
  | fork k => cases hp
  | wait k => cases hp

/-- A disciplined program and what follows it. -/
theorem run_bind {Q : α → Φ → Prop} {forked : Bool} {φ : Φ} {p : Prog ρ σ ε R L α} (hp : Obeys d Q forked φ p)
    (f : α → Prog ρ σ ε R L β) :
    run m (p >>= f) = run m p >>= fun
      | some a => run m (f a)
      | none => pure none := by
  induction p generalizing forked φ with
  | ret a => rfl
  | raised e => rfl
  | exit => rfl
  | stuck => rfl
  | step label x k ih =>
      cases forked with
      | true => cases hp
      | false =>
          obtain ⟨φ', -, hk⟩ := hp
          funext r s
          have hbind : run m (step label x k >>= f) r s =
              run m (resume (fun result => k result >>= f) (x r s).1) r (x r s).2 := run_step label x _ r s
          rw [hbind, bind_run, run_step]
          cases (x r s).1 with
          | done b => exact congrFun (congrFun (ih _ (hk _)) r) _
          | raised e => exact congrFun (congrFun (ih _ (hk _)) r) _
          | hung => rfl
  | fork k ih =>
      cases forked with
      | true => cases hp
      | false =>
          obtain ⟨-, hleaves, hk⟩ := hp
          funext r s
          have hbind : run m (fork k >>= f) r s =
              whenEnded (m.set (m.get s)) (run m (k true >>= f) r s) (run m (k false >>= f) r) := rfl
          have hchild := run_leaves_bind (m := m) hleaves f r s
          rw [hbind, whenEnded_congr hchild.1 hchild.2, ih false hk, bind_run, run]
          dsimp only
          rcases run m (k true) r s with ⟨b | e | _, s'⟩ <;> rfl
  | wait k ih =>
      cases forked with
      | false => cases hp
      | true => exact ih hp

end Prog

/-- What a process has to itself is kept when another process has run. -/
structure Locals.Lawful (m : Locals σ ν) : Prop where
  get_set : ∀ own s, m.get (m.set own s) = own
  set_get : ∀ s, m.set (m.get s) s = s
  set_set : ∀ own own' s, m.set own (m.set own' s) = m.set own s

/-- The child that a process waits for. -/
def Process.waitsFor (p : Process ρ σ ε R L ν) : Option ℕ :=
  match p.prog with
  | .wait _ => p.child
  | _ => none

theorem Process.waitsFor_eq {Q : Unit → Φ → Prop} {forked : Bool} {φ : Φ} {p : Process ρ σ ε R L ν}
    (h : Obeys d Q forked φ p.prog) : p.waitsFor = if forked then p.child else none := by
  unfold Process.waitsFor
  split
  · rename_i k hprog
    rw [hprog] at h
    cases forked with
    | false => cases h
    | true => rfl
  · rename_i hprog
    cases forked with
    | false => rfl
    | true =>
        cases hp : p.prog with
        | wait k => exact absurd hp (hprog k)
        | _ => rw [hp] at h; cases h

/-- What the system computes from here on, if the child that the first process waits for runs first. -/
def System.value (m : Locals σ ν) (r : ρ) (sys : System ρ σ ε R L ν) (root : Process ρ σ ε R L ν) :
    Outcome ε (Option Unit) × σ :=
  match root.waitsFor.bind fun c => sys.procs[c]? with
  | none => root.prog.run m r (m.set root.locals sys.world)
  | some q => whenEnded (m.set root.locals) (q.prog.run m r (m.set q.locals sys.world)) (root.prog.run m r)

/-- The system computes the value. -/
def Computes (m : Locals σ ν) (r : ρ) (value : Outcome ε (Option Unit) × σ) (sys : System ρ σ ε R L ν) : Prop :=
  ∀ root, sys.procs[0]? = some root → sys.value m r root = value

section Computes

variable {φ₀ φ : Φ} {m : Locals σ ν} {r : ρ} {sys sys' : System ρ σ ε R L ν} {waitsFor : Option ℕ} {i : ℕ}
  {value : Outcome ε (Option Unit) × σ} {root : Process ρ σ ε R L ν}

theorem System.value_none (h : root.waitsFor = none) :
    sys.value m r root = root.prog.run m r (m.set root.locals sys.world) := by
  rw [System.value, h]
  rfl

theorem System.value_some {c : ℕ} (h : root.waitsFor = some c) {q : Process ρ σ ε R L ν} (hq : sys.procs[c]? = some q) :
    sys.value m r root =
      whenEnded (m.set root.locals) (q.prog.run m r (m.set q.locals sys.world)) (root.prog.run m r) := by
  rw [System.value, h, Option.bind_some, hq]

theorem Computes.step_child (hm : m.Lawful) (h : Disciplined d φ₀ sys φ waitsFor) (hvalue : Computes m r value sys)
    (hi : i ≠ 0) (hstep : next m r sys i = some sys') : Computes m r value sys' := by
  obtain ⟨root, hroot, hobeys, hchild⟩ := h.root
  have hbefore := hvalue root hroot
  intro root' hroot'
  obtain ⟨p, hp, ⟨label, x, k, hprog, outcome, world, hx, rfl⟩ | ⟨k, hprog, -⟩ | ⟨k, c, q, hprog, -⟩⟩ := next_cases hstep
  · obtain ⟨rfl, -⟩ := h.moving hi hp (by rw [hprog]; rfl)
    have hwaits : root.waitsFor = some i := (Process.waitsFor_eq hobeys).trans (hchild rfl)
    obtain rfl : root = root' := by
      rw [List.getElem?_set_ne hi, hroot] at hroot'
      exact Option.some.inj hroot'
    have hnew : (sys.procs.set i { p with prog := .resume k outcome, locals := m.get world })[i]? =
        some { p with prog := .resume k outcome, locals := m.get world } :=
      List.getElem?_set_self (List.getElem?_eq_some_iff.mp hp).1
    rw [System.value_some hwaits hp, hprog, Prog.run_step, hx] at hbefore
    rw [System.value_some hwaits hnew, hm.set_get]
    exact hbefore
  · have hleaves := (h.moving hi hp (by rw [hprog]; rfl)).2
    rw [hprog] at hleaves
    cases hleaves
  · have hleaves := (h.moving hi hp (by rw [hprog]; rfl)).2
    rw [hprog] at hleaves
    cases hleaves

theorem Computes.step_root (hm : m.Lawful) (h : Disciplined d φ₀ sys φ waitsFor) (hvalue : Computes m r value sys)
    (hstep : next m r sys 0 = some sys') : Computes m r value sys' := by
  obtain ⟨root, hroot, hobeys, hchild⟩ := h.root
  have hbefore := hvalue root hroot
  have hlen : 0 < sys.procs.length := (List.getElem?_eq_some_iff.mp hroot).1
  have hwaits := Process.waitsFor_eq hobeys
  obtain ⟨p, hp, hcases⟩ := next_cases hstep
  obtain rfl : root = p := Option.some.inj (hroot.symm.trans hp)
  intro root' hroot'
  rcases hcases with ⟨label, x, k, hprog, outcome, world, hx, rfl⟩ | ⟨k, hprog, rfl⟩ | ⟨k, c, q, hprog, hc, hq, hended, rfl⟩
  · rw [hprog] at hobeys
    cases waitsFor with
    | some c => cases hobeys
    | none =>
        obtain ⟨φ', -, hk⟩ := hobeys
        obtain rfl : { root with prog := .resume k outcome, locals := m.get world } = root' :=
          Option.some.inj ((List.getElem?_set_self hlen).symm.trans hroot')
        have hnone := Process.waitsFor_eq (p := { root with prog := .resume k outcome, locals := m.get world })
          (Obeys.resume hk outcome)
        rw [System.value_none hwaits, hprog, Prog.run_step, hx] at hbefore
        rw [System.value_none hnone, hm.set_get]
        exact hbefore
  · -- The child that has been forked is the one that runs first.
    rw [hprog] at hobeys
    cases waitsFor with
    | some c => cases hobeys
    | none =>
        obtain ⟨-, -, hk⟩ := hobeys
        obtain rfl : { root with prog := k false, child := some sys.procs.length } = root' := by
          rw [List.getElem?_append_left (by simpa using hlen), List.getElem?_set_self hlen] at hroot'
          exact Option.some.inj hroot'
        have hwaits' : ({ root with prog := k false, child := some sys.procs.length } : Process ρ σ ε R L ν).waitsFor =
            some sys.procs.length :=
          Process.waitsFor_eq (p := { root with prog := k false, child := some sys.procs.length }) hk
        have hnew : (sys.procs.set 0 { root with prog := k false, child := some sys.procs.length } ++
            [{ prog := k true, locals := root.locals, child := none }])[sys.procs.length]? =
            some { prog := k true, locals := root.locals, child := none } := by
          rw [List.getElem?_append_right (by simp), List.length_set, Nat.sub_self]
          rfl
        rw [System.value_none hwaits, hprog, Prog.run] at hbefore
        dsimp only at hbefore
        rw [hm.get_set] at hbefore
        rw [System.value_some hwaits' hnew]
        exact hbefore
  · rw [hprog] at hobeys
    cases waitsFor with
    | none => cases hobeys
    | some c₀ =>
        obtain rfl : { root with prog := k } = root' := Option.some.inj ((List.getElem?_set_self hlen).symm.trans hroot')
        have hnone : ({ root with prog := k } : Process ρ σ ε R L ν).waitsFor = none :=
          Process.waitsFor_eq (p := { root with prog := k }) hobeys
        rw [System.value_some (hwaits.trans hc) hq, Prog.run_ended hended, hprog] at hbefore
        rw [System.value_none hnone, ← hbefore]
        have hne := Prog.result_ne_hung hended
        cases hresult : q.prog.result with
        | hung => exact absurd hresult hne
        | done a => exact congrArg (k.run m r) (hm.set_set _ _ _).symm
        | raised e => exact congrArg (k.run m r) (hm.set_set _ _ _).symm

/-- **What a complete run computes.**  When the first process has ended, whatever the interleaving was, it has ended
like the computation in which every child runs as soon as it is forked. -/
theorem run_of_runs (hm : m.Lawful) {world : σ} {p : Prog ρ σ ε R L Unit} (hp : Obeys d (fun _ _ => True) false φ₀ p)
    {steps : List (System ρ σ ε R L ν × ℕ)} (hruns : Runs (next m r) (start m world p) steps sys)
    (hroot : sys.procs[0]? = some root) (hended : root.prog.ended = true) :
    p.run m r world = (root.prog.result, m.set root.locals sys.world) := by
  have hinv : (∃ φ waitsFor, Disciplined d φ₀ sys φ waitsFor) ∧ Computes m r (p.run m r world) sys := by
    refine Runs.always (I := fun s => (∃ φ waitsFor, Disciplined d φ₀ s φ waitsFor) ∧
      Computes m r (p.run m r world) s) hruns ⟨⟨φ₀, none, .of_start hp⟩, ?_⟩ ?_
    · intro root hroot
      obtain rfl : { prog := p, locals := m.get world, child := none } = root := Option.some.inj hroot
      have hnone := Process.waitsFor_eq (p := { prog := p, locals := m.get world, child := none }) hp
      exact (System.value_none hnone).trans (congrArg (p.run m r) (hm.set_get world))
    · rintro s i s' ⟨⟨φ, waitsFor, h⟩, hvalue⟩ hstep
      by_cases hi : i = 0
      · subst hi
        exact ⟨h.step_root hstep, hvalue.step_root hm h hstep⟩
      · exact ⟨⟨φ, waitsFor, h.step_child hi hstep⟩, hvalue.step_child hm h hi hstep⟩
  have hnone : root.waitsFor = none := by
    unfold Process.waitsFor
    cases hprog : root.prog with
    | wait k => rw [hprog] at hended; cases hended
    | _ => rfl
  rw [← hinv.2 root hroot, System.value_none hnone, Prog.run_ended hended]

end Computes

end UnicoreTsi.Processes
