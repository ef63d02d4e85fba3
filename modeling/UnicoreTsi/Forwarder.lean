/-
# UnicoreTsi.Forwarder — the two threads that forward a TCP connection.

`Forwarder.transfer` is a loop over `recv` and `send`, run once for each direction.  `Transfer.advance` is
one step of such a thread: what it does next once a call has come back with a given result.
`Forwarder.step` lets either thread take a step.  Which bytes a peer sends, how the calls divide and
interrupt them, and in which order the threads proceed is up to the events of a run; what the two threads
share is the pair of sockets, and the process, which the thread that ends first takes down.
-/
import Mathlib.Algebra.Group.Int.Defs
import UnicoreTsi.Lib.Steps
import UnicoreTsi.Utils

set_option autoImplicit false

namespace UnicoreTsi.Forwarding

/-! ## One thread -/

/-- Where a thread stands: the call it is waiting for. -/
inductive Point where
  | receiving
  | sending (buffer : List UInt8)
  /-- Reading the clock to limit the rate. -/
  | measuring
  | sleeping
  /-- In `close`, with so many of the two sockets closed. -/
  | closing (closed : Nat)
  /-- Ended by an exception outside its `try` block. -/
  | dead
  deriving DecidableEq, Repr

/-- Why the loop of a thread was left. -/
inductive Ending where
  | endOfStream
  | failed
  deriving DecidableEq, Repr

/-- The result of the call a thread is waiting for. -/
inductive Event where
  | received (buffer : List UInt8)
  | recvFailed
  | sent (n : Nat)
  | sendFailed
  /-- Milliseconds since the thread started, plus one. -/
  | measured (interval : Int)
  | slept
  | closed
  | exited
  deriving DecidableEq, Repr

/-- The local state of `transfer`, with a record of the buffers received, the buffers sent with the number
of bytes accepted of each, and why the loop was left. -/
structure Transfer where
  point : Point := .receiving
  buffers : List (List UInt8) := []
  sends : List (List UInt8 × Nat) := []
  total : Nat := 0
  sleepTime : Int := 0
  ending : Option Ending := none
  deriving DecidableEq, Repr

namespace Transfer

/-- The bytes received from the source. -/
def received (t : Transfer) : List UInt8 := t.buffers.flatten

/-- The bytes the destination has taken. -/
def delivered (t : Transfer) : List UInt8 := (t.sends.map fun p => p.1.take p.2).flatten

/-- The buffer that has been received and not been sent. -/
def inHand (t : Transfer) : List (List UInt8) :=
  match t.point with
  | .sending buffer => [buffer]
  | _ => []

/-- Leave the loop. -/
def leave (t : Transfer) (ending : Ending) : Transfer :=
  { t with point := .closing 0, ending := some ending }

/-- `current_rate < self.rate_limit`, where the rate is the double nearest to `1000 * total / interval`; `none`
where the division raises, by zero or with a quotient beyond the doubles. -/
def belowRate (total : Nat) (interval rateLimit : Int) : Option Bool :=
  if interval = 0 then none
  else (Utils.nearestDouble (1000 * total) interval.natAbs).map fun (m, e) =>
    let m : Int := if interval < 0 then -m else m
    decide (m * 2 ^ e.toNat < rateLimit * 2 ^ (-e).toNat)

/-- The longest time in milliseconds that `sleep` takes: 2 ^ 63 - 1 nanoseconds. -/
def maxSleep : Int := 9223372036854

/-- The part of the loop that limits the rate, after the clock has been read.  It is outside the `try` block. -/
def limitRate (rateLimit : Int) (t : Transfer) (interval : Int) : Transfer :=
  match belowRate t.total interval rateLimit with
  | none => { t with point := .dead }
  | some true => { t with point := .receiving, sleepTime := t.sleepTime.tdiv 2 }
  | some false =>
      -- `sleep` raises for a negative time and for one that is too long
      if t.sleepTime + 5 < 0 ∨ maxSleep < t.sleepTime + 5 then
        { t with point := .dead, sleepTime := t.sleepTime + 5 }
      else { t with point := .sleeping, sleepTime := t.sleepTime + 5 }

/-- One step of `transfer`; `none` where the event is not a result of the call that is waited for. -/
def advance (rateLimit : Int) (t : Transfer) (e : Event) : Option Transfer :=
  match t.point, e with
  | .receiving, .received buffer =>
      if buffer.length ≤ 4096 then
        if 0 < buffer.length then
          some { t with point := .sending buffer, buffers := t.buffers ++ [buffer] }
        else some (t.leave .endOfStream)
      else none
  | .receiving, .recvFailed => some (t.leave .failed)
  | .sending buffer, .sent n =>
      if n ≤ buffer.length then
        -- the source does not look at the number of bytes that were accepted
        some { t with
          point := if rateLimit > 0 then .measuring else .receiving
          sends := t.sends ++ [(buffer, n)]
          total := t.total + buffer.length }
      else none
  | .sending _, .sendFailed => some (t.leave .failed)
  | .measuring, .measured interval => some (limitRate rateLimit t interval)
  | .sleeping, .slept => some { t with point := .receiving }
  | .closing closed, .closed => if closed < 2 then some { t with point := .closing (closed + 1) } else none
  | .closing 2, .exited => some t
  | _, _ => none

end Transfer

/-! ## Both threads -/

/-- The two peers, and the thread whose source the peer is. -/
inductive Side where
  | client
  | service
  deriving DecidableEq, Repr

def Side.other : Side → Side
  | .client => .service
  | .service => .client

@[simp] theorem Side.other_other (side : Side) : side.other.other = side := by cases side <;> rfl

theorem Side.eq_or_eq_other (side side' : Side) : side' = side ∨ side' = side.other := by
  cases side <;> cases side' <;> simp [Side.other]

/-- The forwarding process: what each peer will still send before it ends its direction, the two threads,
which sockets are open, and the exit status. -/
structure Forwarder where
  incoming : Side → List UInt8
  transfers : Side → Transfer
  isOpen : Side → Bool
  exitStatus : Option Int

/-- The threads have just been started. -/
def Forwarder.start (incoming : Side → List UInt8) : Forwarder where
  incoming := incoming
  transfers _ := {}
  isOpen _ := true
  exitStatus := none

/-- Replace what belongs to one side. -/
def update {α : Type} (f : Side → α) (side : Side) (a : α) : Side → α :=
  fun side' => if side' = side then a else f side'

@[simp] theorem update_same {α : Type} (f : Side → α) (side : Side) (a : α) : update f side a side = a :=
  if_pos rfl

theorem update_other {α : Type} (f : Side → α) (side : Side) (a : α) :
    update f side a side.other = f side.other := if_neg (by cases side <;> simp [Side.other])

/-- The socket that `close` closes next. -/
def Point.socket : Point → Side
  | .closing 0 => .client
  | _ => .service

/-- Whether the operating system can give the thread of `side` this result: a call on a socket that is
closed can only fail, and `recv` returns what the peer sends, nothing only at the end of it. -/
def Forwarder.allows (f : Forwarder) (side : Side) : Event → Bool
  | .received buffer =>
      f.isOpen side && buffer.isPrefixOf (f.incoming side) && (buffer ≠ [] || f.incoming side = [])
  | .sent _ => f.isOpen side.other
  | _ => true

/-- The state after an event of the thread of `side`, which is then in the state `t`. -/
def Forwarder.after (f : Forwarder) (side : Side) (e : Event) (t : Transfer) : Forwarder where
  incoming :=
    match e with
    | .received buffer => update f.incoming side ((f.incoming side).drop buffer.length)
    | _ => f.incoming
  transfers := update f.transfers side t
  isOpen :=
    match e with
    | .closed => update f.isOpen (f.transfers side).point.socket false
    | _ => f.isOpen
  exitStatus :=
    match e with
    | .exited => some 0
    | _ => f.exitStatus

/-- The thread of the side takes a step; there are none after the process has exited. -/
def Forwarder.step (rateLimit : Int) (f : Forwarder) (p : Side × Event) : Option Forwarder :=
  if f.exitStatus.isNone && f.allows p.1 p.2 then
    ((f.transfers p.1).advance rateLimit p.2).map (f.after p.1 p.2)
  else none

end UnicoreTsi.Forwarding
