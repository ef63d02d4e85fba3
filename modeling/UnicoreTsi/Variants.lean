/-
# UnicoreTsi.Variants — the four variants under one type.

A statement about every variant is one about every `v : Variant`.  What a variant's `extract_info` and
`convert_status` compute is total, and `info` and `ustate` are these functions without their exceptions.
-/
import UnicoreTsi.BssNobatch
import UnicoreTsi.BssSlurm
import UnicoreTsi.BssTorque
import UnicoreTsi.BssLsf

set_option autoImplicit false

namespace UnicoreTsi.BssCommon

open UnicoreTsi.Text UnicoreTsi.BssNobatch

inductive Variant where
  | nobatch | slurm | torque | lsf
  deriving DecidableEq, Repr

namespace Variant

def hooks : Variant → BssHooks
  | nobatch => nobatchHooks
  | slurm => BssSlurm.slurmHooks
  | torque => BssTorque.torqueHooks
  | lsf => BssLsf.lsfHooks

def bss : Variant → Bss
  | nobatch => BssNobatch.nobatch
  | slurm => BssSlurm.slurm
  | torque => BssTorque.torque
  | lsf => BssLsf.lsf

/-- Job id, state and queue of a line of the status listing. -/
def info : Variant → Host → Str → Option (Str × Str × Str)
  | nobatch => BssNobatch.extractInfo
  | slurm => BssSlurm.extractInfo
  | torque => fun _ => BssTorque.extractInfo
  | lsf => BssLsf.extractInfo

/-- The UNICORE state of a state of the batch system. -/
def ustate : Variant → Str → Str
  | nobatch => BssNobatch.convertStatus
  | slurm => BssSlurm.convertStatus
  | torque => BssTorque.convertStatus
  | lsf => BssLsf.convertStatus

theorem extractInfo_eq (v : Variant) (host : Host) (line : Str) :
    v.hooks.extractInfo host line = .ok (v.info host line) := by
  cases v <;> rfl

theorem convertStatus_eq (v : Variant) (state : Str) : v.hooks.convertStatus state = .ok (v.ustate state) := by
  cases v <;> rfl

/-- Every variant knows the states of UNICORE. -/
theorem ustate_mem (v : Variant) (state : Str) : v.ustate state ∈ ustates := by
  cases v with
  | nobatch =>
      show (if _ then _ else _) ∈ ustates
      split <;> decide
  | slurm =>
      show BssSlurm.convertStatus state ∈ ustates
      unfold BssSlurm.convertStatus
      split
      · rename_i ustate states hfind
        have hmem := List.mem_of_find?_eq_some hfind
        have hall : ∀ entry ∈ BssSlurm.decoders, entry.1 ∈ ustates := by decide
        exact hall _ hmem
      · decide
  | torque =>
      show BssTorque.convertStatus state ∈ ustates
      unfold BssTorque.convertStatus
      repeat' split
      all_goals decide
  | lsf =>
      show BssLsf.convertStatus state ∈ ustates
      unfold BssLsf.convertStatus
      repeat' split
      all_goals decide

end Variant

end UnicoreTsi.BssCommon
