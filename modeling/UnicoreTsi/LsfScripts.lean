/-
# UnicoreTsi.LsfScripts — when the LSF generator has no script.

`create_submit_script` compares numbers with the text `NONE`, so none of its guards applies to a number: the
minutes are computed for every wall time and the memory per process for every memory, where `-1` stands for a
number that is not given.  Sixty divides whatever there is; the processors per node divide unless they are zero.
-/
import UnicoreTsi.NotSupplied

set_option autoImplicit false

namespace UnicoreTsi.BssCommon

open UnicoreTsi.Text UnicoreTsi.Effects UnicoreTsi.Utils UnicoreTsi.BssScript

/-! ## Quotients of numbers of a message -/

/-- The quotient of a number of a message is there for every divisor but zero: a divisor of two or more makes it
smaller, and a divisor of one leaves it as it is. -/
theorem truncQuotient_ok_iff (message parameter : Str) (b : ℤ) :
    (∃ q, truncQuotient (extractNumber message parameter) b = .ok q) ↔ b ≠ 0 := by
  constructor
  · rintro ⟨q, hq⟩ rfl
    cases hq
  · intro hb
    have hsome : ∃ v, truncDouble (extractNumber message parameter).natAbs b.natAbs = some v := by
      rcases Nat.lt_or_ge b.natAbs 2 with hone | htwo
      · have habs : b.natAbs = 1 := by omega
        rw [habs]
        exact ⟨_, truncDouble_extractNumber message parameter⟩
      · exact truncDouble_isSome htwo (log2_extractNumber_lt message parameter)
    obtain ⟨v, hv⟩ := hsome
    rw [truncQuotient, if_neg hb, hv]
    exact ⟨_, rfl⟩

/-! ## The script -/

section Script

variable {config : Settings} {factor : Str} {n : ℤ}

theorem lsfMemory_ok_iff (hfactor : config.lsfMemoryConversionFactor = some factor)
    (hint : pyInt 10 factor = .ok n) (message : Str) :
    (∃ memory, lsfMemory config message = .ok memory) ↔ extractNumber message "PROCESSORS_PER_NODE".toList ≠ 0 := by
  rw [← truncQuotient_ok_iff message "MEMORY".toList, lsfMemory, BssLsf.memoryPerProcess, hfactor]
  show (∃ memory, (truncQuotient _ _ >>= fun memory => pyInt 10 factor >>= fun factor => _) = _) ↔ _
  rw [hint]
  constructor
  · rintro ⟨memory, h⟩
    obtain ⟨q, hq, -⟩ := except_bind_eq_ok.mp h
    exact ⟨q, hq⟩
  · rintro ⟨q, hq⟩
    refine ⟨q * n, ?_⟩
    rw [hq]
    rfl

/-- **When LSF gets a script.**  With a conversion factor that is an integer the generator returns a list of
lines exactly if the processors per node are not zero, and divides by zero exactly if they are. -/
theorem lsf_script_iff (hfactor : config.lsfMemoryConversionFactor = some factor)
    (hint : pyInt 10 factor = .ok n) (message : Str) :
    ((∃ lines, BssLsf.createSubmitScript config message = .ok lines) ↔
      extractNumber message "PROCESSORS_PER_NODE".toList ≠ 0) ∧
    (BssLsf.createSubmitScript config message = .error divisionByZero ↔
      extractNumber message "PROCESSORS_PER_NODE".toList = 0) := by
  obtain ⟨minutes, -, hscript⟩ := lsf_script config message
  have hok : (∃ lines, BssLsf.createSubmitScript config message = .ok lines) ↔ extractNumber message "PROCESSORS_PER_NODE".toList ≠ 0 := by
    rw [hscript, ← lsfMemory_ok_iff hfactor hint]
    constructor
    · rintro ⟨lines, h⟩
      obtain ⟨memory, hmemory, -⟩ := except_map_eq_ok.mp h
      exact ⟨memory, hmemory⟩
    · rintro ⟨memory, hmemory⟩
      rw [hmemory]
      exact ⟨_, rfl⟩
  refine ⟨hok, ?_⟩
  constructor
  · intro herror
    by_contra hne
    obtain ⟨lines, hlines⟩ := hok.mpr hne
    rw [herror] at hlines
    cases hlines
  · intro hzero
    rw [hscript, lsfMemory, hzero]
    rfl

end Script

/-- A message with the tested parameters. -/
def lsfMessage : Str := "#TSI_MEMORY 32\n#TSI_NODES 2\n#TSI_PROCESSORS_PER_NODE 64\n".toList

theorem lsf_script_iff_lsfMessage :
    ((∃ lines, BssLsf.createSubmitScript BssLsf.defaults lsfMessage = .ok lines) ↔
      extractNumber lsfMessage "PROCESSORS_PER_NODE".toList ≠ 0) ∧
    (BssLsf.createSubmitScript BssLsf.defaults lsfMessage = .error divisionByZero ↔
      extractNumber lsfMessage "PROCESSORS_PER_NODE".toList = 0) :=
  lsf_script_iff (show BssLsf.defaults.lsfMemoryConversionFactor = some "1".toList from rfl)
    (show pyInt 10 "1".toList = .ok 1 by decide +kernel) lsfMessage

/-- Zero processors per node: no script. -/
theorem zero_processors_raise :
    BssLsf.createSubmitScript BssLsf.defaults "#TSI_PROCESSORS_PER_NODE 0\n".toList = .error divisionByZero ∧
      ¬ ∃ lines, BssLsf.createSubmitScript BssLsf.defaults "#TSI_PROCESSORS_PER_NODE 0\n".toList = .ok lines := by
  have hraised : BssLsf.createSubmitScript BssLsf.defaults "#TSI_PROCESSORS_PER_NODE 0\n".toList =
      .error divisionByZero := by decide +kernel
  refine ⟨hraised, ?_⟩
  rintro ⟨lines, hlines⟩
  rw [hraised] at hlines
  cases hlines

end UnicoreTsi.BssCommon
