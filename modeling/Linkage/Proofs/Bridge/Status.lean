import Linkage.CallStatus

/-!
# What a status tells

A number that is not negative is a length and has no status, and every other number has
one.  A status loses nothing: it gives back the one number that it stands for
(`CallStatus.code_of_ofAnswer?`), so two different answers never have the same status, and
a status without a meaning of its own stands for none of the three numbers that have one.
-/

namespace Linkage
namespace CallStatus

variable {raw : Int64}

/-- Exactly the negative answers have a status. -/
theorem ofAnswer?_eq_none : ofAnswer? raw = none ↔ 0 ≤ raw := by
  unfold ofAnswer?
  split
  · simp [*]
  · simp only [*, iff_false]
    split
    · simp
    · split
      · simp
      · split <;> simp

theorem negative_of_ofAnswer? {status : CallStatus} (h : ofAnswer? raw = some status) :
    raw < 0 := by
  refine Int64.not_le.mp fun length => ?_
  rw [ofAnswer?_eq_none.mpr length] at h
  exact absurd h (by simp)

/-- An unknown status is the answer itself, and none of those with a meaning. -/
theorem eq_of_unknown {code : Int64} (h : ofAnswer? raw = some (.unknown code)) :
    code = raw ∧ raw ≠ nullArgumentCode ∧ raw ≠ invalidEncodingCode ∧ raw ≠ panickedCode := by
  unfold ofAnswer? at h
  split at h
  · exact absurd h (by simp)
  · split at h
    · exact absurd h (by simp)
    · split at h
      · exact absurd h (by simp)
      · split at h
        · exact absurd h (by simp)
        · exact ⟨by simpa using h.symm, by assumption, by assumption, by assumption⟩

/-- The answer that a status stands for. -/
def code : CallStatus → Int64
  | .nullArgument => nullArgumentCode
  | .invalidEncoding => invalidEncodingCode
  | .panicked => panickedCode
  | .unknown code => code

/-- A status stands for the one answer that has it. -/
theorem code_of_ofAnswer? {status : CallStatus} (h : ofAnswer? raw = some status) :
    status.code = raw := by
  unfold ofAnswer? at h
  split at h
  · exact absurd h (by simp)
  · split at h
    · cases h
      exact Eq.symm ‹_›
    · split at h
      · cases h
        exact Eq.symm ‹_›
      · split at h
        · cases h
          exact Eq.symm ‹_›
        · cases h
          rfl

end CallStatus
end Linkage
