import Linkage.Proofs.Bridge.Stages
import Linkage.Proofs.Text.Measuring

/-!
# The length of a text, from end to end

Through a bridge that has bound the measuring function, a call answers with the number of
scalar values of the text.  The text is encoded, ended with a zero byte, read back up to
that byte, checked and counted; that nothing is lost on the way needs that no byte of the
encoding is zero, and that whatever is encoded is well-formed to the reader.
-/

namespace Linkage

/-- The measuring function, called with a copy of a text. -/
theorem scalarLength_invoke {text : List Char} (copied : '\x00' ∉ text) :
    Function.scalarLength.invoke (Utf8.encode text ++ [0]) = measure (Utf8.encode text) := by
  have nonzero : ∀ b ∈ Utf8.encode text, b ≠ 0 := fun b hb hz =>
    copied (Utf8.zero_mem_encode.mp (hz ▸ hb))
  rw [Function.invoke, exportedLength, cString_append_zero nonzero []]

namespace Process

/-- **The length of a text.**  Where loading and binding succeed and what is bound is the
measuring function, a call answers with the number of scalar values of the text if it has no
U+0000, and refuses it with the offset of the first if it has; no call fails with a
status. -/
theorem call_measures {p q : Process} {b : BridgeId} {r : SymbolReference} (text : String)
    (resolved : p.resolved b = (.ok r, q)) (native : r.function = .scalarLength)
    (small : (Utf8.encode text.toList).length < 2 ^ 63) :
    ('\x00' ∉ text.toList → ∃ n : Int64, (p.call b text).1 = .ok n ∧
      n.toInt = text.toList.length ∧ n = measure (Utf8.encode text.toList) ∧
      ((∀ c ∈ text.toList, c.toNat < 0x80) → n.toInt = (Utf8.encode text.toList).length)) ∧
    (∀ before after, text.toList = before ++ '\x00' :: after → '\x00' ∉ before →
      (p.call b text).1 = .error (.marshal (Utf8.encode before).length)) ∧
    ∀ symbol status, (p.call b text).1 ≠ .error (.invocation symbol status) := by
  have fits : text.toList.length < 2 ^ 63 :=
    Nat.lt_of_le_of_lt (Utf8.length_le_encode text.toList) small
  have called : p.call b text = q.invoke r text := by rw [call, resolved]
  have value : (Int64.ofNat text.toList.length).toInt = text.toList.length :=
    Int64.toInt_ofNat_of_lt fits
  have copied : '\x00' ∉ text.toList →
      (p.call b text).1 = .ok (Int64.ofNat text.toList.length) := by
    intro copied
    have length : 0 ≤ Int64.ofNat text.toList.length := by
      rw [Int64.le_iff_toInt_le, value]
      exact Int.natCast_nonneg _
    have answers : Answers q r.name r.function text (.ok (Int64.ofNat text.toList.length)) _ :=
      .answers copied (by rw [native, scalarLength_invoke copied, measure_encode fits]) length
    rw [called, answers.eq_invoke]
  have refused : ∀ before after, text.toList = before ++ '\x00' :: after → '\x00' ∉ before →
      (p.call b text).1 = .error (.marshal (Utf8.encode before).length) := by
    intro before after zero first
    have answers : Answers q r.name r.function text _ q := .refused zero first
    rw [called, answers.eq_invoke]
  refine ⟨fun none => ⟨_, copied none, value, (measure_encode fits).symm, fun ascii => ?_⟩,
    refused, fun symbol status failed => ?_⟩
  · rw [value, Utf8.length_encode_of_ascii ascii]
  · rcases Argument.zero_cases text with none | ⟨before, after, zero, first⟩
    · exact absurd ((copied none).symm.trans failed) (by simp)
    · exact absurd ((refused before after zero first).symm.trans failed) (by simp)

/-- A bridge over a function linked into the program measures two scalar values in three
bytes, and finds a U+0000 behind one of two bytes. -/
theorem call_measures_linked :
    let p := ((Process.start ⟨.empty, ["gone"], none, none, []⟩).newBridge "l" "f"
      ⟨.inProcess ⟨0, "l", [("f", .scalarLength)]⟩, none, none⟩).2
    (∃ n : Int64, (p.call 0 "aé").1 = .ok n ∧ n.toInt = 2) ∧
      (p.call 0 "é\x00b").1 = .error (.marshal 2) := by
  intro p
  have resolved : p.resolved 0 = (.ok ⟨0, "f", .callable, .scalarLength⟩, (p.resolved 0).2) :=
    Prod.ext (by decide) rfl
  constructor
  · obtain ⟨n, call, value, -⟩ := (call_measures "aé" resolved rfl (by decide)).1 (by decide)
    exact ⟨n, call, value⟩
  · exact (call_measures "é\x00b" resolved rfl (by decide)).2.1 ['é'] ['b'] rfl (by decide)

end Process
end Linkage
