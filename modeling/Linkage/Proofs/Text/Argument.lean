import Linkage.Function
import Linkage.Proofs.Text.Encoding

/-!
# Copies of texts

A text is copied if it has no U+0000, and the copy is its encoding; otherwise the copy is
refused with the length of what is encoded in front of the first one.
-/

namespace Linkage
namespace Argument

/-- The first zero byte is found behind bytes that are not zero. -/
theorem zeroFrom?_append {before : List UInt8} (h : (0 : UInt8) ∉ before) (n : Nat)
    (after : List UInt8) : zeroFrom? n (before ++ 0 :: after) = some (n + before.length) := by
  induction before generalizing n with
  | nil => rfl
  | cons b before ih =>
    rw [List.mem_cons, not_or] at h
    rw [List.cons_append, zeroFrom?, if_neg fun hb => h.1 hb.symm, ih h.2, List.length_cons]
    congr 1
    omega

theorem ofBytes_of_zero {bytes : List UInt8} {offset : Nat}
    (h : zeroOffset? bytes = some offset) : ofBytes bytes = .error offset := by
  unfold ofBytes
  split <;> simp_all

/-- **A text with a U+0000 is refused**, with the length of what is in front of the first. -/
theorem ofText_of_zero {text : String} {before after : List Char}
    (ht : text.toList = before ++ '\x00' :: after) (first : '\x00' ∉ before) :
    ofText text = .error (Utf8.encode before).length := by
  refine ofBytes_of_zero ?_
  rw [ht, Utf8.encode_append_zero, zeroOffset?,
    zeroFrom?_append (fun hz => first (Utf8.zero_mem_encode.mp hz)), Nat.zero_add]

/-- **A text without U+0000 is copied**, and the copy is its encoding. -/
theorem ofText_of_no_zero {text : String} (h : '\x00' ∉ text.toList) :
    ∃ argument, ofText text = .ok argument ∧ argument.bytes = Utf8.encode text.toList := by
  have none : zeroOffset? (Utf8.encode text.toList) = none := by
    refine zeroFrom?_eq_none.mpr fun b hb hz => h (Utf8.zero_mem_encode.mp (hz ▸ hb))
  unfold ofText ofBytes
  split
  · simp_all
  · exact ⟨_, rfl, rfl⟩

/-- Every text is of one of the two kinds. -/
theorem zero_cases (text : String) : '\x00' ∉ text.toList ∨
    ∃ before after, text.toList = before ++ '\x00' :: after ∧ '\x00' ∉ before := by
  by_cases h : '\x00' ∈ text.toList
  · exact Or.inr (List.eq_append_cons_of_mem h)
  · exact Or.inl h

variable {a b : Argument} {text : String}

theorem eq_of_bytes (same : a.bytes = b.bytes) : a = b := by
  cases a
  cases b
  cases same
  rfl

theorem not_zero_of_bytes (bytes : a.bytes = Utf8.encode text.toList) : '\x00' ∉ text.toList :=
  fun zero => a.no_zero 0 (bytes ▸ Utf8.zero_mem_encode.mpr zero) rfl

/-- **The copy of a text is the one with its encoding.** -/
theorem ofText_eq_ok : ofText text = .ok a ↔ a.bytes = Utf8.encode text.toList := by
  constructor
  · intro copied
    rcases zero_cases text with none | ⟨before, after, zero, first⟩
    · obtain ⟨copy, copied', bytes⟩ := ofText_of_no_zero none
      cases copied.symm.trans copied'
      exact bytes
    · cases copied.symm.trans (ofText_of_zero zero first)
  · intro bytes
    obtain ⟨copy, copied, same⟩ := ofText_of_no_zero (not_zero_of_bytes bytes)
    rw [copied, eq_of_bytes (bytes.trans same.symm)]

/-- The texts that are copied are those without U+0000. -/
theorem exists_ofText_eq_ok : (∃ a, ofText text = .ok a) ↔ '\x00' ∉ text.toList := by
  constructor
  · rintro ⟨a, copied⟩
    exact not_zero_of_bytes (ofText_eq_ok.mp copied)
  · intro none
    obtain ⟨a, copied, -⟩ := ofText_of_no_zero none
    exact ⟨a, copied⟩

end Argument
end Linkage
