import Linkage.Proofs.Text.Decoding
import Mathlib.Algebra.Group.Nat.Defs

/-!
# Measuring tells texts from other bytes

Measuring answers with a length exactly for the encodings of texts, and then it is the number of
their scalar values (`measure_decides`).  The answer `-2` is left for all other bytes, those among
them that show at their first bytes that no text goes on so (`Utf8.Broken`).

As an encoding is read scalar value by scalar value, measuring turns joining into adding
(`measure_append`).  Conversely an encoded text may be cut anywhere (`boundary_or_inside`).
Between two scalar values both parts are encodings.  Inside one neither is: what is in front of
the cut ends with a sequence cut short, and what is behind it begins with a tail.

An answer has 63 bits for a length, and a length that needs more is answered with the greatest
number.  So sums are exact for bytes that fit into an address space, and otherwise they stop there.
-/

namespace Linkage

open Utf8

variable {a b bytes : List UInt8} {text text' : List Char}

/-! ## Lengths as answers -/

/-- A length is answered as it is, up to the greatest answer. -/
theorem toInt_lengthAnswer (n : Nat) :
    (lengthAnswer n).toInt = min (n : Int) Int64.maxValue.toInt := by
  rw [lengthAnswer, Int64.toInt_maxValue]
  split
  · rename_i small
    have small : n < 2 ^ 63 := small
    rw [Int64.toInt_ofNat_of_lt small]
    omega
  · rename_i large
    have large : ¬ n < 2 ^ 63 := large
    rw [Int64.toInt_maxValue]
    omega

theorem lengthAnswer_nonneg (n : Nat) : 0 ≤ lengthAnswer n := by
  rw [Int64.le_iff_toInt_le, toInt_lengthAnswer, Int64.toInt_maxValue, Int64.toInt_zero]
  omega

/-- Small lengths are added as numbers are. -/
theorem lengthAnswer_add {m n : Nat} (small : m + n < 2 ^ 63) :
    lengthAnswer (m + n) = lengthAnswer m + lengthAnswer n ∧
      (lengthAnswer (m + n)).toInt = (lengthAnswer m).toInt + (lengthAnswer n).toInt := by
  have fits : ∀ {k}, k ≤ m + n → lengthAnswer k = Int64.ofNat k := fun le =>
    if_pos (Nat.lt_of_le_of_lt le small)
  constructor
  · rw [fits (Nat.le_refl _), fits (Nat.le_add_right m n), fits (Nat.le_add_left n m),
      Int64.ofNat_add]
  · simp only [toInt_lengthAnswer, Int64.toInt_maxValue]
    omega

/-! ## Encodings and other bytes -/

/-- Each scalar value takes at least one byte. -/
theorem Utf8.length_le_encode (text : List Char) : text.length ≤ (encode text).length := by
  induction text with
  | nil => exact Nat.le_refl 0
  | cons c text ih =>
    have one : 0 < (String.utf8EncodeChar c).length :=
      List.length_pos_iff.mpr String.utf8EncodeChar_ne_nil
    rw [encode_cons, List.length_append, List.length_cons]
    omega

/-- The answer for an encoded text is its length. -/
theorem measure_eq_lengthAnswer (text : List Char) :
    measure (encode text) = lengthAnswer text.length := by
  rw [measure, count?_encode]

/-- An encoded text measures as many scalar values as it has. -/
theorem measure_encode (small : text.length < 2 ^ 63) :
    measure (encode text) = Int64.ofNat text.length := by
  rw [measure_eq_lengthAnswer]
  exact if_pos small

theorem measure_of_not_encoded (no : ¬ ∃ text, encode text = bytes) : measure bytes = -2 := by
  rw [measure, count?_eq_none.mpr no]
  rfl

/-- **A length is the answer for the encodings of texts.** -/
theorem measure_nonneg : 0 ≤ measure bytes ↔ ∃ text, encode text = bytes := by
  constructor
  · intro length
    apply Classical.byContradiction
    intro no
    rw [measure_of_not_encoded no] at length
    exact absurd length (by decide)
  · rintro ⟨text, rfl⟩
    rw [measure_eq_lengthAnswer]
    exact lengthAnswer_nonneg _

theorem measure_eq_invalid : measure bytes = -2 ↔ ¬ ∃ text, encode text = bytes := by
  constructor
  · intro invalid encoded
    have length := measure_nonneg.mpr encoded
    rw [invalid] at length
    exact absurd length (by decide)
  · exact measure_of_not_encoded

/-- Measuring has no other answers: none for a null pointer, and none for a breakdown. -/
theorem measure_ne (bytes : List UInt8) : measure bytes ≠ -1 ∧ measure bytes ≠ -3 := by
  rcases Decidable.em (0 ≤ measure bytes) with length | status
  · exact ⟨fun h => absurd (h ▸ length) (by decide), fun h => absurd (h ▸ length) (by decide)⟩
  · rw [measure_of_not_encoded fun encoded => status (measure_nonneg.mpr encoded)]
    decide

/-- Bytes behind an encoded text are measured as a text on their own. -/
theorem measure_encode_append (text : List Char) (b : List UInt8) :
    measure (encode text ++ b) = -2 ↔ measure b = -2 := by
  rw [measure_eq_invalid, measure_eq_invalid, ← damage_mem_pieces, ← damage_mem_pieces,
    pieces_encode_append]
  simp

theorem measure_of_broken (broken : Broken b) (text : List Char) :
    measure (encode text ++ b) = -2 :=
  measure_of_not_encoded (broken.not_encoded text)

/-! ## Measuring decides -/

/-- **Measuring decides whether bytes are a text.**  Bytes measure `n` exactly if they are the
encoding of a text of `n` scalar values, of which there is one; they measure `-2` exactly if they
encode no text, as all those do that go on behind a text with a stray tail or an unused byte, an
overlong form, a surrogate, a value past the last scalar value or a sequence cut short.  The
exported function answers for a buffer that ends with a zero byte, and whatever comes behind it,
what the bytes in front of the first zero byte measure, and none of the other statuses. -/
theorem measure_decides :
    (∀ b : List UInt8, b.length < 2 ^ 63 →
      (∀ n : Nat, (measure b).toInt = n ↔ ∃ text, encode text = b ∧ text.length = n) ∧
      (measure b = -2 ↔ ¬ ∃ text, encode text = b)) ∧
    (∀ text text', encode text = encode text' → text = text') ∧
    (∀ text b, Broken b → measure (encode text ++ b) = -2) ∧
    ∀ buffer rest : List UInt8, ∃ before after, buffer ++ [0] = before ++ 0 :: after ∧
      0 ∉ before ∧ exportedLength (some (buffer ++ 0 :: rest)) = measure before ∧
      measure before ≠ -1 ∧ measure before ≠ -3 := by
  refine ⟨fun b short => ⟨fun n => ?_, measure_eq_invalid⟩, fun _ _ => encode_injective,
    fun text b broken => measure_of_broken broken text, fun buffer rest => ?_⟩
  · have answer : ∀ text, encode text = b → (measure b).toInt = text.length := by
      rintro text rfl
      have small : text.length < 2 ^ 63 := Nat.lt_of_le_of_lt (length_le_encode text) short
      rw [measure_encode small, Int64.toInt_ofNat_of_lt small]
    constructor
    · intro length
      have nonneg : 0 ≤ measure b := by
        rw [Int64.le_iff_toInt_le, length, Int64.toInt_zero]
        exact Int.natCast_nonneg n
      obtain ⟨text, encoded⟩ := measure_nonneg.mp nonneg
      exact ⟨text, encoded, Int.ofNat.inj ((answer text encoded).symm.trans length)⟩
    · rintro ⟨text, encoded, rfl⟩
      exact answer text encoded
  · obtain ⟨before, after, whole, first⟩ := List.eq_append_cons_of_mem
      (List.mem_append_right buffer (List.mem_singleton_self (0 : UInt8)))
    refine ⟨before, after, whole, first, ?_, measure_ne before⟩
    have goes_on : buffer ++ 0 :: rest = before ++ 0 :: (after ++ rest) := by
      rw [← List.singleton_append, ← List.append_assoc, whole, List.append_assoc, List.cons_append]
    rw [goes_on, exportedLength, cString_append_zero fun x hx zero => first (zero ▸ hx)]

/-- Two scalar values in three bytes, and the same bytes without the last. -/
theorem measure_decides_short :
    (measure [0x61, 0xC3, 0xA9]).toInt = (2 : Nat) ∧ measure [0x61, 0xC3] = -2 := by
  constructor
  · refine ((measure_decides.1 _ (by decide)).1 2).mpr ⟨['a', 'é'], by decide, rfl⟩
  · have broken : Broken ((String.utf8EncodeChar 'é').take 1 ++ []) :=
      .short (by decide) (by decide) (by simp)
    exact measure_decides.2.2.1 ['a'] _ broken

/-! ## Joining -/

/-- **Behind a text, the length of a text is added to its length**, and bytes that are no text
make the whole one that is none. -/
theorem measure_append (encoded : 0 ≤ measure a) :
    (0 ≤ measure b →
      (measure (a ++ b)).toInt =
        min ((measure a).toInt + (measure b).toInt) Int64.maxValue.toInt ∧
      ((a ++ b).length < 2 ^ 63 → measure (a ++ b) = measure a + measure b ∧
        (measure (a ++ b)).toInt = (measure a).toInt + (measure b).toInt)) ∧
    (¬ 0 ≤ measure b → measure (a ++ b) = -2) := by
  obtain ⟨s, rfl⟩ := measure_nonneg.mp encoded
  constructor
  · intro also
    obtain ⟨t, rfl⟩ := measure_nonneg.mp also
    rw [← encode_append]
    simp only [measure_eq_lengthAnswer, List.length_append]
    refine ⟨?_, fun short => lengthAnswer_add ?_⟩
    · simp only [toInt_lengthAnswer, Int64.toInt_maxValue]
      omega
    · rw [← List.length_append]
      exact Nat.lt_of_le_of_lt (length_le_encode _) short
  · intro status
    rw [measure_encode_append]
    exact measure_of_not_encoded fun encoded => status (measure_nonneg.mpr encoded)

/-! ## Cutting -/

namespace Utf8

/-- A position between two scalar values of an encoded text, or at one of its ends. -/
def Boundary (text : List Char) (k : Nat) : Prop :=
  ∃ s t, text = s ++ t ∧ k = (encode s).length

/-- A position inside a scalar value of an encoded text. -/
def Inside (text : List Char) (k : Nat) : Prop :=
  ∃ s c t i, text = s ++ c :: t ∧ 0 < i ∧ i < (String.utf8EncodeChar c).length ∧
    k = (encode s).length + i

/-- Every position is of one of the two kinds. -/
theorem boundary_or_inside {k : Nat} (within : k ≤ (encode text).length) :
    Boundary text k ∨ Inside text k := by
  induction text generalizing k with
  | nil => exact Or.inl ⟨[], [], rfl, Nat.le_zero.mp within⟩
  | cons c text ih =>
    rw [encode_cons, List.length_append] at within
    rcases Nat.lt_or_ge k (String.utf8EncodeChar c).length with early | late
    · rcases Nat.eq_zero_or_pos k with rfl | some
      · exact Or.inl ⟨[], c :: text, rfl, rfl⟩
      · exact Or.inr ⟨[], c, text, k, rfl, some, early, (Nat.zero_add k).symm⟩
    · rcases ih (k := k - (String.utf8EncodeChar c).length) (by omega) with
        ⟨s, t, rfl, at_end⟩ | ⟨s, d, t, i, rfl, some, short, at_part⟩
      · refine Or.inl ⟨c :: s, t, rfl, ?_⟩
        rw [encode_cons, List.length_append, ← at_end]
        omega
      · refine Or.inr ⟨c :: s, d, t, i, rfl, some, short, ?_⟩
        rw [encode_cons, List.length_append, Nat.add_assoc, ← at_part]
        omega

/-- The parts of a text cut at a boundary are texts. -/
theorem Boundary.parts {k : Nat} (cut : Boundary text k) :
    ∃ s t, (encode text).take k = encode s ∧ (encode text).drop k = encode t := by
  obtain ⟨s, t, rfl, rfl⟩ := cut
  rw [encode_append]
  exact ⟨s, t, List.take_left, List.drop_left⟩

/-- What is in front of a cut inside a scalar value ends with a sequence cut short, and what is
behind it begins with a tail. -/
theorem Inside.parts {k : Nat} (cut : Inside text k) :
    (∃ s b, (encode text).take k = encode s ++ b ∧ Broken b) ∧ Broken ((encode text).drop k) := by
  obtain ⟨s, c, t, i, rfl, some, short, rfl⟩ := cut
  obtain ⟨b, tails, sequence, -, are⟩ := exists_tails c
  rw [encode_append, encode_cons, List.take_length_add_append, List.drop_length_add_append,
    List.take_append_of_le_length (Nat.le_of_lt short),
    List.drop_append_of_le_length (Nat.le_of_lt short)]
  refine ⟨⟨s, _, rfl, ?_⟩, ?_⟩
  · rw [← List.append_nil ((String.utf8EncodeChar c).take i)]
    exact .short some short (by simp)
  · have first : (String.utf8EncodeChar c)[i] ∈ tails := by
      obtain ⟨n, rfl⟩ : ∃ n, i = n + 1 := ⟨i - 1, by omega⟩
      simp only [sequence, List.getElem_cons_succ]
      exact List.getElem_mem _
    rw [List.drop_eq_getElem_cons short]
    exact .stray (are _ first) _

end Utf8

/-- **Joining adds lengths, and cutting undoes it at the boundaries only.**  Bytes behind a text
add their length if they are a text, and spoil it if they are none; the sum stops at the greatest
answer, which nothing shorter than `2 ^ 63` bytes comes to.  A text that is cut at a boundary gives
two texts, whose lengths make up its own; cut inside a scalar value it gives two parts that are
none.  Every position of a text is of one kind or the other. -/
theorem measure_cut_and_join :
    (∀ a b : List UInt8, 0 ≤ measure a →
      (0 ≤ measure b →
        (measure (a ++ b)).toInt =
          min ((measure a).toInt + (measure b).toInt) Int64.maxValue.toInt ∧
        ((a ++ b).length < 2 ^ 63 → measure (a ++ b) = measure a + measure b ∧
          (measure (a ++ b)).toInt = (measure a).toInt + (measure b).toInt)) ∧
      (¬ 0 ≤ measure b → measure (a ++ b) = -2)) ∧
    ∀ (text : List Char) (k : Nat), k ≤ (encode text).length →
      let front := (encode text).take k
      let back := (encode text).drop k
      (Boundary text k ∨ Inside text k) ∧
      (Boundary text k → 0 ≤ measure front ∧ 0 ≤ measure back ∧
        (measure (encode text)).toInt =
          min ((measure front).toInt + (measure back).toInt) Int64.maxValue.toInt ∧
        ((encode text).length < 2 ^ 63 → measure front + measure back = measure (encode text) ∧
          (measure front).toInt + (measure back).toInt = (measure (encode text)).toInt)) ∧
      (Inside text k → measure front = -2 ∧ measure back = -2) := by
  refine ⟨fun a b encoded => measure_append encoded, fun text k within => ?_⟩
  intro front back
  have whole : front ++ back = encode text := List.take_append_drop k _
  refine ⟨boundary_or_inside within, fun cut => ?_, fun cut => ?_⟩
  · obtain ⟨s, t, before, behind⟩ := cut.parts
    have first : 0 ≤ measure front := measure_nonneg.mpr ⟨s, before.symm⟩
    have second : 0 ≤ measure back := measure_nonneg.mpr ⟨t, behind.symm⟩
    obtain ⟨sum, exact⟩ := (measure_append first).1 second
    rw [whole] at sum exact
    exact ⟨first, second, sum, fun short => ⟨(exact short).1.symm, (exact short).2.symm⟩⟩
  · obtain ⟨⟨s, b, before, broken⟩, behind⟩ := cut.parts
    refine ⟨?_, measure_of_broken behind []⟩
    rw [show front = encode s ++ b from before]
    exact measure_of_broken broken s

/-- The text `aé` joined from its two scalar values, cut between them, and cut inside the second. -/
theorem measure_cut_and_join_short :
    measure ([0x61] ++ [0xC3, 0xA9]) = measure [0x61] + measure [0xC3, 0xA9] ∧
      0 ≤ measure ((encode ['a', 'é']).take 1) ∧ measure ((encode ['a', 'é']).take 2) = -2 := by
  have joined := (measure_cut_and_join.1 [0x61] [0xC3, 0xA9] (by decide)).1 (by decide)
  have between := measure_cut_and_join.2 ['a', 'é'] 1 (by decide)
  have inside := measure_cut_and_join.2 ['a', 'é'] 2 (by decide)
  refine ⟨(joined.2 (by decide)).1, (between.2.1 ⟨['a'], ['é'], rfl, by decide⟩).1, ?_⟩
  exact (inside.2.2 ⟨['a'], 'é', [], 1, rfl, by decide, by decide, by decide⟩).1

end Linkage
