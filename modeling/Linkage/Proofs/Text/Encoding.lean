import Linkage.Measure

/-!
# Encoded texts are read back

The reader of UTF-8 knows no encoder: it knows ranges of bytes.  So that it reads back
what is encoded is a statement about the ranges, for scalar values of one, two, three and
four bytes.  A scalar value of three bytes does not start with `E0 80` because it is at
least `0x800`, and not with `ED A0` because it is no surrogate; one of four bytes lies
between `F0 90` and `F4 8F` because it is at least `0x10000` and at most `0x10FFFF`.

A zero byte stands in an encoding only for U+0000, since every byte of a longer sequence
is at least `0x80`.
-/

namespace Linkage
namespace Utf8

variable {b : UInt8} {s : Started}

/-! ## Single bytes -/

theorem atRest_of_one (h : b.toNat < 0x80) : atRest b = .inl (.scalar (Char.ofNat b.toNat)) := by
  rw [atRest, if_pos (UInt8.lt_iff_toNat_lt.mpr h)]

/-- From `C2` on a byte starts a sequence. -/
theorem atRest_of_start (low : 0xC2 ≤ b.toNat) (h : start? b = some s) : atRest b = .inr s := by
  have not_one : ¬ b < 0x80 := by
    simp only [UInt8.lt_iff_toNat_lt, UInt8.reduceToNat]
    omega
  rw [atRest, if_neg not_one, h]

theorem start?_of_two (low : 0xC2 ≤ b.toNat) (high : b.toNat < 0xE0) :
    start? b = some ⟨1, 0x80, 0xBF, b.toNat - 0xC0⟩ := by
  grind [start?, UInt8.lt_iff_toNat_lt]

theorem start?_of_three (low : 0xE0 ≤ b.toNat) (high : b.toNat < 0xF0) :
    start? b = some ⟨2, if b.toNat = 0xE0 then 0xA0 else 0x80,
      if b.toNat = 0xED then 0x9F else 0xBF, b.toNat - 0xE0⟩ := by
  simp only [start?, UInt8.lt_iff_toNat_lt, ← UInt8.toNat_inj, UInt8.reduceToNat]
  grind

theorem start?_of_four (low : 0xF0 ≤ b.toNat) (high : b.toNat < 0xF5) :
    start? b = some ⟨3, if b.toNat = 0xF0 then 0x90 else 0x80,
      if b.toNat = 0xF4 then 0x8F else 0xBF, b.toNat - 0xF0⟩ := by
  simp only [start?, UInt8.lt_iff_toNat_lt, ← UInt8.toNat_inj, UInt8.reduceToNat]
  grind

/-- The last tail of a sequence completes its scalar value. -/
theorem step_of_last (owed : s.owed = 1) (low : s.low.toNat ≤ b.toNat)
    (high : b.toNat ≤ s.high.toNat) :
    step (some s) b = ([.scalar (Char.ofNat (s.bits * 64 + (b.toNat - 0x80)))], none) := by
  have admits : s.admits b = true := by
    simp [Started.admits, UInt8.le_iff_toNat_le, low, high]
  simp [step, admits, Started.extend, owed]

/-- A tail before the last leaves the sequence started. -/
theorem step_of_tail {n : Nat} (owed : s.owed = n + 2) (low : s.low.toNat ≤ b.toNat)
    (high : b.toNat ≤ s.high.toNat) :
    step (some s) b = ([], some ⟨n + 1, 0x80, 0xBF, s.bits * 64 + (b.toNat - 0x80)⟩) := by
  have admits : s.admits b = true := by
    simp [Started.admits, UInt8.le_iff_toNat_le, low, high]
  simp [step, admits, Started.extend, owed]

theorem step_of_start (low : 0xC2 ≤ b.toNat) (h : start? b = some s) :
    step none b = ([], some s) := by
  rw [step, atRest_of_start low h]

/-! ## Well-formed sequences -/

/-- Whether a byte is a tail. -/
def IsTail (b : UInt8) : Prop := 0x80 ≤ b.toNat ∧ b.toNat ≤ 0xBF

variable {b₀ b₁ b₂ b₃ : UInt8}

theorem piecesFrom_one (h : b₀.toNat < 0x80) (rest : List UInt8) :
    piecesFrom none (b₀ :: rest) = .scalar (Char.ofNat b₀.toNat) :: piecesFrom none rest := by
  rw [piecesFrom, step, atRest_of_one h]
  rfl

theorem piecesFrom_two (low : 0xC2 ≤ b₀.toNat) (high : b₀.toNat < 0xE0) (h₁ : IsTail b₁)
    (rest : List UInt8) : piecesFrom none (b₀ :: b₁ :: rest) =
      .scalar (Char.ofNat ((b₀.toNat - 0xC0) * 64 + (b₁.toNat - 0x80))) ::
        piecesFrom none rest := by
  have last := step_of_last (s := ⟨1, 0x80, 0xBF, b₀.toNat - 0xC0⟩) rfl h₁.1 h₁.2
  rw [piecesFrom, step_of_start low (start?_of_two low high), piecesFrom, last]
  rfl

/-- `E0` is not followed by less than `A0`, and `ED` not by more than `9F`. -/
theorem piecesFrom_three (low : 0xE0 ≤ b₀.toNat) (high : b₀.toNat < 0xF0) (h₁ : IsTail b₁)
    (overlong : b₀.toNat = 0xE0 → 0xA0 ≤ b₁.toNat) (surrogate : b₀.toNat = 0xED → b₁.toNat ≤ 0x9F)
    (h₂ : IsTail b₂) (rest : List UInt8) : piecesFrom none (b₀ :: b₁ :: b₂ :: rest) =
      .scalar (Char.ofNat (((b₀.toNat - 0xE0) * 64 + (b₁.toNat - 0x80)) * 64 +
        (b₂.toNat - 0x80))) :: piecesFrom none rest := by
  have least : (if b₀.toNat = 0xE0 then 0xA0 else 0x80 : UInt8).toNat ≤ b₁.toNat := by
    split
    · exact overlong ‹_›
    · exact h₁.1
  have most : b₁.toNat ≤ (if b₀.toNat = 0xED then 0x9F else 0xBF : UInt8).toNat := by
    split
    · exact surrogate ‹_›
    · exact h₁.2
  have tail := step_of_tail (n := 0) (s := ⟨2, if b₀.toNat = 0xE0 then 0xA0 else 0x80,
    if b₀.toNat = 0xED then 0x9F else 0xBF, b₀.toNat - 0xE0⟩) rfl least most
  have last := step_of_last
    (s := ⟨1, 0x80, 0xBF, (b₀.toNat - 0xE0) * 64 + (b₁.toNat - 0x80)⟩) rfl h₂.1 h₂.2
  rw [piecesFrom, step_of_start (by omega) (start?_of_three low high), piecesFrom, tail,
    piecesFrom, last]
  rfl

/-- `F0` is not followed by less than `90`, and `F4` not by more than `8F`. -/
theorem piecesFrom_four (low : 0xF0 ≤ b₀.toNat) (high : b₀.toNat < 0xF5) (h₁ : IsTail b₁)
    (overlong : b₀.toNat = 0xF0 → 0x90 ≤ b₁.toNat) (past : b₀.toNat = 0xF4 → b₁.toNat ≤ 0x8F)
    (h₂ : IsTail b₂) (h₃ : IsTail b₃) (rest : List UInt8) :
    piecesFrom none (b₀ :: b₁ :: b₂ :: b₃ :: rest) =
      .scalar (Char.ofNat ((((b₀.toNat - 0xF0) * 64 + (b₁.toNat - 0x80)) * 64 +
        (b₂.toNat - 0x80)) * 64 + (b₃.toNat - 0x80))) :: piecesFrom none rest := by
  have least : (if b₀.toNat = 0xF0 then 0x90 else 0x80 : UInt8).toNat ≤ b₁.toNat := by
    split
    · exact overlong ‹_›
    · exact h₁.1
  have most : b₁.toNat ≤ (if b₀.toNat = 0xF4 then 0x8F else 0xBF : UInt8).toNat := by
    split
    · exact past ‹_›
    · exact h₁.2
  have tail₁ := step_of_tail (n := 1) (s := ⟨3, if b₀.toNat = 0xF0 then 0x90 else 0x80,
    if b₀.toNat = 0xF4 then 0x8F else 0xBF, b₀.toNat - 0xF0⟩) rfl least most
  have tail₂ := step_of_tail (n := 0)
    (s := ⟨2, 0x80, 0xBF, (b₀.toNat - 0xF0) * 64 + (b₁.toNat - 0x80)⟩) rfl h₂.1 h₂.2
  have last := step_of_last
    (s := ⟨1, 0x80, 0xBF, ((b₀.toNat - 0xF0) * 64 + (b₁.toNat - 0x80)) * 64 + (b₂.toNat - 0x80)⟩)
    rfl h₃.1 h₃.2
  rw [piecesFrom, step_of_start (by omega) (start?_of_four low high), piecesFrom, tail₁,
    piecesFrom, tail₂, piecesFrom, last]
  rfl

/-! ## One scalar value -/

theorem toNat_lt_or (c : Char) : c.toNat < 0xD800 ∨ 0xDFFF < c.toNat ∧ c.toNat < 0x110000 :=
  c.valid

theorem toNat_ofNat {n : Nat} (h : n < 256) : (UInt8.ofNat n).toNat = n := by
  rw [UInt8.toNat_ofNat', Nat.mod_eq_of_lt h]

/-- **A scalar value is read back from its encoding**, whatever follows it. -/
theorem piecesFrom_utf8EncodeChar (c : Char) (rest : List UInt8) :
    piecesFrom none (String.utf8EncodeChar c ++ rest) = .scalar c :: piecesFrom none rest := by
  have valid := toNat_lt_or c
  have hv : c.val.toNat = c.toNat := rfl
  -- what is read is the number of `c` again
  have back : ∀ {n}, n = c.toNat → Piece.scalar (Char.ofNat n) :: piecesFrom none rest =
      .scalar c :: piecesFrom none rest := fun {n} hn => by rw [hn, Char.ofNat_toNat]
  unfold String.utf8EncodeChar
  dsimp only
  rw [hv]
  split
  · have h₀ := toNat_ofNat (n := c.toNat) (by omega)
    refine (piecesFrom_one (by omega) rest).trans (back ?_)
    omega
  split
  · have h₀ := toNat_ofNat (n := c.toNat / 64 % 0x20 + 0xC0) (by omega)
    have h₁ := toNat_ofNat (n := c.toNat % 0x40 + 0x80) (by omega)
    refine (piecesFrom_two (by omega) (by omega) ⟨by omega, by omega⟩ rest).trans (back ?_)
    omega
  split
  · have h₀ := toNat_ofNat (n := c.toNat / 4096 % 0x10 + 0xE0) (by omega)
    have h₁ := toNat_ofNat (n := c.toNat / 64 % 0x40 + 0x80) (by omega)
    have h₂ := toNat_ofNat (n := c.toNat % 0x40 + 0x80) (by omega)
    refine (piecesFrom_three (by omega) (by omega) ⟨by omega, by omega⟩ (by omega) (by omega)
      ⟨by omega, by omega⟩ rest).trans (back ?_)
    omega
  · have h₀ := toNat_ofNat (n := c.toNat / 262144 % 0x08 + 0xF0) (by omega)
    have h₁ := toNat_ofNat (n := c.toNat / 4096 % 0x40 + 0x80) (by omega)
    have h₂ := toNat_ofNat (n := c.toNat / 64 % 0x40 + 0x80) (by omega)
    have h₃ := toNat_ofNat (n := c.toNat % 0x40 + 0x80) (by omega)
    refine (piecesFrom_four (by omega) (by omega) ⟨by omega, by omega⟩ (by omega) (by omega)
      ⟨by omega, by omega⟩ ⟨by omega, by omega⟩ rest).trans (back ?_)
    omega

/-- A zero byte stands in the encoding of U+0000 only. -/
theorem zero_mem_utf8EncodeChar {c : Char} :
    (0 : UInt8) ∈ String.utf8EncodeChar c ↔ c = '\x00' := by
  have hv : c.val.toNat = c.toNat := rfl
  have zero : c = '\x00' ↔ c.toNat = 0 := by rw [← Char.toNat_inj]; rfl
  have byte : ∀ {n}, n < 256 → ((0 : UInt8) = UInt8.ofNat n ↔ n = 0) := fun {n} hn => by
    rw [← UInt8.toNat_inj, toNat_ofNat hn, eq_comm]
    rfl
  unfold String.utf8EncodeChar
  dsimp only
  rw [hv, zero]
  split
  · rw [List.mem_singleton, byte (by omega)]
  split
  · rw [List.mem_cons, List.mem_singleton, byte (by omega), byte (by omega)]
    omega
  split
  · rw [List.mem_cons, List.mem_cons, List.mem_singleton, byte (by omega), byte (by omega),
      byte (by omega)]
    omega
  · rw [List.mem_cons, List.mem_cons, List.mem_cons, List.mem_singleton, byte (by omega),
      byte (by omega), byte (by omega), byte (by omega)]
    omega

/-! ## Texts -/

/-- **The pieces of an encoded text are its scalar values.** -/
theorem pieces_encode (text : List Char) : pieces (encode text) = text.map Piece.scalar := by
  induction text with
  | nil => rfl
  | cons c text ih =>
    rw [encode_cons, pieces, piecesFrom_utf8EncodeChar, ← pieces, ih, List.map_cons]

/-- The length of an encoded text is the number of its scalar values. -/
theorem count?_encode (text : List Char) : count? (encode text) = some text.length := by
  have tally : ∀ (text : List Char) (n : Nat),
      (text.map Piece.scalar).foldl Piece.tally (some n) = some (n + text.length) := by
    intro text
    induction text with
    | nil => intro n; rfl
    | cons c text ih =>
      intro n
      rw [List.map_cons, List.foldl_cons, Piece.tally, ih, List.length_cons]
      congr 1
      omega
  rw [count?, foldFrom_eq, ← pieces, pieces_encode, tally, Nat.zero_add]

/-- **An encoded text is decoded again.** -/
theorem decode?_encode (text : List Char) : decode? (encode text) = some text := by
  have gather : ∀ text read : List Char,
      (text.map Piece.scalar).foldl Piece.gather (some read) = some (text.reverse ++ read) := by
    intro text
    induction text with
    | nil => intro read; rfl
    | cons c text ih =>
      intro read
      rw [List.map_cons, List.foldl_cons, Piece.gather, ih, List.reverse_cons, List.append_assoc,
        List.singleton_append]
  rw [decode?, foldFrom_eq, ← pieces, pieces_encode, gather, List.append_nil, Option.map_some,
    List.reverse_reverse]

theorem zero_mem_encode {text : List Char} : (0 : UInt8) ∈ encode text ↔ '\x00' ∈ text := by
  rw [encode, List.mem_flatMap]
  constructor
  · rintro ⟨c, hc, hz⟩
    exact zero_mem_utf8EncodeChar.mp hz ▸ hc
  · intro hc
    exact ⟨_, hc, zero_mem_utf8EncodeChar.mpr rfl⟩

/-- A U+0000 is encoded as one zero byte. -/
theorem encode_append_zero (before after : List Char) :
    encode (before ++ '\x00' :: after) = encode before ++ 0 :: encode after := by
  rw [encode_append, encode_cons]
  rfl

/-- In a text of ASCII characters each is one byte. -/
theorem length_encode_of_ascii {text : List Char} (h : ∀ c ∈ text, c.toNat < 0x80) :
    (encode text).length = text.length := by
  induction text with
  | nil => rfl
  | cons c text ih =>
    have one : String.utf8EncodeChar c = [UInt8.ofNat c.toNat] := by
      have hc := h c List.mem_cons_self
      unfold String.utf8EncodeChar
      exact if_pos (Nat.le_of_lt_succ hc)
    rw [encode_cons, one, List.length_append, ih fun d hd => h d (List.mem_cons_of_mem c hd),
      List.length_singleton, List.length_cons, Nat.add_comm]

end Utf8
end Linkage
