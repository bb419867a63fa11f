import Linkage.Proofs.Text.Encoding

/-!
# Only encodings are read without damage

An encoded text is read back as its scalar values (`pieces_encode`).  This is the other half:
bytes that are read as a row of scalar values are the encoding of these (`pieces_eq_map_scalar`).
The ranges that refuse overlong forms, surrogates and values past the last scalar value are just
narrow enough for it.  A sequence that stays inside them has a number that needs all its bytes and
is no surrogate, so encoding the number gives the sequence again.

The reader is inverted one byte at a time: what begins with a scalar value is not at its end,
and the next byte lies in the range (`exists_of_tail`, `exists_of_last`).

From both halves, an encoding can be read in one way only.  Besides, its first byte
tells how many tails follow (`exists_tails`), so that a sequence cut short is the beginning of no
other one, and what is left of it begins with a tail.
-/

namespace Linkage
namespace Utf8

variable {b b₀ b₁ b₂ b₃ : UInt8} {s : Started} {bytes rest : List UInt8} {c : Char}
  {ps : List Piece} {text : List Char}

/-! ## Single bytes -/

/-- Tails and bytes that start nothing are damage on their own. -/
theorem step_of_stray (h : 0x80 ≤ b.toNat ∧ b.toNat < 0xC2 ∨ 0xF5 ≤ b.toNat) :
    step none b = ([.damage], none) := by
  have not_one : ¬ b < 0x80 := by
    simp only [UInt8.lt_iff_toNat_lt, UInt8.reduceToNat]
    omega
  have starts_nothing : start? b = none := by
    simp only [start?, UInt8.lt_iff_toNat_lt, ← UInt8.toNat_inj, UInt8.reduceToNat]
    grind
  rw [step, atRest, if_neg not_one, starts_nothing]

/-- A byte out of the range ends a sequence as damage. -/
theorem step_of_not_admits (h : s.admits b = false) :
    ∃ ps next, step (some s) b = (.damage :: ps, next) := by
  simp only [step, h, Bool.false_eq_true, if_false]
  split
  · exact ⟨_, _, rfl⟩
  · exact ⟨_, _, rfl⟩

theorem toNat_of_admits (h : s.admits b = true) :
    s.low.toNat ≤ b.toNat ∧ b.toNat ≤ s.high.toNat := by
  simpa [Started.admits, UInt8.le_iff_toNat_le] using h

/-- A sequence that goes on to a scalar value goes on with a byte of the range. -/
theorem exists_of_started (h : piecesFrom (some s) bytes = .scalar c :: ps) :
    ∃ b rest, bytes = b :: rest ∧ s.low.toNat ≤ b.toNat ∧ b.toNat ≤ s.high.toNat := by
  cases bytes with
  | nil => exact absurd h (by simp [piecesFrom, finish])
  | cons b rest =>
    rcases admits : s.admits b with _ | _
    · obtain ⟨_, _, damaged⟩ := step_of_not_admits admits
      exact absurd h (by simp [piecesFrom, damaged])
    · exact ⟨b, rest, rfl, toNat_of_admits admits⟩

/-- Where one tail is owed, it completes the scalar value. -/
theorem exists_of_last (owed : s.owed = 1) (h : piecesFrom (some s) bytes = .scalar c :: ps) :
    ∃ b rest, bytes = b :: rest ∧ s.low.toNat ≤ b.toNat ∧ b.toNat ≤ s.high.toNat ∧
      Char.ofNat (s.bits * 64 + (b.toNat - 0x80)) = c ∧ piecesFrom none rest = ps := by
  obtain ⟨b, rest, rfl, low, high⟩ := exists_of_started h
  rw [piecesFrom, step_of_last owed low high] at h
  obtain ⟨first, others⟩ := List.cons.inj h
  exact ⟨b, rest, rfl, low, high, Piece.scalar.inj first, others⟩

/-- Where more tails are owed, one of them follows. -/
theorem exists_of_tail {n : Nat} (owed : s.owed = n + 2)
    (h : piecesFrom (some s) bytes = .scalar c :: ps) :
    ∃ b rest, bytes = b :: rest ∧ s.low.toNat ≤ b.toNat ∧ b.toNat ≤ s.high.toNat ∧
      piecesFrom (some ⟨n + 1, 0x80, 0xBF, s.bits * 64 + (b.toNat - 0x80)⟩) rest =
        .scalar c :: ps := by
  obtain ⟨b, rest, rfl, low, high⟩ := exists_of_started h
  rw [piecesFrom, step_of_tail owed low high] at h
  exact ⟨b, rest, rfl, low, high, h⟩

/-! ## Sequences -/

theorem toNat_charOfNat {n : Nat} (valid : n < 0xD800 ∨ 0xDFFF < n ∧ n < 0x110000) :
    (Char.ofNat n).val.toNat = n := by
  rw [Char.ofNat, dif_pos valid]
  rfl

theorem utf8EncodeChar_one (high : b₀.toNat < 0x80) :
    String.utf8EncodeChar (Char.ofNat b₀.toNat) = [b₀] := by
  unfold String.utf8EncodeChar
  rw [toNat_charOfNat (by omega)]
  dsimp only
  rw [if_pos (by omega), UInt8.ofNat_toNat]

/-- Bytes of given numbers are the bytes with these numbers. -/
theorem ofNat_eq {n : Nat} (h : n = b.toNat) : UInt8.ofNat n = b := by rw [h, UInt8.ofNat_toNat]

theorem utf8EncodeChar_two (low : 0xC2 ≤ b₀.toNat) (high : b₀.toNat < 0xE0) (h₁ : IsTail b₁) :
    String.utf8EncodeChar (Char.ofNat ((b₀.toNat - 0xC0) * 64 + (b₁.toNat - 0x80))) =
      [b₀, b₁] := by
  obtain ⟨low₁, high₁⟩ := h₁
  unfold String.utf8EncodeChar
  rw [toNat_charOfNat (by omega)]
  dsimp only
  rw [if_neg (by omega), if_pos (by omega), ofNat_eq (b := b₀) (by omega),
    ofNat_eq (b := b₁) (by omega)]

theorem utf8EncodeChar_three (low : 0xE0 ≤ b₀.toNat) (high : b₀.toNat < 0xF0) (h₁ : IsTail b₁)
    (overlong : b₀.toNat = 0xE0 → 0xA0 ≤ b₁.toNat) (surrogate : b₀.toNat = 0xED → b₁.toNat ≤ 0x9F)
    (h₂ : IsTail b₂) :
    String.utf8EncodeChar (Char.ofNat (((b₀.toNat - 0xE0) * 64 + (b₁.toNat - 0x80)) * 64 +
      (b₂.toNat - 0x80))) = [b₀, b₁, b₂] := by
  obtain ⟨low₁, high₁⟩ := h₁
  obtain ⟨low₂, high₂⟩ := h₂
  unfold String.utf8EncodeChar
  rw [toNat_charOfNat (by omega)]
  dsimp only
  rw [if_neg (by omega), if_neg (by omega), if_pos (by omega), ofNat_eq (b := b₀) (by omega),
    ofNat_eq (b := b₁) (by omega), ofNat_eq (b := b₂) (by omega)]

theorem utf8EncodeChar_four (low : 0xF0 ≤ b₀.toNat) (high : b₀.toNat < 0xF5) (h₁ : IsTail b₁)
    (overlong : b₀.toNat = 0xF0 → 0x90 ≤ b₁.toNat) (past : b₀.toNat = 0xF4 → b₁.toNat ≤ 0x8F)
    (h₂ : IsTail b₂) (h₃ : IsTail b₃) :
    String.utf8EncodeChar (Char.ofNat ((((b₀.toNat - 0xF0) * 64 + (b₁.toNat - 0x80)) * 64 +
      (b₂.toNat - 0x80)) * 64 + (b₃.toNat - 0x80))) = [b₀, b₁, b₂, b₃] := by
  obtain ⟨low₁, high₁⟩ := h₁
  obtain ⟨low₂, high₂⟩ := h₂
  obtain ⟨low₃, high₃⟩ := h₃
  unfold String.utf8EncodeChar
  rw [toNat_charOfNat (by omega)]
  dsimp only
  rw [if_neg (by omega), if_neg (by omega), if_neg (by omega), ofNat_eq (b := b₀) (by omega),
    ofNat_eq (b := b₁) (by omega), ofNat_eq (b := b₂) (by omega), ofNat_eq (b := b₃) (by omega)]

/-- What the range behind the first of three bytes says of the second. -/
theorem range_of_three (low : (if b₀.toNat = 0xE0 then 0xA0 else 0x80 : UInt8).toNat ≤ b₁.toNat)
    (high : b₁.toNat ≤ (if b₀.toNat = 0xED then 0x9F else 0xBF : UInt8).toNat) :
    IsTail b₁ ∧ (b₀.toNat = 0xE0 → 0xA0 ≤ b₁.toNat) ∧ (b₀.toNat = 0xED → b₁.toNat ≤ 0x9F) := by
  unfold IsTail
  split at low <;> split at high <;> simp only [UInt8.reduceToNat] at low high <;> omega

/-- What the range behind the first of four bytes says of the second. -/
theorem range_of_four (low : (if b₀.toNat = 0xF0 then 0x90 else 0x80 : UInt8).toNat ≤ b₁.toNat)
    (high : b₁.toNat ≤ (if b₀.toNat = 0xF4 then 0x8F else 0xBF : UInt8).toNat) :
    IsTail b₁ ∧ (b₀.toNat = 0xF0 → 0x90 ≤ b₁.toNat) ∧ (b₀.toNat = 0xF4 → b₁.toNat ≤ 0x8F) := by
  unfold IsTail
  split at low <;> split at high <;> simp only [UInt8.reduceToNat] at low high <;> omega

/-- A first byte is a whole sequence, asks for one, two or three tails, or starts nothing. -/
theorem first_cases (b : UInt8) : b.toNat < 0x80 ∨ (0xC2 ≤ b.toNat ∧ b.toNat < 0xE0) ∨
    (0xE0 ≤ b.toNat ∧ b.toNat < 0xF0) ∨ (0xF0 ≤ b.toNat ∧ b.toNat < 0xF5) ∨
    (0x80 ≤ b.toNat ∧ b.toNat < 0xC2 ∨ 0xF5 ≤ b.toNat) := by omega

/-- **What begins with a scalar value begins with its encoding.** -/
theorem exists_of_scalar (h : piecesFrom none bytes = .scalar c :: ps) :
    ∃ rest, bytes = String.utf8EncodeChar c ++ rest ∧ piecesFrom none rest = ps := by
  cases bytes with
  | nil => exact absurd h (by simp [piecesFrom, finish])
  | cons b₀ bytes =>
    rcases first_cases b₀ with one | ⟨low, high⟩ | ⟨low, high⟩ | ⟨low, high⟩ | stray
    · rw [piecesFrom_one one] at h
      obtain ⟨first, others⟩ := List.cons.inj h
      obtain rfl := Piece.scalar.inj first
      exact ⟨bytes, by rw [utf8EncodeChar_one one]; rfl, others⟩
    · rw [piecesFrom, step_of_start low (start?_of_two low high)] at h
      obtain ⟨b₁, rest, rfl, low₁, high₁, rfl, others⟩ := exists_of_last rfl h
      exact ⟨rest, by rw [utf8EncodeChar_two low high ⟨low₁, high₁⟩]; rfl, others⟩
    · rw [piecesFrom, step_of_start (by omega) (start?_of_three low high)] at h
      obtain ⟨b₁, _, rfl, low₁, high₁, h⟩ := exists_of_tail (n := 0) rfl h
      obtain ⟨b₂, rest, rfl, low₂, high₂, rfl, others⟩ := exists_of_last rfl h
      obtain ⟨tail₁, overlong, surrogate⟩ := range_of_three low₁ high₁
      refine ⟨rest, ?_, others⟩
      rw [utf8EncodeChar_three low high tail₁ overlong surrogate ⟨low₂, high₂⟩]
      rfl
    · rw [piecesFrom, step_of_start (by omega) (start?_of_four low high)] at h
      obtain ⟨b₁, _, rfl, low₁, high₁, h⟩ := exists_of_tail (n := 1) rfl h
      obtain ⟨b₂, _, rfl, low₂, high₂, h⟩ := exists_of_tail (n := 0) rfl h
      obtain ⟨b₃, rest, rfl, low₃, high₃, rfl, others⟩ := exists_of_last rfl h
      obtain ⟨tail₁, overlong, past⟩ := range_of_four low₁ high₁
      refine ⟨rest, ?_, others⟩
      rw [utf8EncodeChar_four low high tail₁ overlong past ⟨low₂, high₂⟩ ⟨low₃, high₃⟩]
      rfl
    · exact absurd h (by simp [piecesFrom, step_of_stray stray])

/-! ## Texts -/

/-- A started sequence gives at least one piece. -/
theorem piecesFrom_started_ne_nil (s : Started) (bytes : List UInt8) :
    piecesFrom (some s) bytes ≠ [] := by
  induction bytes generalizing s with
  | nil => simp [piecesFrom, finish]
  | cons b rest ih =>
    rw [piecesFrom, step]
    split
    · split
      · simp
      · exact ih _
    · split <;> simp

theorem piecesFrom_eq_nil : piecesFrom none bytes = [] ↔ bytes = [] := by
  constructor
  · intro h
    cases bytes with
    | nil => rfl
    | cons b rest =>
      rw [piecesFrom, step] at h
      split at h
      · exact absurd h (by simp)
      · exact absurd h (piecesFrom_started_ne_nil _ rest)
  · rintro rfl
    rfl

/-- **Bytes are read as a text exactly if they are its encoding.** -/
theorem pieces_eq_map_scalar : pieces bytes = text.map Piece.scalar ↔ bytes = encode text := by
  constructor
  · intro h
    induction text generalizing bytes with
    | nil => exact piecesFrom_eq_nil.mp h
    | cons c text ih =>
      obtain ⟨rest, rfl, others⟩ := exists_of_scalar h
      rw [encode_cons, ih others]
  · rintro rfl
    exact pieces_encode text

/-- An encoding is read in one way only. -/
theorem encode_injective {text' : List Char} (h : encode text = encode text') : text = text' := by
  have same : text.map Piece.scalar = text'.map Piece.scalar := by
    rw [← pieces_encode, h, pieces_encode]
  exact (List.map_inj_right fun _ _ => Piece.scalar.inj).mp same

/-- Behind an encoded text the reader is at rest. -/
theorem pieces_encode_append (text : List Char) (rest : List UInt8) :
    pieces (encode text ++ rest) = text.map Piece.scalar ++ pieces rest := by
  induction text with
  | nil => rfl
  | cons c text ih =>
    rw [encode_cons, List.append_assoc, pieces, piecesFrom_utf8EncodeChar, ← pieces, ih,
      List.map_cons, List.cons_append]

/-- Pieces without damage are the scalar values of a text. -/
theorem exists_map_scalar (h : Piece.damage ∉ ps) : ∃ text : List Char, ps = text.map .scalar := by
  induction ps with
  | nil => exact ⟨[], rfl⟩
  | cons piece ps ih =>
    rw [List.mem_cons, not_or] at h
    obtain ⟨text, rfl⟩ := ih h.2
    cases piece with
    | scalar c => exact ⟨c :: text, rfl⟩
    | damage => exact absurd rfl h.1

/-- **Bytes without damage are the encoding of a text.** -/
theorem damage_not_mem_pieces : Piece.damage ∉ pieces bytes ↔ ∃ text, encode text = bytes := by
  constructor
  · intro h
    obtain ⟨text, read⟩ := exists_map_scalar h
    exact ⟨text, (pieces_eq_map_scalar.mp read).symm⟩
  · rintro ⟨text, rfl⟩
    rw [pieces_encode]
    simp

theorem damage_mem_pieces : Piece.damage ∈ pieces bytes ↔ ¬ ∃ text, encode text = bytes := by
  rw [← damage_not_mem_pieces, Decidable.not_not]

theorem foldl_tally_none (ps : List Piece) : ps.foldl Piece.tally none = none := by
  induction ps with
  | nil => rfl
  | cons piece ps ih => exact ih

/-- Damage spoils the count. -/
theorem foldl_tally_of_damage (h : Piece.damage ∈ ps) (n : Option Nat) :
    ps.foldl Piece.tally n = none := by
  induction ps generalizing n with
  | nil => exact absurd h List.not_mem_nil
  | cons piece ps ih =>
    rcases List.mem_cons.mp h with rfl | later
    · cases n <;> exact foldl_tally_none ps
    · exact ih later _

/-- **Scalar values are counted exactly in the encodings of texts.** -/
theorem count?_eq_some {n : Nat} :
    count? bytes = some n ↔ ∃ text, encode text = bytes ∧ text.length = n := by
  constructor
  · intro counted
    have whole : Piece.damage ∉ pieces bytes := by
      intro damaged
      rw [count?, foldFrom_eq, ← pieces, foldl_tally_of_damage damaged] at counted
      cases counted
    obtain ⟨text, rfl⟩ := damage_not_mem_pieces.mp whole
    rw [count?_encode] at counted
    exact ⟨text, rfl, Option.some.inj counted⟩
  · rintro ⟨text, rfl, rfl⟩
    exact count?_encode text

theorem count?_eq_none : count? bytes = none ↔ ¬ ∃ text, encode text = bytes := by
  rw [Option.eq_none_iff_forall_ne_some]
  constructor
  · rintro none ⟨text, encoded⟩
    exact none _ (count?_eq_some.mpr ⟨text, encoded, rfl⟩)
  · intro no n counted
    obtain ⟨text, encoded, -⟩ := count?_eq_some.mp counted
    exact no ⟨text, encoded⟩

/-! ## Sequences cut short -/

/-- How many tails a first byte asks for. -/
def tailsOf (b : UInt8) : Nat :=
  if b.toNat < 0xC0 then 0 else if b.toNat < 0xE0 then 1 else if b.toNat < 0xF0 then 2 else 3

/-- **The first byte of an encoding tells how many tails follow**, and the others are these. -/
theorem exists_tails (c : Char) : ∃ b tails, String.utf8EncodeChar c = b :: tails ∧
    tails.length = tailsOf b ∧ ∀ t ∈ tails, IsTail t := by
  have valid := toNat_lt_or c
  have hv : c.val.toNat = c.toNat := rfl
  have tail : ∀ {n}, n < 64 → IsTail (UInt8.ofNat (n + 0x80)) := fun {n} hn => by
    rw [IsTail, toNat_ofNat (by omega)]
    omega
  unfold String.utf8EncodeChar
  dsimp only
  rw [hv]
  split
  · refine ⟨_, [], rfl, ?_, by simp⟩
    rw [tailsOf, toNat_ofNat (by omega), if_pos (by omega)]
    rfl
  split
  · refine ⟨_, [_], rfl, ?_, ?_⟩
    · rw [tailsOf, toNat_ofNat (by omega), if_neg (by omega), if_pos (by omega)]
      rfl
    · simp only [List.mem_singleton, forall_eq]
      exact tail (by omega)
  split
  · refine ⟨_, [_, _], rfl, ?_, ?_⟩
    · rw [tailsOf, toNat_ofNat (by omega), if_neg (by omega), if_neg (by omega),
        if_pos (by omega)]
      rfl
    · simp only [List.mem_cons, List.not_mem_nil, or_false, forall_eq_or_imp, forall_eq]
      exact ⟨tail (by omega), tail (by omega)⟩
  · refine ⟨_, [_, _, _], rfl, ?_, ?_⟩
    · rw [tailsOf, toNat_ofNat (by omega), if_neg (by omega), if_neg (by omega),
        if_neg (by omega)]
      rfl
    · simp only [List.mem_cons, List.not_mem_nil, or_false, forall_eq_or_imp, forall_eq]
      exact ⟨tail (by omega), tail (by omega), tail (by omega)⟩

/-- A sequence cut short is not gone on with by anything but a tail. -/
theorem not_encoded_of_short {i : Nat} (some : 0 < i) (short : i < (String.utf8EncodeChar c).length)
    (next : ∀ b ∈ rest.head?, ¬ IsTail b) :
    ¬ ∃ text, encode text = (String.utf8EncodeChar c).take i ++ rest := by
  rintro ⟨text, encoded⟩
  obtain ⟨b, tails, sequence, asked, -⟩ := exists_tails c
  obtain ⟨n, rfl⟩ : ∃ n, i = n + 1 := ⟨i - 1, by omega⟩
  rw [sequence, List.length_cons] at short
  rw [sequence, List.take_succ_cons, List.cons_append] at encoded
  cases text with
  | nil => cases encoded
  | cons d text =>
    -- what is encoded begins with the same byte, so as many tails follow it
    obtain ⟨b', tails', sequence', asked', are⟩ := exists_tails d
    rw [encode_cons, sequence', List.cons_append] at encoded
    obtain ⟨rfl, behind⟩ := List.cons.inj encoded
    have longer : n < tails'.length := by omega
    have cut : rest = tails'.drop n ++ encode text := by
      have whole : (tails.take n).length = n := List.length_take_of_le (by omega)
      rw [← List.drop_append_of_le_length (Nat.le_of_lt longer), behind, List.drop_left' whole]
    have first : rest.head? = .some tails'[n] := by
      rw [cut, List.drop_eq_getElem_cons longer]
      rfl
    exact next _ first (are _ (List.getElem_mem longer))

/-! ## What no text's encoding goes on with -/

/-- The bytes that spell a number with one, two or three tails, whether they may or not. -/
def spelling : Nat → Nat → List UInt8
  | 1, n => [UInt8.ofNat (0xC0 + n / 64), UInt8.ofNat (0x80 + n % 64)]
  | 2, n => [UInt8.ofNat (0xE0 + n / 4096), UInt8.ofNat (0x80 + n / 64 % 64),
      UInt8.ofNat (0x80 + n % 64)]
  | 3, n => [UInt8.ofNat (0xF0 + n / 262144), UInt8.ofNat (0x80 + n / 4096 % 64),
      UInt8.ofNat (0x80 + n / 64 % 64), UInt8.ofNat (0x80 + n % 64)]
  | _, _ => []

/-- Bytes that are ill-formed from the first on. -/
inductive Broken : List UInt8 → Prop where
  /-- A tail without a first byte. -/
  | stray {b : UInt8} (tail : IsTail b) (rest : List UInt8) : Broken (b :: rest)
  /-- A byte past all first bytes. -/
  | unused {b : UInt8} (past : 0xF5 ≤ b.toNat) (rest : List UInt8) : Broken (b :: rest)
  /-- More tails than the number takes. -/
  | overlong {tails least n : Nat} (longer : (tails, least) ∈ [(1, 0x80), (2, 0x800), (3, 0x10000)])
      (small : n < least) (rest : List UInt8) : Broken (spelling tails n ++ rest)
  /-- The number of a surrogate. -/
  | surrogate {n : Nat} (low : 0xD800 ≤ n) (high : n ≤ 0xDFFF) (rest : List UInt8) :
      Broken (spelling 2 n ++ rest)
  /-- A number past the last scalar value. -/
  | past {n : Nat} (low : 0x10FFFF < n) (high : n < 0x200000) (rest : List UInt8) :
      Broken (spelling 3 n ++ rest)
  /-- A sequence cut short. -/
  | short {c : Char} {i : Nat} (some : 0 < i) (short : i < (String.utf8EncodeChar c).length)
      {rest : List UInt8} (next : ∀ b ∈ rest.head?, ¬ IsTail b) :
      Broken ((String.utf8EncodeChar c).take i ++ rest)

theorem damage_of_stray (h : 0x80 ≤ b.toNat ∧ b.toNat < 0xC2 ∨ 0xF5 ≤ b.toNat)
    (rest : List UInt8) : Piece.damage ∈ pieces (b :: rest) := by
  rw [pieces, piecesFrom, step_of_stray h]
  exact List.mem_cons_self

/-- A second byte out of the range is damage, and so is the byte in front of it. -/
theorem damage_of_second (low : 0xC2 ≤ b₀.toNat) (starts : start? b₀ = some s)
    (out : b₁.toNat < s.low.toNat ∨ s.high.toNat < b₁.toNat) (rest : List UInt8) :
    Piece.damage ∈ pieces (b₀ :: b₁ :: rest) := by
  have refused : s.admits b₁ = false := by
    rw [Bool.eq_false_iff]
    intro admits
    have := toNat_of_admits admits
    omega
  obtain ⟨ps, next, damaged⟩ := step_of_not_admits refused
  rw [pieces, piecesFrom, step_of_start low starts, piecesFrom, damaged]
  exact List.mem_cons_self

/-- **Broken bytes are damage.** -/
theorem Broken.damage (broken : Broken bytes) : Piece.damage ∈ pieces bytes := by
  cases broken with
  | stray tail rest =>
    obtain ⟨low, high⟩ := tail
    exact damage_of_stray (by omega) rest
  | unused past rest => exact damage_of_stray (Or.inr past) rest
  | @overlong tails least n longer small rest =>
    simp only [List.mem_cons, Prod.mk.injEq, List.not_mem_nil, or_false] at longer
    rcases longer with ⟨rfl, rfl⟩ | ⟨rfl, rfl⟩ | ⟨rfl, rfl⟩
    · have h₀ := toNat_ofNat (n := 0xC0 + n / 64) (by omega)
      exact damage_of_stray (by omega) _
    · have h₀ := toNat_ofNat (n := 0xE0 + n / 4096) (by omega)
      have h₁ := toNat_ofNat (n := 0x80 + n / 64 % 64) (by omega)
      refine damage_of_second (by omega) (start?_of_three (by omega) (by omega)) (Or.inl ?_) _
      dsimp only
      rw [if_pos (by omega), h₁]
      simp only [UInt8.reduceToNat]
      omega
    · have h₀ := toNat_ofNat (n := 0xF0 + n / 262144) (by omega)
      have h₁ := toNat_ofNat (n := 0x80 + n / 4096 % 64) (by omega)
      refine damage_of_second (by omega) (start?_of_four (by omega) (by omega)) (Or.inl ?_) _
      dsimp only
      rw [if_pos (by omega), h₁]
      simp only [UInt8.reduceToNat]
      omega
  | @surrogate n low high rest =>
    have h₀ := toNat_ofNat (n := 0xE0 + n / 4096) (by omega)
    have h₁ := toNat_ofNat (n := 0x80 + n / 64 % 64) (by omega)
    refine damage_of_second (by omega) (start?_of_three (by omega) (by omega)) (Or.inr ?_) _
    dsimp only
    rw [if_pos (by omega), h₁]
    simp only [UInt8.reduceToNat]
    omega
  | @past n low high rest =>
    have h₀ := toNat_ofNat (n := 0xF0 + n / 262144) (by omega)
    have h₁ := toNat_ofNat (n := 0x80 + n / 4096 % 64) (by omega)
    by_cases four : n / 262144 = 4
    · refine damage_of_second (by omega) (start?_of_four (by omega) (by omega)) (Or.inr ?_) _
      dsimp only
      rw [if_pos (by omega), h₁]
      simp only [UInt8.reduceToNat]
      omega
    · exact damage_of_stray (by omega) _
  | short some short next =>
    exact damage_mem_pieces.mpr (not_encoded_of_short some short next)

/-- **Behind no text do broken bytes make an encoding.** -/
theorem Broken.not_encoded (broken : Broken bytes) (text : List Char) :
    ¬ ∃ whole, encode whole = encode text ++ bytes := by
  rw [← damage_mem_pieces, pieces_encode_append]
  exact List.mem_append_right _ broken.damage

end Utf8
end Linkage
