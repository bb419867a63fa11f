/-!
# UTF-8, strictly and with replacement

A byte string is read one byte at a time.  Between bytes the reader is either at
rest or inside a started sequence, and then it knows how many tail bytes are
still owed and in which range the next one has to lie.  The ranges are what
makes the reading strict: an overlong form, a surrogate or a value past the last
scalar value is refused at its second byte, because no byte of the range can
continue it.

The reader cuts the bytes into *pieces*: one piece for each scalar value, and one
piece of damage for each maximal ill-formed part.  A byte that cannot continue
the started sequence ends it as damage and is then read again from rest.  Three
views of the same cut are used: the scalar values if nothing is damaged, their
number, and the text in which each damaged part is shown as U+FFFD.
-/

namespace Linkage
namespace Utf8

/-- One piece of a byte string: a scalar value, or a maximal ill-formed part. -/
inductive Piece where
  | scalar (c : Char)
  | damage
  deriving DecidableEq, Repr

/-- A started sequence: how many tail bytes are owed, the range of the next one,
and the bits read so far. -/
structure Started where
  owed : Nat
  low : UInt8
  high : UInt8
  bits : Nat
  deriving DecidableEq, Repr

/-- The sequence that a byte of two or more bytes' length starts.  The bytes
`C0`, `C1` and everything from `F5` on start nothing, and neither does a tail. -/
def start? (b : UInt8) : Option Started :=
  if b < 0xC2 then none
  else if b < 0xE0 then some ⟨1, 0x80, 0xBF, b.toNat - 0xC0⟩
  else if b = 0xE0 then some ⟨2, 0xA0, 0xBF, 0⟩
  else if b = 0xED then some ⟨2, 0x80, 0x9F, 0xD⟩
  else if b < 0xF0 then some ⟨2, 0x80, 0xBF, b.toNat - 0xE0⟩
  else if b = 0xF0 then some ⟨3, 0x90, 0xBF, 0⟩
  else if b < 0xF4 then some ⟨3, 0x80, 0xBF, b.toNat - 0xF0⟩
  else if b = 0xF4 then some ⟨3, 0x80, 0x8F, 4⟩
  else none

/-- Reading one byte at rest: the piece it completes, or the sequence it starts. -/
def atRest (b : UInt8) : Piece ⊕ Started :=
  if b < 0x80 then .inl (.scalar (Char.ofNat b.toNat))
  else match start? b with
    | some s => .inr s
    | none => .inl .damage

/-- Reading one byte of the range inside a started sequence. -/
def Started.extend (s : Started) (b : UInt8) : Piece ⊕ Started :=
  let bits := s.bits * 64 + (b.toNat - 0x80)
  if s.owed ≤ 1 then .inl (.scalar (Char.ofNat bits))
  else .inr ⟨s.owed - 1, 0x80, 0xBF, bits⟩

/-- Whether a byte may come next in a started sequence. -/
def Started.admits (s : Started) (b : UInt8) : Bool :=
  s.low ≤ b && b ≤ s.high

/-- What one byte adds: the pieces it completes, and the sequence left started. -/
def step : Option Started → UInt8 → List Piece × Option Started
  | none, b => match atRest b with
    | .inl piece => ([piece], none)
    | .inr s => ([], some s)
  | some s, b =>
    if s.admits b then match s.extend b with
      | .inl piece => ([piece], none)
      | .inr s' => ([], some s')
    else match atRest b with
      | .inl piece => ([.damage, piece], none)
      | .inr s' => ([.damage], some s')

/-- What the end of the bytes adds: an unfinished sequence is damage. -/
def finish : Option Started → List Piece
  | none => []
  | some _ => [.damage]

/-- The pieces of a byte string, from a given position of the reader. -/
def piecesFrom : Option Started → List UInt8 → List Piece
  | s, [] => finish s
  | s, b :: rest => (step s b).1 ++ piecesFrom (step s b).2 rest

/-- The pieces of a byte string. -/
def pieces (bytes : List UInt8) : List Piece := piecesFrom none bytes

/-- Folds over the pieces in one pass, without building their list. -/
def foldFrom {σ : Type} (f : σ → Piece → σ) : σ → Option Started → List UInt8 → σ
  | acc, s, [] => (finish s).foldl f acc
  | acc, s, b :: rest => foldFrom f ((step s b).1.foldl f acc) (step s b).2 rest

theorem foldFrom_eq {σ : Type} (f : σ → Piece → σ) (acc : σ) (s : Option Started)
    (bytes : List UInt8) : foldFrom f acc s bytes = (piecesFrom s bytes).foldl f acc := by
  induction bytes generalizing acc s with
  | nil => rfl
  | cons b rest ih => rw [foldFrom, piecesFrom, ih, List.foldl_append]

/-- Adds one piece to the number of scalar values; damage spoils the count. -/
def Piece.tally : Option Nat → Piece → Option Nat
  | some n, .scalar _ => some (n + 1)
  | _, _ => none

/-- The number of scalar values of a well-formed byte string. -/
def count? (bytes : List UInt8) : Option Nat :=
  foldFrom Piece.tally (some 0) none bytes

/-- Adds one piece to the scalar values read so far, latest first. -/
def Piece.gather : Option (List Char) → Piece → Option (List Char)
  | some cs, .scalar c => some (c :: cs)
  | _, _ => none

/-- The scalar values of a well-formed byte string. -/
def decode? (bytes : List UInt8) : Option (List Char) :=
  (foldFrom Piece.gather (some []) none bytes).map List.reverse

/-- The character that shows a piece: itself, or the replacement character. -/
def Piece.shown : Piece → Char
  | .scalar c => c
  | .damage => '\uFFFD'

/-- The text in which every damaged part is one replacement character. -/
def decodeLossy (bytes : List UInt8) : List Char :=
  (foldFrom (fun cs piece => piece.shown :: cs) [] none bytes).reverse

/-- The UTF-8 bytes of a text. -/
def encode (text : List Char) : List UInt8 :=
  text.flatMap String.utf8EncodeChar

@[simp] theorem encode_nil : encode [] = [] := rfl

@[simp] theorem encode_cons (c : Char) (text : List Char) :
    encode (c :: text) = String.utf8EncodeChar c ++ encode text := by
  simp [encode]

@[simp] theorem encode_append (s t : List Char) : encode (s ++ t) = encode s ++ encode t := by
  simp [encode]

/-- The lossy reading shows each piece once. -/
theorem decodeLossy_eq (bytes : List UInt8) :
    decodeLossy bytes = (pieces bytes).map Piece.shown := by
  have shown_foldl : ∀ (ps : List Piece) (acc : List Char),
      ps.foldl (fun cs piece => piece.shown :: cs) acc = (ps.map Piece.shown).reverse ++ acc := by
    intro ps
    induction ps with
    | nil => intro acc; rfl
    | cons p ps ih => intro acc; simp [ih]
  simp [decodeLossy, foldFrom_eq, pieces, shown_foldl]

end Utf8
end Linkage
