import Linkage.Measure

/-!
# Arguments of a native call

A text crosses the boundary as a copy: its UTF-8 bytes and one zero byte behind
them.  A text that holds the character U+0000 cannot be expressed so, since the
reader on the other side would stop there; it is refused, with the offset of its
first zero byte.
-/

namespace Linkage

/-- The copy of a text that a native function reads; its bytes hold no zero. -/
structure Argument where
  bytes : List UInt8
  no_zero : ∀ b ∈ bytes, b ≠ 0

namespace Argument

/-- The copy with its terminator. -/
def buffer (a : Argument) : List UInt8 := a.bytes ++ [0]

/-- The name of the one encoding in which texts are copied. -/
def encodingName : String := "Utf8NulTerminated"

/-- The number of bytes in front of the terminator. -/
def length (a : Argument) : Nat := a.bytes.length

/-- Searches for a zero byte, counting the bytes passed over. -/
def zeroFrom? : Nat → List UInt8 → Option Nat
  | _, [] => none
  | n, b :: rest => if b = 0 then some n else zeroFrom? (n + 1) rest

/-- The offset of the first zero byte. -/
def zeroOffset? (bytes : List UInt8) : Option Nat := zeroFrom? 0 bytes

theorem zeroFrom?_eq_none {bytes : List UInt8} {n : Nat} :
    zeroFrom? n bytes = none ↔ ∀ b ∈ bytes, b ≠ 0 := by
  induction bytes generalizing n with
  | nil => simp [zeroFrom?]
  | cons b rest ih =>
    by_cases h : b = 0
    · simp [zeroFrom?, h]
    · simp [zeroFrom?, h, ih]

/-- Copies the bytes of a text, or gives the offset of its first zero byte. -/
def ofBytes (bytes : List UInt8) : Except Nat Argument :=
  match h : zeroOffset? bytes with
  | some offset => .error offset
  | none => .ok ⟨bytes, zeroFrom?_eq_none.mp h⟩

/-- Copies a text, or gives the byte offset of its first U+0000. -/
def ofText (text : String) : Except Nat Argument := ofBytes (Utf8.encode text.toList)

/-- The other side reads back exactly the copied bytes. -/
@[simp] theorem cString_buffer (a : Argument) : cString a.buffer = a.bytes :=
  cString_append_zero a.no_zero []

end Argument
end Linkage
