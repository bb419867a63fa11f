import Linkage.CallStatus
import Linkage.Text.Utf8

/-!
# Measuring a text

The length of a text is the number of its Unicode scalar values.  Bytes that are
not UTF-8 have no length; they are answered with a status.  Across the C boundary
a text is a pointer: a null pointer has a status of its own, and any other
pointer stands for the bytes in front of the first zero byte.
-/

namespace Linkage

/-- A length as a 64-bit answer; a length that does not fit is the greatest one. -/
def lengthAnswer (n : Nat) : Int64 :=
  if n < Nat.pow 2 63 then Int64.ofNat n else Int64.maxValue

/-- The number of scalar values of a byte string, or the status for bytes that
are not UTF-8. -/
def measure (bytes : List UInt8) : Int64 :=
  match Utf8.count? bytes with
  | some n => lengthAnswer n
  | none => CallStatus.invalidEncodingCode

/-- The bytes that a pointer to a buffer stands for: those before the first zero. -/
def cString (buffer : List UInt8) : List UInt8 :=
  buffer.takeWhile (· ≠ 0)

/-- The exported measuring function; `none` is the null pointer. -/
def exportedLength : Option (List UInt8) → Int64
  | none => CallStatus.nullArgumentCode
  | some buffer => measure (cString buffer)

/-- Reading stops at the first zero byte, whatever follows it. -/
theorem cString_append_zero {bytes : List UInt8} (h : ∀ b ∈ bytes, b ≠ 0)
    (rest : List UInt8) : cString (bytes ++ 0 :: rest) = bytes := by
  induction bytes with
  | nil => simp [cString]
  | cons b bs ih =>
    have hb : b ≠ 0 := h b (by simp)
    have hbs : ∀ c ∈ bs, c ≠ 0 := fun c hc => h c (by simp [hc])
    simpa [cString, hb] using ih hbs

end Linkage
