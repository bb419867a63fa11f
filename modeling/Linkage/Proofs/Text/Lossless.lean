import Linkage.Proofs.Text.Argument
import Linkage.Proofs.Text.Measuring
import Mathlib.Order.Bounds.Basic

/-!
# Copies lose nothing

A copy says nothing of its length.  The other side reads up to the first zero byte, so a text is
read back from its copy only if that byte is the terminator.  A U+0000 gives a zero byte in front of
it, and nothing else does, since the bytes of a longer sequence are at least `80`.  So each text is
either copied, and then it is read back from the copy with whatever lies behind it in memory
(`Argument.Copies`), or refused at its first zero byte (`Argument.Refused`).

A refusal counts bytes, while a text consists of scalar values.  The offset is a boundary between
two of them all the same, since a zero byte is a sequence of its own; and what is in front of it is
a text without a U+0000, which is copied.
-/

namespace Linkage
namespace Argument

variable {a b : Argument} {s t text : String} {offset : Nat}

/-- A copy of a text: its encoding and one zero byte, the only one.  In front of that byte, whatever
lies behind it in memory, stand as many bytes as the copy is long, and they decode to the text. -/
structure Copies (a : Argument) (text : String) : Prop where
  encoded : a.buffer = Utf8.encode text.toList ++ [0]
  ended : ∀ i, a.buffer[i]? = some 0 ↔ i = a.length
  measured : ∀ rest, (cString (a.buffer ++ rest)).length = a.length
  decoded : ∀ rest, Utf8.decode? (cString (a.buffer ++ rest)) = some text.toList

/-- A text refused at an offset: the least one with a zero byte.  It is a boundary of the text, with
a U+0000 behind it, and what is in front of it is copied, with the offset as its length. -/
structure Refused (text : String) (offset : Nat) : Prop where
  least : IsLeast {i | (Utf8.encode text.toList)[i]? = some 0} offset
  boundary : Utf8.Boundary text.toList offset
  parts : ∃ before after, text = before ++ "\x00" ++ after ∧
    ∃ a, ofText before = .ok a ∧ a.length = offset

/-! ## Copies -/

/-- The only zero byte of a copy is its terminator. -/
theorem getElem?_buffer_eq_zero (a : Argument) (i : Nat) :
    a.buffer[i]? = some 0 ↔ i = a.length := by
  rw [buffer, length]
  rcases Nat.lt_trichotomy i a.bytes.length with within | rfl | past
  · rw [List.getElem?_append_left within]
    constructor
    · intro zero
      exact absurd rfl (a.no_zero 0 (List.mem_of_getElem? zero))
    · intro last
      omega
  · simp
  · rw [List.getElem?_eq_none (by rw [List.length_append, List.length_singleton]; omega)]
    constructor
    · intro zero
      cases zero
    · intro last
      omega

/-- The other side does not read on behind the terminator. -/
theorem cString_buffer_append (a : Argument) (rest : List UInt8) :
    cString (a.buffer ++ rest) = a.bytes := by
  rw [buffer, List.append_assoc, List.singleton_append, cString_append_zero a.no_zero]

theorem copies_iff : a.Copies text ↔ ofText text = .ok a := by
  rw [ofText_eq_ok]
  constructor
  · intro copy
    exact List.append_cancel_right copy.encoded
  · intro bytes
    refine ⟨by rw [buffer, bytes], a.getElem?_buffer_eq_zero, fun rest => ?_, fun rest => ?_⟩
    · rw [cString_buffer_append, length]
    · rw [cString_buffer_append, bytes, Utf8.decode?_encode]

/-- **What is read tells the text**: two copies that the same memory begins with are of one text. -/
theorem Copies.eq_of_append {rest rest' : List UInt8} (copy : a.Copies s) (other : b.Copies t)
    (same : a.buffer ++ rest = b.buffer ++ rest') : s = t := by
  have read := copy.decoded rest
  rw [same, other.decoded rest'] at read
  exact String.toList_inj.mp (Option.some.inj read).symm

/-! ## Refusals -/

/-- The first zero byte is behind those that are not zero. -/
theorem isLeast_zero {before : List UInt8} (free : 0 ∉ before) (after : List UInt8) :
    IsLeast {i | (before ++ 0 :: after)[i]? = some 0} before.length := by
  refine ⟨by simp, fun i zero => Nat.le_of_not_lt fun within => free ?_⟩
  rw [Set.mem_ofPred_eq, List.getElem?_append_left within] at zero
  exact List.mem_of_getElem? zero

/-- **A text is refused at its first zero byte.** -/
theorem ofText_eq_error : ofText text = .error offset ↔
    IsLeast {i | (Utf8.encode text.toList)[i]? = some 0} offset := by
  rcases zero_cases text with none | ⟨before, after, zero, first⟩
  · obtain ⟨copy, copied, -⟩ := ofText_of_no_zero none
    rw [copied]
    constructor
    · intro refused
      cases refused
    · rintro ⟨here, -⟩
      exact absurd (Utf8.zero_mem_encode.mp (List.mem_of_getElem? here)) none
  · have least := isLeast_zero (mt Utf8.zero_mem_encode.mp first) (Utf8.encode after)
    rw [ofText_of_zero zero first, zero, Utf8.encode_append_zero, least.isLeast_iff_eq,
      Except.error.injEq]

/-- The texts that are refused are those with a U+0000. -/
theorem exists_ofText_eq_error :
    (∃ offset, ofText text = .error offset) ↔ '\x00' ∈ text.toList := by
  constructor
  · rintro ⟨offset, refused⟩
    exact Utf8.zero_mem_encode.mp (List.mem_of_getElem? (ofText_eq_error.mp refused).1)
  · intro zero
    obtain ⟨before, after, whole, first⟩ := List.eq_append_cons_of_mem zero
    exact ⟨_, ofText_of_zero whole first⟩

theorem refused_iff : Refused text offset ↔ ofText text = .error offset := by
  constructor
  · intro refused
    exact ofText_eq_error.mpr refused.least
  · intro refused
    obtain ⟨before, after, whole, first⟩ :=
      List.eq_append_cons_of_mem (exists_ofText_eq_error.mp ⟨offset, refused⟩)
    -- the offset is the length of what is encoded in front of the first U+0000
    obtain rfl := Except.error.inj ((ofText_of_zero whole first).symm.trans refused)
    have front : (String.ofList before).toList = before := String.toList_ofList
    obtain ⟨a, copied, bytes⟩ := ofText_of_no_zero (front ▸ first)
    refine ⟨ofText_eq_error.mp refused, ⟨before, _, whole, rfl⟩,
      String.ofList before, String.ofList after, ?_, a, copied, ?_⟩
    · rw [← String.toList_inj, whole]
      simp
    · rw [length, bytes, front]

/-! ## Every text -/

/-- **A text is copied without loss or refused.**  It is copied exactly if it has no U+0000.  The
copy is its encoding with one zero byte behind it, from which the text is read again, so that
different texts have different copies.  Otherwise it is refused, with the least offset of a zero
byte.  That is a boundary of the text with a U+0000 behind it, and the text in front of it is
copied, with the offset as its length. -/
theorem lossless_or_refused :
    (∀ text : String, (∃ a, ofText text = .ok a) ↔ '\x00' ∉ text.toList) ∧
    (∀ text a, ofText text = .ok a ↔ a.Copies text) ∧
    (∀ s t a b, ofText s = .ok a → ofText t = .ok b → s ≠ t → a.buffer ≠ b.buffer) ∧
    (∀ text : String, (∃ offset, ofText text = .error offset) ↔ '\x00' ∈ text.toList) ∧
    ∀ text offset, ofText text = .error offset ↔ Refused text offset := by
  refine ⟨fun _ => exists_ofText_eq_ok, fun _ _ => copies_iff.symm, ?_,
    fun _ => exists_ofText_eq_error, fun _ _ => refused_iff.symm⟩
  intro s t a b copied other apart same
  have memory : a.buffer ++ [] = b.buffer ++ [] := by rw [same]
  exact apart ((copies_iff.mpr copied).eq_of_append (copies_iff.mpr other) memory)

/-- One accent as a scalar value and as two, and a U+0000 behind it. -/
theorem lossless_or_refused_accented :
    (∃ a b, ofText "é" = .ok a ∧ ofText "e\u0301" = .ok b ∧ a.Copies "é" ∧
      a.buffer ≠ b.buffer) ∧
      ofText "é\x00b" = .error 2 ∧ Refused "é\x00b" 2 := by
  obtain ⟨copied, faithful, apart, -, refused⟩ := lossless_or_refused
  obtain ⟨a, first⟩ := (copied "é").mpr (by decide)
  obtain ⟨b, second⟩ := (copied "e\u0301").mpr (by decide)
  have zero : ofText "é\x00b" = .error 2 := by cbv
  exact ⟨⟨a, b, first, second, (faithful "é" a).mp first, apart _ _ _ _ first second (by decide)⟩,
    zero, (refused _ 2).mp zero⟩

end Argument
end Linkage
