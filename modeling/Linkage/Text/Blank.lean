/-!
# Blanks

A blank is a character with the property White_Space.  There are twenty-five of
them, and they are more than the blanks of ASCII: the no-break space and the
ideographic space count, while the zero-width space does not.
-/

namespace Linkage
namespace Text

/-- Whether a character has the property White_Space. -/
def isBlank (c : Char) : Bool :=
  let n := c.toNat
  (0x9 ≤ n && n ≤ 0xD) || n == 0x20 || n == 0x85 || n == 0xA0 || n == 0x1680 ||
    (0x2000 ≤ n && n ≤ 0x200A) || n == 0x2028 || n == 0x2029 || n == 0x202F ||
    n == 0x205F || n == 0x3000

/-- The text without the blanks at its start. -/
def trimLeft (cs : List Char) : List Char := cs.dropWhile isBlank

/-- The text without the blanks at its end. -/
def trimRight (cs : List Char) : List Char := (trimLeft cs.reverse).reverse

/-- The text without the blanks at either end. -/
def trim (cs : List Char) : List Char := trimRight (trimLeft cs)

@[simp] theorem trimLeft_nil : trimLeft [] = [] := rfl

@[simp] theorem trim_nil : trim [] = [] := rfl

/-- Blanks in front of a text are dropped. -/
theorem trimLeft_append {blanks : List Char} (h : ∀ c ∈ blanks, isBlank c = true)
    (cs : List Char) : trimLeft (blanks ++ cs) = trimLeft cs := by
  induction blanks with
  | nil => rfl
  | cons b bs ih =>
    have hb : isBlank b = true := h b (by simp)
    have hbs : ∀ c ∈ bs, isBlank c = true := fun c hc => h c (by simp [hc])
    simpa [trimLeft, hb] using ih hbs

end Text
end Linkage
