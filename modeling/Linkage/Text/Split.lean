/-!
# Splitting text

Two ways of cutting a text apart: at every occurrence of one character, and at
the first occurrence of a marker.
-/

namespace Linkage
namespace Text

/-- Puts one character in front of the parts of the text behind it. -/
def cutBefore (sep c : Char) : List (List Char) → List (List Char)
  | [] => if c = sep then [[], []] else [[c]]
  | part :: parts => if c = sep then [] :: part :: parts else (c :: part) :: parts

/-- The parts of a text between the occurrences of a separator; there is one more
part than there are separators. -/
def splitOn (sep : Char) (text : List Char) : List (List Char) :=
  text.foldr (cutBefore sep) [[]]

@[simp] theorem splitOn_nil (sep : Char) : splitOn sep [] = [[]] := rfl

@[simp] theorem splitOn_cons (sep c : Char) (text : List Char) :
    splitOn sep (c :: text) = cutBefore sep c (splitOn sep text) := rfl

/-- The text behind a marker that stands at the front. -/
def behind? : List Char → List Char → Option (List Char)
  | [], text => some text
  | _ :: _, [] => none
  | m :: marker, c :: text => if m = c then behind? marker text else none

/-- Searches for the first occurrence of a marker; `before` is the text passed
over so far, latest first. -/
def splitAtFrom (marker before : List Char) : List Char → Option (List Char × List Char)
  | [] => (behind? marker []).map fun rest => (before.reverse, rest)
  | c :: text =>
    match behind? marker (c :: text) with
    | some rest => some (before.reverse, rest)
    | none => splitAtFrom marker (c :: before) text

/-- The texts before and behind the first occurrence of a marker. -/
def splitAt? (marker text : List Char) : Option (List Char × List Char) :=
  splitAtFrom marker [] text

theorem behind?_eq_some {marker text rest : List Char} :
    behind? marker text = some rest ↔ text = marker ++ rest := by
  induction marker generalizing text with
  | nil => simp [behind?, eq_comm]
  | cons m marker ih =>
    cases text with
    | nil => simp [behind?]
    | cons c text =>
      by_cases h : m = c
      · simp [behind?, h, ih]
      · simp [behind?, h, Ne.symm h]

end Text
end Linkage
