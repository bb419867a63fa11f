import Linkage.Text.Blank
import Linkage.Text.Split
import Mathlib.Data.List.TakeWhile

/-!
# Trimming and splitting

What trimming drops is a run of blanks at either end, and no more: `exists_trim` finds the
two runs in the text, and `trim_padded` and `trim_of_ends` are the other direction, where
runs of blanks are put around a text whose own ends are no blanks.

The parts of a text are cut apart at a separator and at nothing else.  Put together again
they are the text (`intercalate_splitOn`), and parts without a separator that have been put
together are cut apart where they were joined (`splitOn_append_cons`, `splitOn_of_free`).
A marker cuts a text at its first occurrence, which `splitAt?_append` finds when the text in
front of it does not have the first character of the marker.
-/

namespace Linkage
namespace Text

/-! ## Blanks -/

/-- A run of blanks. -/
def Blanks (cs : List Char) : Prop := ∀ c ∈ cs, isBlank c = true

@[simp] theorem blanks_nil : Blanks [] := fun _ h => absurd h List.not_mem_nil

@[simp] theorem blanks_append {cs ds : List Char} :
    Blanks (cs ++ ds) ↔ Blanks cs ∧ Blanks ds := List.forall_mem_append

theorem Blanks.reverse {cs : List Char} (h : Blanks cs) : Blanks cs.reverse :=
  fun c hc => h c (List.mem_reverse.mp hc)

/-- A character that is no blank is not in a run of blanks. -/
theorem Blanks.not_mem {cs : List Char} (h : Blanks cs) {c : Char} (hc : isBlank c = false) :
    c ∉ cs := fun hm => absurd (h c hm) (by simp [hc])

/-- The text without its blanks, wherever they stand. -/
def unblanked (cs : List Char) : List Char := cs.filter fun c => !isBlank c

theorem unblanked_append (cs ds : List Char) :
    unblanked (cs ++ ds) = unblanked cs ++ unblanked ds := List.filter_append cs ds

theorem unblanked_cons {c : Char} (h : isBlank c = false) (cs : List Char) :
    unblanked (c :: cs) = c :: unblanked cs := List.filter_cons_of_pos (by simp [h])

theorem Blanks.unblanked {cs : List Char} (h : Blanks cs) : unblanked cs = [] :=
  List.filter_eq_nil_iff.mpr fun c hc => by simp [h c hc]

theorem unblanked_of_shown {cs : List Char} (h : ∀ c ∈ cs, isBlank c = false) :
    unblanked cs = cs := List.filter_eq_self.mpr fun c hc => by simp [h c hc]

theorem unblanked_intercalate {sep : Char} (h : isBlank sep = false) (parts : List (List Char)) :
    unblanked ([sep].intercalate parts) = [sep].intercalate (parts.map unblanked) := by
  induction parts with
  | nil => rfl
  | cons part parts ih =>
    cases parts with
    | nil => simp
    | cons next parts =>
      have between : unblanked [sep] = [sep] := unblanked_of_shown (by simp [h])
      rw [List.intercalate_cons_cons, unblanked_append, unblanked_append, ih, between,
        List.map_cons, List.map_cons, List.map_cons, List.intercalate_cons_cons]

/-! ## Trimming -/

theorem exists_trimLeft (cs : List Char) : ∃ blanks, Blanks blanks ∧ cs = blanks ++ trimLeft cs :=
  ⟨cs.takeWhile isBlank, fun _ => List.mem_takeWhile_imp,
    List.takeWhile_append_dropWhile.symm⟩

theorem exists_trimRight (cs : List Char) :
    ∃ blanks, Blanks blanks ∧ cs = trimRight cs ++ blanks := by
  obtain ⟨blanks, hb, h⟩ := exists_trimLeft cs.reverse
  refine ⟨blanks.reverse, hb.reverse, ?_⟩
  rw [trimRight, ← List.reverse_append, ← h, List.reverse_reverse]

/-- **Trimming drops blanks only.** -/
theorem exists_trim (cs : List Char) :
    ∃ u v, Blanks u ∧ Blanks v ∧ cs = u ++ trim cs ++ v := by
  obtain ⟨u, hu, left⟩ := exists_trimLeft cs
  obtain ⟨v, hv, right⟩ := exists_trimRight (trimLeft cs)
  refine ⟨u, v, hu, hv, ?_⟩
  rw [trim, List.append_assoc, ← right, ← left]

theorem trimLeft_of_blanks {cs : List Char} (h : Blanks cs) : trimLeft cs = [] := by
  simpa using trimLeft_append h []

theorem trimRight_append {blanks : List Char} (h : Blanks blanks) (cs : List Char) :
    trimRight (cs ++ blanks) = trimRight cs := by
  rw [trimRight, List.reverse_append, trimLeft_append h.reverse, trimRight]

/-- Blanks around a text are dropped. -/
theorem trim_padded {u v : List Char} (hu : Blanks u) (hv : Blanks v) (cs : List Char) :
    trim (u ++ cs ++ v) = trim cs := by
  rw [trim, List.append_assoc, trimLeft_append hu, trim]
  by_cases blank : trimLeft cs = []
  · obtain ⟨w, hw, whole⟩ := exists_trimLeft cs
    rw [blank, List.append_nil] at whole
    rw [blank, trimLeft_of_blanks (blanks_append.mpr ⟨whole ▸ hw, hv⟩)]
  · have stays : trimLeft (cs ++ v) = trimLeft cs ++ v := by
      unfold trimLeft at blank ⊢
      rw [List.dropWhile_append, if_neg (mt List.isEmpty_iff.mp blank)]
    rw [stays, trimRight_append hv]

theorem trimLeft_cons {c : Char} (h : isBlank c = false) (cs : List Char) :
    trimLeft (c :: cs) = c :: cs := List.dropWhile_cons_of_neg (by simp [h])

/-- A text is its own trimming if it neither starts nor ends with a blank. -/
theorem trim_of_ends {c d : Char} {cs ds : List Char} (h : c :: cs = ds ++ [d])
    (first : isBlank c = false) (last : isBlank d = false) : trim (c :: cs) = c :: cs := by
  rw [trim, trimLeft_cons first, trimRight, h, List.reverse_append, List.reverse_singleton,
    List.singleton_append, trimLeft_cons last, List.reverse_cons, List.reverse_reverse]

theorem trim_eq_nil {cs : List Char} : trim cs = [] ↔ Blanks cs := by
  constructor
  · intro h
    obtain ⟨u, v, hu, hv, whole⟩ := exists_trim cs
    rw [whole, h, List.append_nil, blanks_append]
    exact ⟨hu, hv⟩
  · intro h
    rw [trim, trimLeft_of_blanks h]
    rfl

/-! ## Splitting at a separator -/

variable {sep : Char}

theorem splitOn_ne_nil (sep : Char) (text : List Char) : splitOn sep text ≠ [] := by
  induction text with
  | nil => simp
  | cons c text ih =>
    obtain ⟨part, parts, h⟩ := List.exists_cons_of_ne_nil ih
    rw [splitOn_cons, h, cutBefore]
    split <;> simp

/-- The first part ends at the first separator. -/
theorem splitOn_append_cons {front : List Char} (free : sep ∉ front) (rest : List Char) :
    splitOn sep (front ++ sep :: rest) = front :: splitOn sep rest := by
  induction front with
  | nil =>
    obtain ⟨part, parts, h⟩ := List.exists_cons_of_ne_nil (splitOn_ne_nil sep rest)
    rw [List.nil_append, splitOn_cons, h, cutBefore, if_pos rfl]
  | cons c front ih =>
    obtain ⟨other, free⟩ : sep ≠ c ∧ sep ∉ front := by simpa using free
    rw [List.cons_append, splitOn_cons, ih free, cutBefore, if_neg (Ne.symm other)]

/-- A separator ends one part and starts the next. -/
theorem splitOn_append_sep (front rest : List Char) :
    splitOn sep (front ++ sep :: rest) = splitOn sep front ++ splitOn sep rest := by
  induction front with
  | nil => exact splitOn_append_cons List.not_mem_nil rest
  | cons c front ih =>
    obtain ⟨part, parts, h⟩ := List.exists_cons_of_ne_nil (splitOn_ne_nil sep front)
    rw [List.cons_append, splitOn_cons, splitOn_cons, ih, h, List.cons_append, cutBefore, cutBefore]
    split <;> simp

/-- No part has a separator in it. -/
theorem not_mem_of_mem_splitOn {text part : List Char} (mem : part ∈ splitOn sep text) :
    sep ∉ part := by
  induction text generalizing part with
  | nil =>
    obtain rfl := List.mem_singleton.mp mem
    exact List.not_mem_nil
  | cons c text ih =>
    obtain ⟨first, rest, h⟩ := List.exists_cons_of_ne_nil (splitOn_ne_nil sep text)
    rw [h] at ih
    rw [splitOn_cons, h, cutBefore] at mem
    split at mem
    · rcases List.mem_cons.mp mem with rfl | later
      · exact List.not_mem_nil
      · exact ih later
    · rename_i other
      rcases List.mem_cons.mp mem with rfl | later
      · exact fun inside => (List.mem_cons.mp inside).elim (fun same => other same.symm)
          (ih List.mem_cons_self)
      · exact ih (List.mem_cons_of_mem _ later)

/-- A text without a separator is one part. -/
theorem splitOn_of_free {text : List Char} (free : sep ∉ text) : splitOn sep text = [text] := by
  induction text with
  | nil => rfl
  | cons c text ih =>
    obtain ⟨other, free⟩ : sep ≠ c ∧ sep ∉ text := by simpa using free
    rw [splitOn_cons, ih free, cutBefore, if_neg (Ne.symm other)]

/-- **The parts put together again are the text.** -/
theorem intercalate_splitOn (sep : Char) (text : List Char) :
    [sep].intercalate (splitOn sep text) = text := by
  induction text with
  | nil => rfl
  | cons c text ih =>
    obtain ⟨part, parts, h⟩ := List.exists_cons_of_ne_nil (splitOn_ne_nil sep text)
    rw [h] at ih
    rw [splitOn_cons, h, cutBefore]
    by_cases same : c = sep
    · rw [if_pos same, List.intercalate_cons_cons, ih, List.nil_append, same,
        List.singleton_append]
    · rw [if_neg same, ← ih]
      cases parts with
      | nil => rfl
      | cons next parts =>
        rw [List.intercalate_cons_cons, List.intercalate_cons_cons, List.append_assoc,
          List.append_assoc, List.cons_append]

/-- **Parts put together are cut apart where they were joined.** -/
theorem splitOn_intercalate {parts : List (List Char)} (some : parts ≠ [])
    (free : ∀ part ∈ parts, sep ∉ part) : splitOn sep ([sep].intercalate parts) = parts := by
  induction parts with
  | nil => exact absurd rfl some
  | cons part parts ih =>
    obtain ⟨here, others⟩ := List.forall_mem_cons.mp free
    cases parts with
    | nil => rw [List.intercalate_singleton, splitOn_of_free here]
    | cons next parts =>
      rw [List.intercalate_cons_cons, List.append_assoc, List.singleton_append,
        splitOn_append_cons here, ih (List.cons_ne_nil next parts) others]

theorem mem_intercalate_of_mem {c : Char} {part : List Char} {parts : List (List Char)}
    (mem : part ∈ parts) (h : c ∈ part) : c ∈ [sep].intercalate parts := by
  induction parts with
  | nil => exact absurd mem List.not_mem_nil
  | cons first parts ih =>
    cases parts with
    | nil =>
      obtain rfl := List.mem_singleton.mp mem
      rwa [List.intercalate_singleton]
    | cons next parts =>
      rw [List.intercalate_cons_cons, List.mem_append, List.mem_append]
      rcases List.mem_cons.mp mem with rfl | later
      · exact Or.inl (Or.inl h)
      · exact Or.inr (ih later)

/-- Between the parts there are separators only. -/
theorem mem_of_mem_intercalate {c : Char} {parts : List (List Char)}
    (h : c ∈ [sep].intercalate parts) : c = sep ∨ ∃ part ∈ parts, c ∈ part := by
  induction parts with
  | nil => exact absurd h List.not_mem_nil
  | cons part parts ih =>
    cases parts with
    | nil =>
      rw [List.intercalate_singleton] at h
      exact Or.inr ⟨part, List.mem_singleton_self part, h⟩
    | cons next parts =>
      rw [List.intercalate_cons_cons, List.mem_append, List.mem_append, List.mem_singleton] at h
      rcases h with (here | between) | behind
      · exact Or.inr ⟨part, List.mem_cons_self, here⟩
      · exact Or.inl between
      · rcases ih behind with between | ⟨other, among, within⟩
        · exact Or.inl between
        · exact Or.inr ⟨other, List.mem_cons_of_mem part among, within⟩

/-! ## Splitting at a marker -/

/-- A text is cut at an occurrence of the marker. -/
theorem eq_of_splitAtFrom {marker before text a b : List Char}
    (h : splitAtFrom marker before text = some (a, b)) :
    before.reverse ++ text = a ++ marker ++ b := by
  induction text generalizing before with
  | nil =>
    obtain ⟨rest, found, same⟩ := Option.map_eq_some_iff.mp h
    obtain ⟨rfl, rfl⟩ := Prod.mk.inj same
    rw [behind?_eq_some.mp found, List.append_assoc]
  | cons c text ih =>
    rw [splitAtFrom] at h
    split at h
    case h_1 rest found =>
      obtain ⟨rfl, rfl⟩ := Prod.mk.inj (Option.some.inj h)
      rw [behind?_eq_some.mp found, List.append_assoc]
    case h_2 => simpa using ih h

theorem eq_of_splitAt? {marker text a b : List Char} (h : splitAt? marker text = some (a, b)) :
    text = a ++ marker ++ b := by
  simpa using eq_of_splitAtFrom h

theorem splitAtFrom_append {m : Char} {marker before a : List Char} (free : m ∉ a)
    (b : List Char) : splitAtFrom (m :: marker) before (a ++ (m :: marker) ++ b) =
      some (before.reverse ++ a, b) := by
  induction a generalizing before with
  | nil =>
    have found := behind?_eq_some.mpr (rfl : (m :: marker) ++ b = (m :: marker) ++ b)
    rw [List.nil_append, List.append_nil, List.cons_append, splitAtFrom]
    rw [List.cons_append] at found
    rw [found]
  | cons c a ih =>
    obtain ⟨other, free⟩ : m ≠ c ∧ m ∉ a := by simpa using free
    have absent : behind? (m :: marker) (c :: (a ++ (m :: marker) ++ b)) = none := by
      rw [behind?, if_neg other]
    rw [List.cons_append, List.cons_append, splitAtFrom, absent, ih free]
    simp

/-- **The first occurrence of a marker is found** behind a text that does not have its first
character. -/
theorem splitAt?_append {m : Char} {marker a : List Char} (free : m ∉ a) (b : List Char) :
    splitAt? (m :: marker) (a ++ (m :: marker) ++ b) = some (a, b) :=
  splitAtFrom_append free b

end Text
end Linkage
