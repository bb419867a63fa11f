import Linkage.Toml.Quoting
import Mathlib.Data.List.Basic
import Mathlib.Tactic.SplitIfs

/-!
# Written strings are read back

A string is written in one of four forms, and each has its own ways of going wrong: quotes in
the text could end it, a backslash could escape what follows, and a line break behind the
opening quotes is dropped.  What the forms have in common is that the reader goes through the
body of a written string one character or one escape at a time.  `Spells` is that walk, with
the number of quotes directly in front of where it stands, which is all the reader remembers:
on one line no quote may stand in the text, on several lines at most two in a row
(`Form.slack`).

A body is read back if it spells the text (`readFrom_of_spells`).  Both kinds of bodies do: with
escapes for every text (`spells_escapeFrom`), and without them for the texts the form holds
(`spells_of_holds`), where the longest run of quotes is what bounds each run.
-/

namespace Linkage
namespace Toml

variable {f : Form} {run : Nat} {c : Char} {text written e acc rest : List Char}

/-! ## Single steps -/

theorem readFrom_cons (f : Form) (spot : Spot) (acc : List Char) (c : Char) (rest : List Char) :
    readFrom f spot acc (c :: rest) =
      match move f acc c spot with
      | .on spot acc => readFrom f spot acc rest
      | .over acc => some (acc.reverse, rest)
      | .overBefore acc => some (acc.reverse, c :: rest)
      | .malformed => none := by
  cases spot <;> rfl

theorem readFrom_on {spot next : Spot} {acc' : List Char} (h : move f acc c spot = .on next acc')
    (rest : List Char) : readFrom f spot acc (c :: rest) = readFrom f next acc' rest := by
  rw [readFrom_cons, h]

/-- How many quotes in a row may stand in a text. -/
def Form.slack (f : Form) : Nat := if f.lines then 2 else 0

/-- Where the reader of a text stands behind a run of quotes. -/
def behind : Nat → Spot
  | 0 => .plain
  | n + 1 => .quotes (n + 1)

/-- A character that stands for itself in a form, and is no quote. -/
structure Plain (f : Form) (c : Char) : Prop where
  no_quote : c ≠ f.quote
  no_escape : ¬ (c = '\\' ∧ f.escapes = true)
  in_line : (c = '\n' ∧ f.lines = true) ∨ isLineChar c = true

theorem slack_lt_three (f : Form) : f.slack < 3 := by
  unfold Form.slack
  split <;> omega

theorem lines_of_slack (h : 0 < f.slack) : f.lines = true := by
  unfold Form.slack at h
  split at h
  · assumption
  · omega

/-- Behind a run of quotes the quotes are text as soon as something else follows. -/
theorem move_behind (h : run ≤ f.slack) (other : c ≠ f.quote) :
    move f acc c (behind run) = plainMove f (List.replicate run f.quote ++ acc) c := by
  cases run with
  | zero => rfl
  | succ n =>
    have three := slack_lt_three f
    rw [behind, move, if_pos (by omega), if_neg other]

theorem plainMove_of_plain (h : Plain f c) : plainMove f acc c = .on .plain (c :: acc) := by
  rw [plainMove, if_neg h.no_quote, if_neg h.no_escape]
  rcases h.in_line with ⟨rfl, lines⟩ | line
  · rw [if_pos ⟨rfl, lines⟩]
  · have no_break : ¬ (c = '\n' ∧ f.lines = true) := by
      rintro ⟨rfl, _⟩
      exact absurd line (by decide)
    have no_return : ¬ (c = '\r' ∧ f.lines = true) := by
      rintro ⟨rfl, _⟩
      exact absurd line (by decide)
    rw [if_neg no_break, if_neg no_return, if_pos line]

/-- One more quote is one more in the run. -/
theorem move_quote (h : run + 1 ≤ f.slack) :
    move f acc f.quote (behind run) = .on (behind (run + 1)) acc := by
  have three := slack_lt_three f
  have lines := lines_of_slack (f := f) (by omega)
  cases run with
  | zero => rw [behind, move, plainMove, if_pos rfl, if_pos lines, behind]
  | succ n => rw [behind, move, if_pos (by omega), if_pos rfl, behind]

/-! ## Escapes -/

theorem quote_of_escapes (h : f.escapes = true) : f.quote = '"' := of_decide_eq_true h

/-- A character is escaped by a letter, or by its number if it is a control character. -/
theorem cases_of_escapeOf? (h : escapeOf? f run c = some e) :
    (∃ letter, escaped? letter = some c ∧ e = ['\\', letter]) ∨
      (c.toNat < 128 ∧ e = ['\\', 'u', '0', '0'] ++ twoHexDigits c.toNat) := by
  -- one case for each letter, in the order in which they are tried
  have letter : ∀ d, escaped? d = some c → some ['\\', d] = some e →
      ∃ letter, escaped? letter = some c ∧ e = ['\\', letter] :=
    fun d named same => ⟨d, named, (Option.some.inj same).symm⟩
  unfold escapeOf? at h
  split_ifs at h
  · exact Or.inl (letter '"' (by rw [‹c = '"'›]; rfl) h)
  · exact Or.inl (letter '"' (by rw [‹c = '"'›]; rfl) h)
  · exact Or.inl (letter 'b' (by rw [‹c = '\x08'›]; rfl) h)
  · exact Or.inl (letter 't' (by rw [‹c = '\t'›]; rfl) h)
  · exact Or.inl (letter 'n' (by rw [‹c = '\n'›]; rfl) h)
  · exact Or.inl (letter 'f' (by rw [‹c = '\x0c'›]; rfl) h)
  · exact Or.inl (letter 'r' (by rw [‹c = '\r'›]; rfl) h)
  · exact Or.inl (letter '\\' (by rw [‹c = '\\'›]; rfl) h)
  · refine Or.inr ⟨?_, (Option.some.inj h).symm⟩
    have control : isControl c = true := ‹_›
    rw [isControl, Bool.or_eq_true, decide_eq_true_eq, beq_iff_eq] at control
    omega

theorem move_slash (escapes : f.escapes = true) (h : run ≤ f.slack) :
    move f acc '\\' (behind run) = .on .slash (List.replicate run f.quote ++ acc) := by
  have other : '\\' ≠ f.quote := by
    rw [quote_of_escapes escapes]
    decide
  rw [move_behind h other, plainMove, if_neg other, if_pos ⟨rfl, escapes⟩]

theorem move_letter {letter : Char} (h : escaped? letter = some c) :
    move f acc letter .slash = .on .plain (c :: acc) := by
  rw [move, slashMove, h]

/-- The digits of a character's number are read back. -/
theorem hexValue?_twoHexDigits {n : Nat} (h : n < 128) : ∃ high low, twoHexDigits n = [high, low] ∧
    hexValue? high = some (n / 16) ∧ hexValue? low = some (n % 16) := by
  have table : ∀ n : Fin 128, (twoHexDigits n).map hexValue? =
      [some (n.val / 16), some (n.val % 16)] := by decide
  have digits := table ⟨n, h⟩
  rw [twoHexDigits, List.map_cons, List.map_singleton] at digits ⊢
  obtain ⟨high, low⟩ := List.cons.inj digits
  exact ⟨_, _, rfl, high, List.head_eq_of_cons_eq low⟩

theorem readFrom_number (h : c.toNat < 128) (rest : List Char) :
    readFrom f .slash acc ('u' :: '0' :: '0' :: (twoHexDigits c.toNat ++ rest)) =
      readFrom f .plain (c :: acc) rest := by
  obtain ⟨high, low, digits, hh, hl⟩ := hexValue?_twoHexDigits h
  have valid : (c.toNat / 16 * 16 + c.toNat % 16).isValidChar := by
    rw [Nat.div_add_mod' c.toNat 16]
    exact Or.inl (by omega)
  have start : move f acc 'u' .slash = .on (.number 4 0) acc := rfl
  have first : move f acc '0' (.number 4 0) = .on (.number 3 0) acc := rfl
  have second : move f acc '0' (.number 3 0) = .on (.number 2 0) acc := rfl
  have third : move f acc high (.number 2 0) = .on (.number 1 (c.toNat / 16)) acc := by
    rw [move, numberMove, hh]
    simp
  have last : move f acc low (.number 1 (c.toNat / 16)) = .on .plain (c :: acc) := by
    rw [move, numberMove, hl]
    simp only [Nat.lt_irrefl, if_false]
    rw [if_pos valid, Nat.div_add_mod' c.toNat 16, Char.ofNat_toNat]
  rw [digits, List.cons_append, List.singleton_append, readFrom_on start, readFrom_on first,
    readFrom_on second, readFrom_on third, readFrom_on last]

/-- **An escape is read as the character it was written for.** -/
theorem readFrom_escape (escapes : f.escapes = true) (h : run ≤ f.slack)
    (written : escapeOf? f run c = some e) (rest : List Char) :
    readFrom f (behind run) acc (e ++ rest) =
      readFrom f .plain (c :: (List.replicate run f.quote ++ acc)) rest := by
  rcases cases_of_escapeOf? written with ⟨letter, named, rfl⟩ | ⟨small, rfl⟩
  · rw [List.cons_append, List.singleton_append, readFrom_on (move_slash escapes h),
      readFrom_on (move_letter named)]
  · rw [List.append_assoc, List.cons_append, readFrom_on (move_slash escapes h)]
    exact readFrom_number small rest

/-! ## Bodies -/

/-- What stands between the quotes of a form for a text, behind a run of quotes: each character
of the text as it is, or its escape. -/
inductive Spells (f : Form) : Nat → List Char → List Char → Prop
  | nil {run : Nat} : Spells f run [] []
  | char {run : Nat} {c : Char} {text written : List Char} :
      Plain f c → Spells f 0 text written → Spells f run (c :: text) (c :: written)
  | quote {run : Nat} {text written : List Char} : run + 1 ≤ f.slack →
      Spells f (run + 1) text written → Spells f run (f.quote :: text) (f.quote :: written)
  | escape {run : Nat} {c : Char} {e text written : List Char} : f.escapes = true →
      escapeOf? f run c = some e → Spells f 0 text written →
      Spells f run (c :: text) (e ++ written)

/-- The quotes at either end of a string. -/
def Form.quotes (f : Form) : List Char := List.replicate (if f.lines then 3 else 1) f.quote

/-- What comes behind a string on several lines must not start with its quote. -/
def Form.Ends (f : Form) (rest : List Char) : Prop := f.quote ∉ rest.head?

/-- A run of quotes and the closing ones are the end of the text and the end of the string. -/
theorem readFrom_quotes (h : run ≤ f.slack) (ends : f.Ends rest) :
    readFrom f (behind run) acc (f.quotes ++ rest) =
      some (acc.reverse ++ List.replicate run f.quote, rest) := by
  cases lines : f.lines with
  | false =>
    obtain rfl : run = 0 := by simpa [Form.slack, lines] using h
    have closes : move f acc f.quote .plain = .over acc := by
      simp [move, plainMove, lines]
    rw [Form.quotes, if_neg (by simp [lines]), List.replicate_one, List.singleton_append, behind,
      readFrom_cons, closes]
    simp
  | true =>
    have two : run ≤ 2 := by simpa [Form.slack, lines] using h
    have more : ∀ n, n < 5 → move f acc f.quote (.quotes n) = .on (.quotes (n + 1)) acc := by
      intro n hn
      by_cases three : n < 3
      · rw [move, if_pos three, if_pos rfl]
      · rw [move, if_neg three, if_pos ⟨rfl, hn⟩]
    have first : move f acc f.quote (behind run) = .on (.quotes (run + 1)) acc := by
      cases run with
      | zero => rw [behind, move, plainMove, if_pos rfl, if_pos lines]
      | succ n => exact more (n + 1) (by omega)
    have quotes : f.quotes = [f.quote, f.quote, f.quote] := by
      rw [Form.quotes, if_pos lines]
      rfl
    rw [quotes, List.cons_append, List.cons_append, List.singleton_append, readFrom_on first,
      readFrom_on (more _ (by omega)), readFrom_on (more _ (by omega))]
    cases rest with
    | nil => simp [readFrom]
    | cons c rest =>
      have other : c ≠ f.quote := fun same => ends (same ▸ rfl)
      have closes : move f acc c (.quotes (run + 1 + 1 + 1)) =
          .overBefore (List.replicate run f.quote ++ acc) := by
        rw [move, if_neg (by omega), if_neg fun both => other both.1]
        rfl
      rw [readFrom_cons, closes]
      simp

/-- **A body is read as the text it spells.** -/
theorem readFrom_of_spells (spells : Spells f run text written) (h : run ≤ f.slack)
    (ends : f.Ends rest) (acc : List Char) :
    readFrom f (behind run) acc (written ++ f.quotes ++ rest) =
      some (acc.reverse ++ List.replicate run f.quote ++ text, rest) := by
  induction spells generalizing acc with
  | nil => simpa using readFrom_quotes h ends
  | char plain _ ih =>
    rw [List.cons_append, List.cons_append,
      readFrom_on ((move_behind h plain.no_quote).trans (plainMove_of_plain plain)),
      ← behind, ih (Nat.zero_le _)]
    simp
  | quote less _ ih =>
    rw [List.cons_append, List.cons_append, readFrom_on (move_quote less), ih less,
      List.replicate_succ']
    simp
  | escape escapes named _ ih =>
    rw [List.append_assoc, List.append_assoc, readFrom_escape escapes h named, ← behind,
      ← List.append_assoc, ih (Nat.zero_le _)]
    simp

/-! ## Bodies with escapes -/

theorem isLineChar_of_not_control (h : isControl c = false) : isLineChar c = true := by
  rw [isControl, Bool.or_eq_false_iff, decide_eq_false_iff_not, beq_eq_false_iff_ne] at h
  rw [isLineChar, Bool.or_eq_true, Bool.and_eq_true, decide_eq_true_eq, bne_iff_ne]
  exact Or.inr ⟨by omega, h.2⟩

/-- What is not escaped is a quote that may stand in the text, or stands for itself. -/
theorem cases_of_not_escaped (escapes : f.escapes = true) (h : escapeOf? f run c = none) :
    (c = f.quote ∧ run + 1 ≤ f.slack) ∨ (c ≠ '"' ∧ Plain f c) := by
  have quote := quote_of_escapes escapes
  by_cases same : c = '"'
  · subst same
    have more : ¬ f.slack ≤ run := by
      intro full
      rw [escapeOf?, if_pos rfl] at h
      exact absurd ((if_pos full).symm.trans h) (by simp)
    exact Or.inl ⟨quote.symm, by omega⟩
  · refine Or.inr ⟨same, quote ▸ same, ?_, ?_⟩
    · rintro ⟨rfl, _⟩
      simp [escapeOf?] at h
    · by_cases line : c = '\n'
      · subst line
        exact Or.inl ⟨rfl, by simpa [escapeOf?] using h⟩
      · refine Or.inr (isLineChar_of_not_control (Bool.eq_false_iff.mpr fun control => ?_))
        unfold escapeOf? at h
        split_ifs at h

/-- **With escapes every text is spelled.** -/
theorem spells_escapeFrom (escapes : f.escapes = true) (text : List Char) (run : Nat) :
    Spells f run text (escapeFrom f run text) := by
  induction text generalizing run with
  | nil => exact .nil
  | cons c text ih =>
    rw [escapeFrom]
    cases written : escapeOf? f run c with
    | some e => exact .escape escapes written (ih 0)
    | none =>
      rcases cases_of_not_escaped escapes written with ⟨rfl, less⟩ | ⟨other, plain⟩
      · rw [if_pos (quote_of_escapes escapes)]
        exact .quote less (ih (run + 1))
      · rw [if_neg other]
        exact .char plain (ih 0)

/-! ## Bodies without escapes -/

/-- The run of a character that ends a text, and the longest so far. -/
def runStep (q : Char) (runs : Nat × Nat) (c : Char) : Nat × Nat :=
  if c = q then (runs.1 + 1, max runs.2 (runs.1 + 1)) else (0, runs.2)

/-- A longer text has no shorter longest run. -/
theorem le_foldl_runStep (q : Char) (runs : Nat × Nat) (text : List Char) :
    runs.2 ≤ (text.foldl (runStep q) runs).2 := by
  induction text generalizing runs with
  | nil => exact Nat.le_refl _
  | cons c text ih =>
    refine Nat.le_trans ?_ (ih (runStep q runs c))
    rw [runStep]
    split
    · exact Nat.le_max_left _ _
    · exact Nat.le_refl _

/-- A text spells itself if its characters stand for themselves and no run of quotes is too
long. -/
theorem spells_self {best : Nat} (plain : ∀ c ∈ text, c ≠ f.quote → Plain f c)
    (runs : (text.foldl (runStep f.quote) (run, best)).2 ≤ f.slack) : Spells f run text text := by
  induction text generalizing run best with
  | nil => exact .nil
  | cons c text ih =>
    have rest : ∀ c ∈ text, c ≠ f.quote → Plain f c :=
      fun d hd => plain d (List.mem_cons_of_mem c hd)
    rw [List.foldl_cons] at runs
    by_cases quote : c = f.quote
    · rw [runStep, if_pos quote] at runs
      have longest := le_foldl_runStep f.quote (run + 1, max best (run + 1)) text
      subst quote
      exact .quote (Nat.le_trans (Nat.le_trans (Nat.le_max_right _ _) longest) runs) (ih rest runs)
    · rw [runStep, if_neg quote] at runs
      exact .char (plain c List.mem_cons_self quote) (ih rest runs)

/-- **A text that a form holds spells itself.** -/
theorem spells_of_holds (h : f.holds text = true) : Spells f 0 text text := by
  rw [Form.holds, Bool.and_eq_true, Bool.and_eq_true, List.all_eq_true, decide_eq_true_eq] at h
  obtain ⟨⟨chars, no_escape⟩, runs⟩ := h
  refine @spells_self f 0 text 0 (fun c hc quote => ⟨quote, ?_, ?_⟩) runs
  · rintro ⟨rfl, escapes⟩
    simp [escapes, hc] at no_escape
  · have allowed := chars c hc
    rw [Bool.or_eq_true, Bool.or_eq_true, Bool.not_eq_true', Bool.and_eq_true, beq_iff_eq,
      beq_iff_eq] at allowed
    rcases allowed with (shown | rfl) | ⟨lines, rfl⟩
    · exact Or.inr (isLineChar_of_not_control shown)
    · exact Or.inr rfl
    · exact Or.inl ⟨rfl, lines⟩

/-! ## Whole strings -/

theorem Plain.ne_return (h : Plain f c) : c ≠ '\r' := by
  rintro rfl
  rcases h.in_line with ⟨line, _⟩ | line
  · exact absurd line (by decide)
  · exact absurd line (by decide)

/-- How a body can start: with its quote, a backslash, or a character of the text. -/
theorem Spells.starts (spells : Spells f run text written) : written = [] ∨
    (∃ cs, written = f.quote :: cs ∧ 0 < f.slack) ∨
      (∃ cs, written = '\\' :: cs ∧ f.escapes = true) ∨
        ∃ c cs, written = c :: cs ∧ c ∈ text ∧ Plain f c := by
  cases spells with
  | nil => exact Or.inl rfl
  | char plain _ => exact Or.inr (Or.inr (Or.inr ⟨_, _, rfl, List.mem_cons_self, plain⟩))
  | quote less _ => exact Or.inr (Or.inl ⟨_, rfl, Nat.zero_lt_of_lt less⟩)
  | escape escapes named _ =>
    refine Or.inr (Or.inr (Or.inl ?_))
    rcases cases_of_escapeOf? named with ⟨letter, -, rfl⟩ | ⟨-, rfl⟩
    · exact ⟨_, rfl, escapes⟩
    · exact ⟨_, rfl, escapes⟩

theorem quotes_eq_cons (f : Form) : ∃ cs, f.quotes = f.quote :: cs := by
  cases lines : f.lines <;> exact ⟨_, by simp only [Form.quotes, lines]; rfl⟩

theorem behindBreak?_cons {cs : List Char} (line : c ≠ '\n') (back : c ≠ '\r') :
    behindBreak? (c :: cs) = none := by
  unfold behindBreak?
  split <;> simp_all

/-- A body without a line break in its text does not start with one. -/
theorem behindBreak?_of_spells (spells : Spells f run text written) (h : '\n' ∉ text)
    (line : f.quote ≠ '\n') (back : f.quote ≠ '\r') (rest : List Char) :
    behindBreak? (written ++ f.quotes ++ rest) = none := by
  rcases spells.starts with rfl | ⟨cs, rfl, -⟩ | ⟨cs, rfl, -⟩ | ⟨c, cs, rfl, hc, plain⟩
  · obtain ⟨cs, quotes⟩ := quotes_eq_cons f
    rw [quotes]
    exact behindBreak?_cons line back
  · exact behindBreak?_cons line back
  · exact behindBreak?_cons (by decide) (by decide)
  · exact behindBreak?_cons (fun same => h (same ▸ hc)) plain.ne_return

/-- The line break in front of a body on several lines, and no more, is dropped. -/
theorem behindBreak?_lead (spells : Spells f run text written)
    (line : f.quote ≠ '\n') (back : f.quote ≠ '\r') (rest : List Char) :
    let opened := (if text.contains '\n' then ['\n'] else []) ++ (written ++ f.quotes ++ rest)
    (behindBreak? opened).getD opened = written ++ f.quotes ++ rest := by
  intro opened
  by_cases h : '\n' ∈ text
  · have opens : opened = '\n' :: (written ++ f.quotes ++ rest) := by simp [opened, h]
    rw [opens, behindBreak?, Option.getD_some]
  · have opens : opened = written ++ f.quotes ++ rest := by simp [opened, h]
    rw [opens, behindBreak?_of_spells spells h line back, Option.getD_none]

/-- On one line two quotes do not follow the opening one. -/
theorem ne_quotes_of_spells (spells : Spells f run text written) (one : f.lines = false)
    (slash : f.quote ≠ '\\') (ends : f.Ends rest) (cs : List Char) :
    written ++ f.quotes ++ rest ≠ f.quote :: f.quote :: cs := by
  intro same
  rcases spells.starts with rfl | ⟨cs, rfl, some⟩ | ⟨cs, rfl, -⟩ | ⟨c, cs, rfl, -, plain⟩
  · rw [Form.quotes, if_neg (by simp [one])] at same
    have starts : rest = f.quote :: cs := (List.cons.inj same).2
    exact ends (starts ▸ rfl)
  · rw [lines_of_slack some] at one
    cases one
  · exact slash (List.cons.inj same).1.symm
  · exact plain.no_quote (List.cons.inj same).1

/-- What a string in a form has between its quotes. -/
def Form.body (f : Form) (text : List Char) : List Char :=
  if f.escapes then escapeFrom f 0 text else text

theorem spells_body (h : f.escapes = true ∨ f.holds text = true) :
    Spells f 0 text (f.body text) := by
  rw [Form.body]
  by_cases escapes : f.escapes = true
  · rw [if_pos escapes]
    exact spells_escapeFrom escapes text 0
  · rw [if_neg escapes]
    exact spells_of_holds (h.resolve_left escapes)

theorem readFrom_body (h : f.escapes = true ∨ f.holds text = true) (ends : f.Ends rest) :
    readFrom f .plain [] (f.body text ++ f.quotes ++ rest) = some (text, rest) := by
  simpa [behind] using readFrom_of_spells (spells_body h) (Nat.zero_le _) ends []

/-- Whether a text does not start with a quote of either kind. -/
def Unquoted (rest : List Char) : Prop := ∀ c ∈ rest.head?, c ≠ '"' ∧ c ≠ '\''

theorem Unquoted.ends (h : Unquoted rest) (named : f.quote = '"' ∨ f.quote = '\'') :
    f.Ends rest := by
  intro starts
  rcases named with quote | quote
  · exact (h _ starts).1 quote
  · exact (h _ starts).2 quote

/-- A quote with at most one more behind it opens a string on one line. -/
theorem readString?_of_ne {q : Char} {cs : List Char} (h : ∀ rest, cs ≠ q :: q :: rest) :
    readString? (q :: cs) = readLineString? (q :: cs) := by
  unfold readString?
  split
  case h_1 same => exact absurd (List.cons.inj same).2 ((List.cons.inj same).1 ▸ h _)
  case h_2 same => exact absurd (List.cons.inj same).2 ((List.cons.inj same).1 ▸ h _)
  case h_3 => rfl

/-- On one line a string is read as the text it was written for. -/
theorem readString?_line (one : f.lines = false) (h : f.escapes = true ∨ f.holds text = true)
    (named : f.quote = '"' ∨ f.quote = '\'') (ends : Unquoted rest) :
    readString? (f.write text ++ rest) = some (text, rest) := by
  have opened : f.write text ++ rest = f.quote :: (f.body text ++ f.quotes ++ rest) := by
    simp [Form.write, Form.quotes, Form.body, one]
  have slash : f.quote ≠ '\\' := by
    rcases named with quote | quote <;> rw [quote] <;> decide
  have read := readFrom_body h (ends.ends named)
  rw [opened, readString?_of_ne (ne_quotes_of_spells (spells_body h) one slash (ends.ends named))]
  obtain ⟨quote, lines⟩ := f
  obtain rfl : lines = false := one
  rcases named with rfl | rfl
  · exact read
  · exact read

/-- On several lines a string is read as the text it was written for. -/
theorem readString?_lines (several : f.lines = true) (h : f.escapes = true ∨ f.holds text = true)
    (named : f.quote = '"' ∨ f.quote = '\'') (ends : Unquoted rest) :
    readString? (f.write text ++ rest) = some (text, rest) := by
  have no_break : f.quote ≠ '\n' ∧ f.quote ≠ '\r' := by
    rcases named with quote | quote <;> rw [quote] <;> decide
  have opened : f.write text ++ rest = f.quote :: f.quote :: f.quote ::
      ((if text.contains '\n' then ['\n'] else []) ++ (f.body text ++ f.quotes ++ rest)) := by
    simp [Form.write, Form.quotes, Form.body, several, List.replicate_succ]
  have read := readFrom_body h (ends.ends named)
  rw [← behindBreak?_lead (spells_body h) no_break.1 no_break.2] at read
  rw [opened]
  obtain ⟨quote, lines⟩ := f
  obtain rfl : lines = true := several
  rcases named with rfl | rfl
  · exact read
  · exact read

/-- A string is written with escapes, or in a form that holds it without. -/
theorem formFor_cases (text : List Char) :
    (formFor text).escapes = true ∨ (formFor text).holds text = true := by
  unfold formFor
  split_ifs with basic literal basicLines literalLines
  · exact Or.inl rfl
  · exact Or.inr literal
  · exact Or.inl rfl
  · exact Or.inr literalLines
  · exact Or.inl rfl
  · exact Or.inl rfl

theorem formFor_quote (text : List Char) :
    (formFor text).quote = '"' ∨ (formFor text).quote = '\'' := by
  unfold formFor
  split_ifs <;> simp [Form.basic, Form.literal, Form.basicLines, Form.literalLines]

/-- **A written string is read back**, whatever its text is. -/
theorem readString?_writeString (text : String) {rest : List Char} (ends : Unquoted rest) :
    readString? (writeString text ++ rest) = some (text.toList, rest) := by
  cases lines : (formFor text.toList).lines with
  | false => exact readString?_line lines (formFor_cases _) (formFor_quote _) ends
  | true => exact readString?_lines lines (formFor_cases _) (formFor_quote _) ends

end Toml
end Linkage
