import Linkage.Config.Document
import Linkage.Proofs.Toml.Quoting

/-!
# A rendered configuration is read back

A rendered configuration has a line for each field, and each line is the name of the field,
an equals sign and a value.  Reading goes the same way: `Reads` says of the written form of a
value that the reader of values takes it from the front of a text and leaves what follows,
`linesFrom_fieldLine` reads one line whose value is written so, and the document is three or
four such lines.

The values are strings, lists of strings and booleans.  That strings are read back is the
subject of `Linkage.Proofs.Toml.Quoting`; a list is read by an induction on its strings
(`itemsFrom_stringList`), where each turn of the reader takes one string.  A configuration
without search paths has no line for them, and the default that is taken in its place is the
empty list.
-/

namespace Linkage
namespace Toml

variable {fuel depth : Nat} {c : Char} {cs rest : List Char}

/-! ## What the readers skip -/

theorem skipSpaces_cons (h : isSpace c = false) (cs : List Char) :
    skipSpaces (c :: cs) = c :: cs := List.dropWhile_cons_of_neg (by simp [h])

theorem skipSpaces_space (cs : List Char) : skipSpaces (' ' :: cs) = skipSpaces cs := rfl

/-- Whether a character is none of those that the readers skip. -/
def Stays (c : Char) : Prop := isSpace c = false ∧ c ≠ '#' ∧ c ≠ '\n' ∧ c ≠ '\r'

instance (c : Char) : Decidable (Stays c) := inferInstanceAs (Decidable (_ ∧ _))

theorem skipComment_cons (h : c ≠ '#') (cs : List Char) : skipComment (c :: cs) = c :: cs := by
  unfold skipComment
  split <;> simp_all

theorem skipLines_cons (h : Stays c) (fuel : Nat) (cs : List Char) :
    skipLines fuel (c :: cs) = c :: cs := by
  cases fuel with
  | zero => rfl
  | succ fuel =>
    rw [skipLines, skipSpaces_cons h.1, skipComment_cons h.2.1,
      behindBreak?_cons h.2.2.1 h.2.2.2]

theorem skipLines_space (h : Stays c) (fuel : Nat) (cs : List Char) :
    skipLines (fuel + 1) (' ' :: c :: cs) = c :: cs := by
  rw [skipLines, skipSpaces_space, skipSpaces_cons h.1, skipComment_cons h.2.1,
    behindBreak?_cons h.2.2.1 h.2.2.2]

theorem behindLine?_break (rest : List Char) : behindLine? ('\n' :: rest) = some rest := rfl

/-! ## Values -/

/-- Whether a text is read as a value wherever it is followed by a comma, a closing bracket or
the end of its line. -/
def Reads (fuel depth : Nat) (written : List Char) (v : Value) : Prop :=
  ∀ c ∈ [',', ']', '\n'], ∀ rest,
    value? fuel depth (written ++ c :: rest) = some (v, c :: rest)

theorem writeString_eq_cons (text : String) :
    ∃ q cs, writeString text = q :: cs ∧ (q = '"' ∨ q = '\'') := by
  have named := formFor_quote text.toList
  obtain ⟨cs, quotes⟩ := quotes_eq_cons (formFor text.toList)
  rw [Form.quotes] at quotes
  refine ⟨(formFor text.toList).quote, ?_⟩
  rw [writeString, Form.write, quotes, List.cons_append, List.cons_append, List.cons_append]
  exact ⟨_, rfl, named⟩

/-- What opens neither an array nor a table is read as a simple value. -/
theorem value?_of_simple (array : c ≠ '[') (table : c ≠ '\x7b') (cs : List Char) :
    value? fuel depth (c :: cs) = simple? (c :: cs) := by
  cases depth with
  | zero => rfl
  | succ depth =>
    unfold value?
    split
    case h_1 same => exact absurd (List.cons.inj same).1 array
    case h_2 same => exact absurd (List.cons.inj same).1 table
    case h_3 => rfl

theorem simple?_of_quote {q : Char} (h : q = '"' ∨ q = '\'') (cs : List Char) :
    simple? (q :: cs) =
      (readString? (q :: cs)).map fun (text, rest) => (.string (String.ofList text), rest) := by
  rw [simple?, if_pos h]

theorem reads_writeString (fuel depth : Nat) (text : String) :
    Reads fuel depth (writeString text) (.string text) := by
  intro c hc rest
  have others : ∀ c ∈ [',', ']', '\n'], c ≠ '"' ∧ c ≠ '\'' := by simp
  have ends : Unquoted (c :: rest) := by
    rintro _ ⟨⟩
    exact others c hc
  have read := readString?_writeString text ends
  obtain ⟨q, cs, written, named⟩ := writeString_eq_cons text
  rw [written, List.cons_append] at read ⊢
  rw [value?_of_simple (by rcases named with rfl | rfl <;> decide)
    (by rcases named with rfl | rfl <;> decide), simple?_of_quote named, read]
  simp

theorem reads_boolean (fuel depth : Nat) (b : Bool) :
    Reads fuel depth (if b then "true" else "false").toList (.boolean b) := by
  intro c _ rest
  cases b with
  | false => exact value?_of_simple (by decide) (by decide) _
  | true => exact value?_of_simple (by decide) (by decide) _

/-! ## Lists of strings -/

variable {items : List Value} {turns : Nat} {written : List Char} {v : Value}

/-- **A turn of the reader of items takes one value**, and the mark behind it decides whether
there is another turn. -/
theorem itemsFrom_value {q mark : Char} {body : List Char} (starts : written = q :: body)
    (other : q ≠ ']') (reads : Reads fuel depth written v) (hm : mark ∈ [',', ']', '\n'])
    (stays : Stays mark) (here : skipLines fuel cs = written ++ mark :: rest) :
    itemsFrom fuel (value? fuel depth) items (turns + 1) cs =
      match mark :: rest with
      | ',' :: rest => itemsFrom fuel (value? fuel depth) (v :: items) turns rest
      | ']' :: rest => some ((v :: items).reverse, rest)
      | _ => none := by
  have read := reads mark hm rest
  rw [itemsFrom, here]
  split
  case h_1 same => exact absurd (List.cons.inj (starts ▸ same)).1 other
  case h_2 =>
    rw [read]
    show (match skipLines fuel (mark :: rest) with
      | ',' :: rest => itemsFrom fuel (value? fuel depth) (v :: items) turns rest
      | ']' :: rest => some ((v :: items).reverse, rest)
      | _ => none) = _
    rw [skipLines_cons stays]

theorem join_cons (text : String) (texts : List String) :
    [',', ' '].intercalate ((text :: texts).map writeString) =
      writeString text ++ texts.flatMap fun text => ',' :: ' ' :: writeString text := by
  induction texts generalizing text with
  | nil => simp
  | cons next texts ih =>
    rw [List.map_cons, List.map_cons, List.intercalate_cons_cons,
      ← List.map_cons (f := writeString), ih]
    simp

/-- **The strings of a list are read one by one.**  The induction is on the strings behind the
one the reader stands in front of; each of them is behind a comma and a blank. -/
theorem itemsFrom_strings (rest : List Char) (text : String) (texts : List String)
    (many : texts.length ≤ turns)
    (here : skipLines (fuel + 1) cs = writeString text ++
      ((texts.flatMap fun text => ',' :: ' ' :: writeString text) ++ ']' :: rest)) :
    itemsFrom (fuel + 1) (value? (fuel + 1) depth) items (turns + 1) cs =
      some (items.reverse ++ (text :: texts).map .string, rest) := by
  induction texts generalizing text items turns cs with
  | nil =>
    obtain ⟨q, body, starts, named⟩ := writeString_eq_cons text
    have other : q ≠ ']' := by rcases named with rfl | rfl <;> decide
    rw [itemsFrom_value starts other (reads_writeString _ depth text) (by decide) (by decide) here]
    simp
  | cons next texts ih =>
    obtain ⟨q, body, starts, named⟩ := writeString_eq_cons text
    have other : q ≠ ']' := by rcases named with rfl | rfl <;> decide
    obtain ⟨turns, rfl⟩ : ∃ n, turns = n + 1 := ⟨turns - 1, by rw [List.length_cons] at many; omega⟩
    rw [List.flatMap_cons, List.cons_append, List.cons_append, List.cons_append] at here
    rw [itemsFrom_value starts other (reads_writeString _ depth text) (by decide) (by decide) here]
    refine (ih next (by rw [List.length_cons] at many; omega) ?_).trans ?_
    · obtain ⟨q, body, starts, named⟩ := writeString_eq_cons next
      have stays : Stays q := by rcases named with rfl | rfl <;> decide
      rw [starts]
      simp [skipLines_space stays]
    · simp

theorem reads_stringList (text : String) (texts : List String) (many : texts.length ≤ fuel) :
    Reads (fuel + 1) (depth + 1) (Config.stringList (text :: texts))
      (.array ((text :: texts).map .string)) := by
  intro c _ rest
  obtain ⟨q, body, starts, named⟩ := writeString_eq_cons text
  have stays : Stays q := by rcases named with rfl | rfl <;> decide
  have opened : Config.stringList (text :: texts) ++ c :: rest = '[' :: (writeString text ++
      ((texts.flatMap fun text => ',' :: ' ' :: writeString text) ++ ']' :: c :: rest)) := by
    rw [Config.stringList, join_cons]
    simp
  have here : ∀ behind, skipLines (fuel + 1) (writeString text ++ behind) =
      writeString text ++ behind := by
    intro behind
    rw [starts, List.cons_append, skipLines_cons stays]
  rw [opened, value?, itemsFrom_strings (c :: rest) text texts many (here _)]
  rfl

/-! ## Lines -/

/-- The reader of keys takes the name of a field, and the blank behind it. -/
theorem name?_field (field : Config.Field) (rest : List Char) :
    name? (field.name.toList ++ ' ' :: '=' :: rest) = some (field.name, '=' :: rest) := by
  cases field <;> rfl

theorem key?_field (field : Config.Field) (fuel : Nat) (rest : List Char) :
    key? (fuel + 1) (field.name.toList ++ ' ' :: '=' :: rest) =
      some (([], field.name), '=' :: rest) := by
  rw [key?, namesFrom, name?_field]
  rfl

theorem name_eq_cons (field : Config.Field) :
    ∃ c cs, field.name.toList = c :: cs ∧ c ≠ '[' ∧ Stays c := by
  cases field <;> exact ⟨_, _, rfl, by decide, by decide⟩

theorem line?_of_entry (h : c ≠ '[') (r : Reading) (cs : List Char) :
    line? fuel r (c :: cs) =
      match entry? fuel (value? fuel (nestingLimit - 1)) (c :: cs) with
      | none => none
      | some ((way, key, v), rest) =>
        match behindLine? rest, r.root.within (fun t => t.addDotted way key v) r.here with
        | some rest, some root => some (⟨root, r.here⟩, rest)
        | _, _ => none := by
  unfold line?
  split
  case h_1 same => exact absurd (List.cons.inj same).1 h
  case h_2 same => exact absurd (List.cons.inj same).1 h
  case h_3 => rfl

/-- **The line of a field is read as one entry of the table**, if the table has none for the
field yet. -/
theorem linesFrom_fieldLine {field : Config.Field} {t : Table} {first : Char} {body : List Char}
    (starts : written = first :: body) (shown : isSpace first = false)
    (reads : Reads (fuel + 1) (nestingLimit - 1) written v) (fresh : t.get? field.name = none)
    (turns : Nat) (rest : List Char) :
    linesFrom (fuel + 1) ⟨t, []⟩ (turns + 1) (Config.fieldLine field written ++ rest) =
      linesFrom (fuel + 1) ⟨t ++ [(field.name, v)], []⟩ turns rest := by
  have line : Config.fieldLine field written ++ rest =
      field.name.toList ++ ' ' :: '=' :: ' ' :: (written ++ '\n' :: rest) := by
    simp [Config.fieldLine]
  have value : skipSpaces (' ' :: (written ++ '\n' :: rest)) = written ++ '\n' :: rest := by
    rw [skipSpaces_space, starts, List.cons_append, skipSpaces_cons shown]
  have entry : entry? (fuel + 1) (value? (fuel + 1) (nestingLimit - 1))
      (field.name.toList ++ ' ' :: '=' :: ' ' :: (written ++ '\n' :: rest)) =
      some (([], field.name, v), '\n' :: rest) := by
    rw [ entry?, key?_field]
    change Option.map _ (value? _ _ (skipSpaces (' ' :: (written ++ '\n' :: rest)))) = _
    rw [value, reads '\n' (by decide), Option.map_some]
  have added : t.within (fun t => t.addDotted [] field.name v) [] =
      some (t ++ [(field.name, v)]) := by
    rw [Table.within, Table.addDotted, Table.addNew, fresh]
  obtain ⟨c, cs, named, bracket, stays⟩ := name_eq_cons field
  rw [named, List.cons_append] at line entry
  rw [line, linesFrom, skipSpaces_cons stays.1]
  dsimp only
  rw [if_neg stays.2.1, behindBreak?_cons stays.2.2.1 stays.2.2.2, line?_of_entry bracket, entry]
  dsimp only
  rw [behindLine?_break, added]

/-- The line of a field with a string. -/
theorem linesFrom_string {field : Config.Field} {t : Table} (fresh : t.get? field.name = none)
    (text : String) (turns : Nat) (rest : List Char) :
    linesFrom (fuel + 1) ⟨t, []⟩ (turns + 1) (Config.fieldLine field (writeString text) ++ rest) =
      linesFrom (fuel + 1) ⟨t ++ [(field.name, .string text)], []⟩ turns rest := by
  obtain ⟨q, body, starts, named⟩ := writeString_eq_cons text
  have shown : isSpace q = false := by rcases named with rfl | rfl <;> rfl
  exact linesFrom_fieldLine starts shown (reads_writeString _ _ text) fresh turns rest

/-- The line of a field with a list of strings that is not empty. -/
theorem linesFrom_stringList {field : Config.Field} {t : Table} (fresh : t.get? field.name = none)
    {text : String} {texts : List String} (many : texts.length ≤ fuel) (turns : Nat)
    (rest : List Char) :
    linesFrom (fuel + 1) ⟨t, []⟩ (turns + 1)
        (Config.fieldLine field (Config.stringList (text :: texts)) ++ rest) =
      linesFrom (fuel + 1) ⟨t ++ [(field.name, .array ((text :: texts).map .string))], []⟩
        turns rest :=
  linesFrom_fieldLine rfl rfl (reads_stringList text texts many) fresh turns rest

/-- The line of a field with a boolean, where it is the last one. -/
theorem linesFrom_boolean {field : Config.Field} {t : Table} (fresh : t.get? field.name = none)
    (b : Bool) (turns : Nat) :
    linesFrom (fuel + 1) ⟨t, []⟩ (turns + 2)
        (Config.fieldLine field (if b then "true" else "false").toList) =
      some ⟨t ++ [(field.name, .boolean b)], []⟩ := by
  have reads := reads_boolean (fuel + 1) (nestingLimit - 1) b
  have line : linesFrom (fuel + 1) ⟨t, []⟩ (turns + 2)
      (Config.fieldLine field (if b then "true" else "false").toList ++ []) =
      linesFrom (fuel + 1) ⟨t ++ [(field.name, .boolean b)], []⟩ (turns + 1) [] := by
    cases b with
    | false => exact linesFrom_fieldLine rfl rfl reads fresh (turns + 1) []
    | true => exact linesFrom_fieldLine rfl rfl reads fresh (turns + 1) []
  rw [List.append_nil] at line
  exact line

end Toml

namespace Config

open Toml (Value Table)

/-! ## Documents -/

/-- The value of the search paths in a document. -/
def pathsValue (paths : List Path) : Value := .array ((paths.map (·.text)).map .string)

/-- The entries for the texts of a configuration. -/
def textEntries (c : Config) : Table :=
  [(Field.library.name, .string c.library), (Field.symbol.name, .string c.symbol)]

/-- The table of the document that describes a configuration. -/
def table (c : Config) : Table :=
  c.textEntries ++
    (if c.searchPaths.isEmpty then [] else [(Field.searchPaths.name, pathsValue c.searchPaths)]) ++
    [(Field.systemSearchPaths.name, .boolean c.systemSearchPaths)]

@[simp] theorem Field.ofName?_name (field : Field) : Field.ofName? field.name = some field := by
  cases field <;> decide

theorem pathsOf_map (paths : List Path) :
    pathsOf ((paths.map (·.text)).map .string) = .ok paths := by
  induction paths with
  | nil => rfl
  | cons p paths ih =>
    rw [List.map_cons, List.map_cons, pathsOf, ih]
    rfl

theorem searchPathsOf_pathsValue (paths : List Path) :
    searchPathsOf (pathsValue paths) = .ok paths := pathsOf_map paths

/-- **The table describes the configuration.**  Without search paths it has no entry for them,
and the default has none either. -/
theorem ofTable_table (c : Config) : ofTable c.table = .ok c := by
  obtain ⟨library, symbol, paths, system⟩ := c
  cases paths with
  | nil =>
    simp [ofTable, table, textEntries, takeEntries, takeEntry, stringOf, booleanOf, Except.map,
      default]
  | cons p paths =>
    simp [ofTable, table, textEntries, takeEntries, takeEntry, stringOf, booleanOf, Except.map,
      default, searchPathsOf_pathsValue]

theorem length_le_flatMap (texts : List String) :
    texts.length ≤ (texts.flatMap fun text => ',' :: ' ' :: Toml.writeString text).length := by
  induction texts with
  | nil => exact Nat.le_refl _
  | cons text texts ih =>
    rw [List.flatMap_cons, List.length_append, List.length_cons, List.length_cons, List.length_cons]
    omega

theorem length_le_stringList (text : String) (texts : List String) :
    texts.length ≤ (stringList (text :: texts)).length := by
  have many := length_le_flatMap texts
  rw [stringList, Toml.join_cons, List.length_append, List.length_append, List.length_append]
  omega

/-- The document is long enough for the reader to take a turn for each line. -/
theorem exists_length (c : Config) : ∃ fuel, c.renderChars.length = fuel + 4 := by
  refine ⟨c.renderChars.length - 4, ?_⟩
  have long : 4 ≤ c.renderChars.length := by
    simp [renderChars, fieldLine, Field.name]
  omega

/-- **The document of a configuration is read as its table.** -/
theorem read?_render (c : Config) : Toml.read? c.render = some c.table := by
  have mark : Toml.skipMark c.renderChars = c.renderChars := by
    rw [renderChars, fieldLine]
    rfl
  obtain ⟨fuel, hf⟩ := c.exists_length
  have texts : Toml.linesFrom (fuel + 5) ⟨[], []⟩ (fuel + 5) c.renderChars =
      Toml.linesFrom (fuel + 5) ⟨c.textEntries, []⟩ (fuel + 3)
        ((if c.searchPaths.isEmpty then []
          else fieldLine .searchPaths (stringList (c.searchPaths.map (·.text)))) ++
        fieldLine .systemSearchPaths (if c.systemSearchPaths then "true" else "false").toList) := by
    rw [renderChars, List.append_assoc, List.append_assoc, Toml.linesFrom_string rfl,
      Toml.linesFrom_string (by simp [Table.get?, Field.name])]
    rfl
  rw [Toml.read?, render, String.toList_ofList, mark, hf, texts, table]
  cases paths : c.searchPaths with
  | nil =>
    have fresh : c.textEntries.get? Field.systemSearchPaths.name = none := by
      simp [textEntries, Table.get?, Field.name]
    rw [List.isEmpty_nil, if_pos rfl, if_pos rfl, List.nil_append, List.append_nil,
      Toml.linesFrom_boolean fresh]
    rfl
  | cons p paths' =>
    have fresh : c.textEntries.get? Field.searchPaths.name = none := by
      simp [textEntries, Table.get?, Field.name]
    have fresh' : (c.textEntries ++ [(Field.searchPaths.name, pathsValue (p :: paths'))]).get?
        Field.systemSearchPaths.name = none := by
      simp [textEntries, Table.get?, Field.name]
    have many : (paths'.map (·.text)).length ≤ fuel + 4 := by
      have short := length_le_stringList p.text (paths'.map (·.text))
      rw [← hf, renderChars, paths, List.isEmpty_cons, if_neg Bool.false_ne_true, List.map_cons]
      simp only [fieldLine, List.length_append]
      omega
    rw [List.isEmpty_cons, if_neg Bool.false_ne_true, if_neg Bool.false_ne_true, List.map_cons,
      Toml.linesFrom_stringList fresh many, ← List.map_cons (f := Path.text), ← pathsValue,
      Toml.linesFrom_boolean fresh']
    rfl

theorem parse_render (file : Path) (c : Config) : parse file c.render = .ok c := by
  rw [parse, read?_render]
  simp only [ofTable_table]

end Config
end Linkage
