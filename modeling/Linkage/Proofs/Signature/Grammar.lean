import Linkage.Proofs.Text.Cutting
import Linkage.Signature
import Mathlib.Data.List.Chain
import Mathlib.Data.List.Forall2

/-!
# The grammar of signature texts

A signature text is read by trimming it, cutting it at the first `)->` and cutting what is in
front of that at its commas.  `Signature.Written` says what such a text looks like without
saying how it is read: an opening parenthesis, the parameters, `)->` and the name of the return
type, with blanks around each of them.  That the texts read as a signature are the ones written
so (`parse?_iff`) rests on one fact about the names of types, `clean_of_mem_name`: none of
their characters is a blank or one of the characters of `(,)->`.  So the first `)->` of a
written text is the one behind its parameters, and its commas are the ones between them.

The texts that are refused are read off the grammar.  What is left of a written text without
its blanks is the text of its signature (`Written.unblanked`), in which every comma is followed
by the `c` of a name (`comma_in_text`).
-/

namespace Linkage

open Text (Blanks)

/-! ## Names of types -/

namespace CType

/-- Whether a character is neither a blank nor a mark of the grammar. -/
def Clean (c : Char) : Prop := Text.isBlank c = false ∧ c ∉ ['(', ',', ')', '-', '>']

instance (c : Char) : Decidable (Clean c) := inferInstanceAs (Decidable (_ ∧ _))

theorem clean_of_mem_name (t : CType) : ∀ c ∈ t.name.toList, Clean c := by
  have all : (t.name.toList.all fun c => decide (Clean c)) = true := by cases t <;> decide
  exact fun c hc => of_decide_eq_true (List.all_eq_true.mp all c hc)

/-- A name starts with `c`, and its last character is no blank. -/
theorem ends_of_name (t : CType) : ∃ cs ds d, t.name.toList = 'c' :: cs ∧
    t.name.toList = ds ++ [d] ∧ Text.isBlank d = false := by
  cases t
  · exact ⟨_, "c_in".toList, 't', rfl, rfl, rfl⟩
  · exact ⟨_, "c_int6".toList, '4', rfl, rfl, rfl⟩
  · exact ⟨_, "c_char_pt".toList, 'r', rfl, rfl, rfl⟩
  · exact ⟨_, "c_voi".toList, 'd', rfl, rfl, rfl⟩

theorem trim_name (t : CType) : Text.trim t.name.toList = t.name.toList := by
  obtain ⟨cs, ds, d, first, last, hd⟩ := t.ends_of_name
  rw [first]
  exact Text.trim_of_ends (first ▸ last) rfl hd

end CType

namespace Signature

/-! ## The grammar -/

/-- A stretch of text that has the name of a type and blanks around it. -/
def Names (t : CType) (part : List Char) : Prop :=
  ∃ u v, Blanks u ∧ Blanks v ∧ part = u ++ t.name.toList ++ v

/-- What stands between the parentheses: blanks if there are no parameters, and otherwise the
names of the parameters in order, with blanks around each and one comma between any two. -/
def Lists (ts : List CType) (inner : List Char) : Prop :=
  (ts = [] ∧ Blanks inner) ∨
    ∃ parts, parts ≠ [] ∧ List.Forall₂ Names ts parts ∧ inner = [','].intercalate parts

/-- The texts of a signature: the parameters in parentheses, `->` and the return type. -/
def Written (s : Signature) (cs : List Char) : Prop :=
  ∃ u inner ret, Blanks u ∧ Lists s.params inner ∧ Names s.ret ret ∧
    cs = u ++ '(' :: (inner ++ ")->".toList ++ ret)

variable {s : Signature} {t : CType} {ts : List CType} {part inner cs : List Char}

theorem Names.trim_eq (h : Names t part) : Text.trim part = t.name.toList := by
  obtain ⟨u, v, hu, hv, rfl⟩ := h
  rw [Text.trim_padded hu hv, t.trim_name]

theorem names_iff_trim : Names t part ↔ Text.trim part = t.name.toList := by
  constructor
  · exact Names.trim_eq
  · intro h
    obtain ⟨u, v, hu, hv, whole⟩ := Text.exists_trim part
    exact ⟨u, v, hu, hv, h ▸ whole⟩

/-- A stretch is read as a type just if it names it. -/
theorem typeOf?_eq_some : typeOf? part = some t ↔ Names t part := by
  rw [typeOf?, CType.ofName?_eq_some, names_iff_trim, ← String.toList_inj, String.toList_ofList]

theorem Names.not_blanks (h : Names t part) : ¬ Blanks part := by
  intro blank
  obtain ⟨cs, _, _, first, _⟩ := t.ends_of_name
  have trimmed := h.trim_eq
  rw [Text.trim_eq_nil.mpr blank, first] at trimmed
  cases trimmed

/-- The marks of the grammar do not stand in a name with blanks around it. -/
theorem Names.not_mem (h : Names t part) {c : Char} (mark : c ∈ ['(', ',', ')', '-', '>'])
    (shown : Text.isBlank c = false) : c ∉ part := by
  obtain ⟨u, v, hu, hv, rfl⟩ := h
  rw [List.mem_append, List.mem_append, not_or, not_or]
  exact ⟨⟨hu.not_mem shown, fun hc => (t.clean_of_mem_name c hc).2 mark⟩, hv.not_mem shown⟩

/-! ## The parameters -/

theorem mapM_typeOf?_eq_some {parts : List (List Char)} :
    parts.mapM typeOf? = some ts ↔ List.Forall₂ Names ts parts := by
  induction parts generalizing ts with
  | nil => simp [eq_comm]
  | cons part parts ih =>
    rw [List.mapM_cons, List.forall₂_cons_right_iff]
    constructor
    · intro h
      obtain ⟨t, named, h⟩ := Option.bind_eq_some_iff.mp h
      obtain ⟨ts', others, h⟩ := Option.bind_eq_some_iff.mp h
      exact ⟨t, ts', typeOf?_eq_some.mp named, ih.mp others, (Option.some.inj h).symm⟩
    · rintro ⟨t, ts', named, others, rfl⟩
      rw [typeOf?_eq_some.mpr named, ih.mpr others]
      rfl

/-- Every part names a type of the list. -/
theorem names_of_mem {parts : List (List Char)} (h : List.Forall₂ Names ts parts)
    (hp : part ∈ parts) : ∃ t, Names t part := by
  induction h with
  | nil => exact absurd hp List.not_mem_nil
  | cons named _ ih =>
    rcases List.mem_cons.mp hp with rfl | among
    · exact ⟨_, named⟩
    · exact ih among

/-- Parts that name types have no commas, so their commas are the ones between them. -/
theorem splitOn_of_names {parts : List (List Char)} (some : parts ≠ [])
    (h : List.Forall₂ Names ts parts) : Text.splitOn ',' ([','].intercalate parts) = parts := by
  refine Text.splitOn_intercalate some fun part hp => ?_
  obtain ⟨t, named⟩ := names_of_mem h hp
  exact named.not_mem (by decide) rfl

/-- Blanks are no list of names. -/
theorem not_names_of_blanks (blank : Blanks inner) (h : List.Forall₂ Names ts [inner]) :
    False := by
  obtain ⟨t, named⟩ := names_of_mem h (List.mem_singleton_self inner)
  exact named.not_blanks blank

theorem Lists.eq_nil (blank : Blanks inner) (h : Lists ts inner) : ts = [] := by
  rcases h with ⟨rfl, _⟩ | ⟨parts, some, named, whole⟩
  · rfl
  · have single : parts = [inner] := by
      rw [← splitOn_of_names some named, ← whole, Text.splitOn_of_free (blank.not_mem rfl)]
    exact absurd (single ▸ named) (not_names_of_blanks blank)

/-- **What stands between the parentheses is read as the list of its parameters.** -/
theorem paramsOf?_eq_some : paramsOf? inner = some ts ↔ Lists ts inner := by
  unfold paramsOf?
  split
  case isTrue h =>
    have blank : Blanks inner := Text.trim_eq_nil.mp (List.isEmpty_iff.mp h)
    constructor
    · intro h
      exact Or.inl ⟨(Option.some.inj h).symm, blank⟩
    · intro h
      rw [h.eq_nil blank]
  case isFalse h =>
    have shown : ¬ Blanks inner := fun blank =>
      h (List.isEmpty_iff.mpr (Text.trim_eq_nil.mpr blank))
    rw [mapM_typeOf?_eq_some]
    constructor
    · intro named
      exact Or.inr ⟨_, Text.splitOn_ne_nil ',' inner, named, (Text.intercalate_splitOn _ _).symm⟩
    · rintro (⟨_, blank⟩ | ⟨parts, some, named, rfl⟩)
      · exact absurd blank shown
      · rwa [splitOn_of_names some named]

/-- Of the marks of the grammar only the comma stands between the parentheses. -/
theorem Lists.not_mem (h : Lists ts inner) {c : Char} (mark : c ∈ ['(', ',', ')', '-', '>'])
    (other : c ≠ ',') (shown : Text.isBlank c = false) : c ∉ inner := by
  rcases h with ⟨_, blank⟩ | ⟨parts, _, named, rfl⟩
  · exact blank.not_mem shown
  · intro within
    rcases Text.mem_of_mem_intercalate within with comma | ⟨part, hp, hc⟩
    · exact other comma
    · obtain ⟨t, names⟩ := names_of_mem named hp
      exact names.not_mem mark shown hc

/-! ## Whole texts -/

/-- **The texts read as a signature are the ones written so.** -/
theorem ofChars?_eq_some : ofChars? cs = some s ↔ s.Written cs := by
  constructor
  · intro h
    obtain ⟨u, v, hu, hv, whole⟩ := Text.exists_trim cs
    unfold ofChars? at h
    split at h
    case h_2 => cases h
    case h_1 rest opened =>
    split at h
    case h_2 => cases h
    case h_1 inner ret closed =>
    split at h
    case h_2 => cases h
    case h_1 params ret' lists named =>
    obtain rfl := Option.some.inj h
    obtain ⟨u', v', hu', hv', rfl⟩ := typeOf?_eq_some.mp named
    refine ⟨u, inner, u' ++ ret'.name.toList ++ (v' ++ v), hu, paramsOf?_eq_some.mp lists,
      ⟨u', v' ++ v, hu', Text.blanks_append.mpr ⟨hv', hv⟩, rfl⟩, ?_⟩
    rw [whole, opened, Text.eq_of_splitAt? closed]
    simp
  · rintro ⟨u, inner, _, hu, lists, ⟨u', v, hu', hv, rfl⟩, rfl⟩
    obtain ⟨_, ds, d, _, last, hd⟩ := s.ret.ends_of_name
    have ends : '(' :: (inner ++ [')', '-', '>'] ++ (u' ++ s.ret.name.toList)) =
        '(' :: (inner ++ [')', '-', '>'] ++ (u' ++ ds)) ++ [d] := by
      rw [last]
      simp
    have trimmed : Text.trim (u ++ '(' :: (inner ++ ")->".toList ++
        (u' ++ s.ret.name.toList ++ v))) =
        '(' :: (inner ++ [')', '-', '>'] ++ (u' ++ s.ret.name.toList)) := by
      refine Eq.trans (congrArg Text.trim ?_)
        ((Text.trim_padded hu hv _).trans (Text.trim_of_ends ends rfl hd))
      simp
    have cut : Text.splitAt? [')', '-', '>']
        (inner ++ [')', '-', '>'] ++ (u' ++ s.ret.name.toList)) =
        some (inner, u' ++ s.ret.name.toList) :=
      Text.splitAt?_append (lists.not_mem (by decide) (by decide) rfl) _
    have named : typeOf? (u' ++ s.ret.name.toList) = some s.ret :=
      typeOf?_eq_some.mpr ⟨u', [], hu', Text.blanks_nil, (List.append_nil _).symm⟩
    rw [ofChars?, trimmed]
    simp only [cut]
    rw [paramsOf?_eq_some.mpr lists, named]

theorem parse?_eq_some {text : String} : parse? text = some s ↔ s.Written text.toList :=
  ofChars?_eq_some

/-- The only `)` of a written text closes its list of parameters. -/
theorem Written.at_close {x y : List Char} (h : s.Written (x ++ ')' :: y)) :
    (∃ u inner, Blanks u ∧ Lists s.params inner ∧ x = u ++ '(' :: inner) ∧
      ∃ ret, Names s.ret ret ∧ y = '-' :: '>' :: ret := by
  obtain ⟨u, inner, ret, hu, lists, named, whole⟩ := h
  have before : ')' ∉ u ++ '(' :: inner := by
    rw [List.mem_append, List.mem_cons, not_or, not_or]
    exact ⟨hu.not_mem rfl, by decide, lists.not_mem (by decide) (by decide) rfl⟩
  have behind : ')' ∉ '-' :: '>' :: ret := by
    rw [List.mem_cons, List.mem_cons, not_or, not_or]
    exact ⟨by decide, by decide, named.not_mem (by decide) rfl⟩
  have same : (u ++ '(' :: inner) ++ ')' :: ('-' :: '>' :: ret) = x ++ ')' :: y := by
    simpa using whole.symm
  obtain ⟨rfl, -, rfl⟩ := (List.append_cons_inj_of_notMem before behind).mp same
  exact ⟨⟨u, inner, hu, lists, rfl⟩, ret, named, rfl⟩

/-- The only `-` of a written text stands in front of `>`. -/
theorem Written.at_dash {x y : List Char} (h : s.Written (x ++ '-' :: y)) :
    ∃ ret, y = '>' :: ret := by
  obtain ⟨u, inner, ret, hu, lists, named, whole⟩ := h
  have before : '-' ∉ u ++ '(' :: inner ++ [')'] := by
    rw [List.mem_append, List.mem_append, List.mem_cons, List.mem_singleton, not_or, not_or, not_or]
    exact ⟨⟨hu.not_mem rfl, by decide, lists.not_mem (by decide) (by decide) rfl⟩, by decide⟩
  have behind : '-' ∉ '>' :: ret := by
    rw [List.mem_cons, not_or]
    exact ⟨by decide, named.not_mem (by decide) rfl⟩
  have same : (u ++ '(' :: inner ++ [')']) ++ '-' :: ('>' :: ret) = x ++ '-' :: y := by
    simpa using whole.symm
  obtain ⟨-, -, rfl⟩ := (List.append_cons_inj_of_notMem before behind).mp same
  exact ⟨ret, rfl⟩

/-- The only `(` of a written text opens its list of parameters. -/
theorem Written.parts {u inner ret : List Char}
    (h : s.Written (u ++ '(' :: (inner ++ ")->".toList ++ ret))) :
    Lists s.params inner ∧ Names s.ret ret := by
  have shape : u ++ '(' :: (inner ++ ")->".toList ++ ret) =
      (u ++ '(' :: inner) ++ ')' :: '-' :: '>' :: ret := by simp
  rw [shape] at h
  obtain ⟨⟨u', inner', hu, lists, same⟩, ret', named, same'⟩ := h.at_close
  obtain rfl : ret = ret' := by simpa using same'
  obtain ⟨rfl, -, rfl⟩ := (List.append_cons_inj_of_notMem (hu.not_mem rfl)
    (lists.not_mem (c := '(') (by decide) (by decide) rfl)).mp same.symm
  exact ⟨lists, named⟩

/-! ## The text of a signature -/

theorem toList_text (s : Signature) : s.text.toList =
    '(' :: ([','].intercalate (s.params.map (·.name.toList)) ++ ")->".toList ++
      s.ret.name.toList) := by
  simp [text, String.toList_append, String.toList_intercalate, List.map_map, Function.comp_def]

theorem names_name (t : CType) : Names t t.name.toList :=
  ⟨[], [], Text.blanks_nil, Text.blanks_nil, by simp⟩

/-- The text of a signature is one of its texts. -/
theorem written_text (s : Signature) : s.Written s.text.toList := by
  refine ⟨[], _, _, Text.blanks_nil, ?_, names_name s.ret, toList_text s⟩
  cases none : s.params with
  | nil => exact Or.inl ⟨rfl, Text.blanks_nil⟩
  | cons t ts =>
    refine Or.inr ⟨_, by simp, ?_, rfl⟩
    rw [List.forall₂_map_right_iff, List.forall₂_same]
    exact fun t _ => names_name t

theorem Names.unblanked_eq (h : Names t part) : Text.unblanked part = t.name.toList := by
  obtain ⟨u, v, hu, hv, rfl⟩ := h
  rw [Text.unblanked_append, Text.unblanked_append, hu.unblanked, hv.unblanked, List.nil_append,
    List.append_nil, Text.unblanked_of_shown fun c hc => (t.clean_of_mem_name c hc).1]

theorem Lists.unblanked_eq (h : Lists ts inner) :
    Text.unblanked inner = [','].intercalate (ts.map (·.name.toList)) := by
  rcases h with ⟨rfl, blank⟩ | ⟨parts, some, named, rfl⟩
  · exact blank.unblanked
  · have names : parts.map Text.unblanked = ts.map (·.name.toList) := by
      clear some
      induction named with
      | nil => rfl
      | cons names _ ih => rw [List.map_cons, List.map_cons, names.unblanked_eq, ih]
    rw [Text.unblanked_intercalate rfl, names]

/-- **Without its blanks a written text is the text of its signature.** -/
theorem Written.unblanked_eq (h : s.Written cs) : Text.unblanked cs = s.text.toList := by
  obtain ⟨u, inner, ret, hu, lists, named, rfl⟩ := h
  have marks : Text.unblanked ")->".toList = ")->".toList := by decide
  rw [Text.unblanked_append, hu.unblanked, List.nil_append, Text.unblanked_cons rfl,
    Text.unblanked_append, Text.unblanked_append, lists.unblanked_eq, marks, named.unblanked_eq,
    toList_text]

/-- Only the first character of a name comes behind a comma. -/
def BehindComma (c d : Char) : Prop := c = ',' → d = 'c'

theorem isChain_of_free (free : ',' ∉ cs) : cs.IsChain BehindComma := by
  refine List.Pairwise.isChain (List.pairwise_of_forall_mem_list ?_)
  rintro c hc d _ rfl
  exact absurd hc free

theorem comma_not_mem_name (t : CType) : ',' ∉ t.name.toList :=
  fun hc => absurd (t.clean_of_mem_name _ hc).2 (by decide)

theorem isChain_append_comma {front rest : List Char} (free : ',' ∉ front)
    (h : ('c' :: rest).IsChain BehindComma) :
    (front ++ ',' :: 'c' :: rest).IsChain BehindComma := by
  refine List.isChain_append.mpr ⟨isChain_of_free free, List.isChain_cons_cons.mpr
    ⟨fun _ => rfl, h⟩, ?_⟩
  rintro c hc d _ rfl
  exact absurd (List.mem_of_getLast? hc) free

theorem starts_intercalate (t : CType) (ts : List CType) :
    ∃ rest, [','].intercalate ((t :: ts).map (·.name.toList)) = 'c' :: rest := by
  obtain ⟨cs, _, _, first, _⟩ := t.ends_of_name
  cases ts with
  | nil => exact ⟨cs, by rw [List.map_singleton, List.intercalate_singleton, first]⟩
  | cons t' ts =>
    rw [List.map_cons, List.map_cons, List.intercalate_cons_cons, first]
    exact ⟨_, rfl⟩

/-- The commas of a list of names stand in front of names. -/
theorem isChain_intercalate {tail : List Char} (free : ',' ∉ tail) (ts : List CType) :
    ([','].intercalate (ts.map (·.name.toList)) ++ tail).IsChain BehindComma := by
  induction ts with
  | nil => exact isChain_of_free free
  | cons t ts ih =>
    cases ts with
    | nil =>
      refine isChain_of_free ?_
      rw [List.map_singleton, List.intercalate_singleton, List.mem_append, not_or]
      exact ⟨comma_not_mem_name t, free⟩
    | cons t' ts =>
      obtain ⟨rest, starts⟩ := starts_intercalate t' ts
      have whole : [','].intercalate ((t :: t' :: ts).map (·.name.toList)) =
          t.name.toList ++ ',' :: 'c' :: rest := by
        rw [← starts, List.map_cons, List.map_cons, List.intercalate_cons_cons, List.append_assoc,
          List.singleton_append]
      rw [starts] at ih
      rw [whole, List.append_assoc]
      exact isChain_append_comma (comma_not_mem_name t) ih

/-- **Behind every comma of the text of a signature stands a name.** -/
theorem isChain_text (s : Signature) : s.text.toList.IsChain BehindComma := by
  have free : ',' ∉ ")->".toList ++ s.ret.name.toList := by
    rw [List.mem_append, not_or]
    exact ⟨by decide, comma_not_mem_name s.ret⟩
  rw [toList_text, List.append_assoc]
  exact (isChain_intercalate free s.params).cons fun _ _ opens => absurd opens (by decide)

/-- In a written text, blanks aside, nothing but a name comes behind a comma. -/
theorem Written.behind_comma {x w y : List Char} {c : Char}
    (h : s.Written (x ++ ',' :: (w ++ c :: y))) (blank : Blanks w)
    (shown : Text.isBlank c = false) : c = 'c' := by
  have text := h.unblanked_eq
  rw [Text.unblanked_append, Text.unblanked_cons rfl, Text.unblanked_append, blank.unblanked,
    List.nil_append, Text.unblanked_cons shown] at text
  have chain := isChain_text s
  rw [← text, List.isChain_append_cons_cons] at chain
  exact chain.2.1 rfl

/-! ## What is read, and what is refused -/

theorem parse?_text (s : Signature) : parse? s.text = some s := parse?_eq_some.mpr s.written_text

theorem parse?_eq_none {cs : List Char} (h : ∀ s : Signature, ¬ s.Written cs) :
    parse? (String.ofList cs) = none := by
  cases read : parse? (String.ofList cs) with
  | none => rfl
  | some s =>
    have written := parse?_eq_some.mp read
    rw [String.toList_ofList] at written
    exact absurd written (h s)

/-- A comma with nothing but blanks behind it, at the end of the list or in front of another
comma, is refused. -/
theorem parse?_of_comma {w : List Char} (blank : Blanks w) {c : Char}
    (mark : c = ',' ∨ c = ')') (x y : List Char) :
    parse? (String.ofList (x ++ ',' :: (w ++ c :: y))) = none := by
  refine parse?_eq_none fun s h => ?_
  rcases mark with rfl | rfl
  · exact absurd (h.behind_comma blank rfl) (by decide)
  · exact absurd (h.behind_comma blank rfl) (by decide)

/-- A parameter that names no type is refused, unless blanks are all there is between the
parentheses.  It has no comma, since a comma would make two parameters of it. -/
theorem parse?_of_unnamed_param {parts : List (List Char)} (free : ∀ part ∈ parts, ',' ∉ part)
    (among : part ∈ parts) (unnamed : ∀ t, ¬ Names t part) (shown : ∀ w, Blanks w → parts ≠ [w])
    (u ret : List Char) : parse? (String.ofList
      (u ++ '(' :: ([','].intercalate parts ++ ")->".toList ++ ret))) = none := by
  refine parse?_eq_none fun s h => ?_
  have some : parts ≠ [] := List.ne_nil_of_mem among
  rcases h.parts.1 with ⟨_, blank⟩ | ⟨parts', some', named, same⟩
  · have split := Text.splitOn_intercalate some free
    rw [Text.splitOn_of_free (blank.not_mem rfl)] at split
    exact shown _ blank split.symm
  · have split := splitOn_of_names some' named
    rw [← same, Text.splitOn_intercalate some free] at split
    obtain ⟨t, names⟩ := names_of_mem named (split ▸ among)
    exact unnamed t names

/-- A return type that names no type is refused. -/
theorem parse?_of_unnamed_ret {ret : List Char} (unnamed : ∀ t, ¬ Names t ret)
    (u inner : List Char) :
    parse? (String.ofList (u ++ '(' :: (inner ++ ")->".toList ++ ret))) = none :=
  parse?_eq_none fun s h => unnamed s.ret h.parts.2

/-- Blanks inside `)->` are refused. -/
theorem parse?_of_gap {b : Char} (blank : Text.isBlank b = true) (x y : List Char) :
    parse? (String.ofList (x ++ ')' :: b :: y)) = none ∧
      parse? (String.ofList (x ++ '-' :: b :: y)) = none := by
  constructor
  · refine parse?_eq_none fun s h => ?_
    obtain ⟨-, ret, -, same⟩ := h.at_close
    rw [(List.cons.inj same).1] at blank
    exact absurd blank (by decide)
  · refine parse?_eq_none fun s h => ?_
    obtain ⟨ret, same⟩ := h.at_dash
    rw [(List.cons.inj same).1] at blank
    exact absurd blank (by decide)

/-- **The texts of signatures are read exactly.**  A text is read as a signature just if the
grammar writes that signature so, and the text of every signature is read back as it, so two
signatures with one text are the same.  A comma without a name behind it, a parameter or return
type that is no name, and a blank inside `)->` are refused; and a text has no character, blanks
aside, but those of the text of the signature it is read as. -/
theorem reads_grammar_exactly :
    (∀ (text : String) (s : Signature), parse? text = some s ↔ s.Written text.toList) ∧
    (∀ s : Signature, parse? s.text = some s) ∧
    (∀ s s' : Signature, s.text = s'.text → s = s') ∧
    (∀ (x w y : List Char), Blanks w →
      parse? (String.ofList (x ++ ',' :: (w ++ ')' :: y))) = none ∧
      parse? (String.ofList (x ++ ',' :: (w ++ ',' :: y))) = none) ∧
    (∀ (u : List Char) (parts : List (List Char)) (ret : List Char),
      (∀ part ∈ parts, ',' ∉ part) →
      (∃ part ∈ parts, ∀ t, ¬ Names t part) → (∀ w, Blanks w → parts ≠ [w]) →
      parse? (String.ofList (u ++ '(' :: ([','].intercalate parts ++ ")->".toList ++ ret))) =
        none) ∧
    (∀ (u inner ret : List Char), (∀ t, ¬ Names t ret) →
      parse? (String.ofList (u ++ '(' :: (inner ++ ")->".toList ++ ret))) = none) ∧
    (∀ (x : List Char) (b : Char) (y : List Char), Text.isBlank b = true →
      parse? (String.ofList (x ++ ')' :: b :: y)) = none ∧
      parse? (String.ofList (x ++ '-' :: b :: y)) = none) ∧
    (∀ (text : String) (s : Signature), parse? text = some s →
      Text.unblanked text.toList = s.text.toList) := by
  refine ⟨fun text s => parse?_eq_some, parse?_text, fun s s' same => ?_, fun x w y blank => ?_,
    fun u parts ret free ⟨part, among, unnamed⟩ shown => ?_,
    fun u inner ret unnamed => parse?_of_unnamed_ret unnamed u inner,
    fun x b y blank => parse?_of_gap blank x y,
    fun text s read => (parse?_eq_some.mp read).unblanked_eq⟩
  · have read := parse?_text s
    rw [same, parse?_text s'] at read
    exact (Option.some.inj read).symm
  · exact ⟨parse?_of_comma blank (Or.inr rfl) x y, parse?_of_comma blank (Or.inl rfl) x y⟩
  · exact parse?_of_unnamed_param free among unnamed shown u ret

example : parse? " ( c_int , c_int64)->c_void\n" = some ⟨[.int, .int64], .void⟩ := by decide

end Signature
end Linkage
