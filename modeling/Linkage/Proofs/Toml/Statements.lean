import Linkage.Toml.Reader
import Mathlib.Data.List.Nodup

/-!
# What a document says, and what comes of it

The reader goes through a document line by line and adds each line to the table at once.  The two
parts can be told apart: what a line says is a `Statement`, which depends on nothing but the text,
and what comes of it is `Reading.take`, which depends on nothing but the statement and what was
read so far (`line?_eq`).  So a document is a list of statements, and its table is what they come
to one after the other (`read?_eq`).

A value stands in a document as a whole.  It is no table that later lines could add to
(`whole_value?`, one lemma for each of the readers that it calls), and so no statement has one
(`whole_of_statements?`).
-/

namespace Linkage
namespace Toml

variable {fuel turns : Nat} {cs rest : List Char} {key : String} {v : Value} {way : List String}
  {s : Statement}

/-! ## Documents as statements -/

/-- What a line of a document says. -/
inductive Statement where
  /-- A name has a value. -/
  | entry (way : List String) (key : String) (v : Value)
  /-- What follows is about a table. -/
  | header (way : List String) (key : String)
  /-- What follows is about one more table of a list. -/
  | next (way : List String) (key : String)

/-- Reads what a line says that is not blank, from its first character that is no blank. -/
def statement? (fuel : Nat) (cs : List Char) : Option (Statement × List Char) :=
  match cs with
  | '[' :: '[' :: rest =>
    (header? fuel [']', ']'] rest).map fun ((way, key), rest) => (.next way key, rest)
  | '[' :: rest => (header? fuel [']'] rest).map fun ((way, key), rest) => (.header way key, rest)
  | cs =>
    match entry? fuel (value? fuel (nestingLimit - 1)) cs with
    | none => none
    | some ((way, key, v), rest) => (behindLine? rest).map fun rest => (.entry way key v, rest)

/-- What comes of a statement. -/
def Reading.take (r : Reading) : Statement → Option Reading
  | .entry way key v =>
    (r.root.within (fun t => t.addDotted way key v) r.here).map fun root => ⟨root, r.here⟩
  | .header way key =>
    (r.root.within (Table.openTable key) way).map fun root => ⟨root, way ++ [key]⟩
  | .next way key =>
    (r.root.within (Table.openNext key) way).map fun root => ⟨root, way ++ [key]⟩

theorem statement?_of_header (single : ∀ rest', rest ≠ '[' :: rest') :
    statement? fuel ('[' :: rest) =
      (header? fuel [']'] rest).map fun ((way, key), rest) => (.header way key, rest) := by
  unfold statement?
  split
  case h_1 same => exact absurd (List.cons.inj same).2 (single _)
  case h_2 same => rw [(List.cons.inj same).2]
  case h_3 other => exact absurd rfl (other rest)

theorem statement?_of_entry (entry : ∀ rest, cs ≠ '[' :: rest) :
    statement? fuel cs =
      match entry? fuel (value? fuel (nestingLimit - 1)) cs with
      | none => none
      | some ((way, key, v), rest) =>
        (behindLine? rest).map fun rest => (.entry way key v, rest) := by
  unfold statement?
  split
  · exact absurd rfl (entry _)
  · exact absurd rfl (entry _)
  · rfl

/-- A line is read by reading what it says and taking it. -/
theorem line?_eq (fuel : Nat) (r : Reading) (cs : List Char) :
    line? fuel r cs =
      (statement? fuel cs).bind fun s => (r.take s.1).map fun r => (r, s.2) := by
  unfold line?
  split
  case h_1 rest =>
    rw [statement?]
    rcases header? fuel [']', ']'] rest with _ | ⟨⟨way, key⟩, rest⟩
    · rfl
    · simp [Reading.take, Function.comp_def]
  case h_2 rest single =>
    rw [statement?_of_header single]
    rcases header? fuel [']'] rest with _ | ⟨⟨way, key⟩, rest⟩
    · rfl
    · simp [Reading.take, Function.comp_def]
  case h_3 single =>
    rw [statement?_of_entry single]
    rcases entry? fuel (value? fuel (nestingLimit - 1)) cs with _ | ⟨⟨way, key, v⟩, rest⟩
    · rfl
    · dsimp only
      rcases behindLine? rest with _ | rest
      · rfl
      · rw [Option.map_some, Option.bind_some, Reading.take]
        rcases r.root.within (fun t => t.addDotted way key v) r.here with _ | root <;> rfl

/-- Reads what the lines of a document say. -/
def statementsFrom (fuel : Nat) : (turns : Nat) → List Char → Option (List Statement)
  | 0, _ => none
  | turns + 1, cs =>
    match skipSpaces cs with
    | [] => some []
    | c :: rest =>
      if c = '#' then (behindLine? (c :: rest)).bind (statementsFrom fuel turns)
      else
        match behindBreak? (c :: rest) with
        | some rest => statementsFrom fuel turns rest
        | none => (statement? fuel (c :: rest)).bind fun s =>
          (statementsFrom fuel turns s.2).map (s.1 :: ·)

/-- What comes of statements, one after the other. -/
def Reading.takeAll (r : Reading) (ss : List Statement) : Option Reading := ss.foldlM Reading.take r

@[simp] theorem Reading.takeAll_nil (r : Reading) : r.takeAll [] = some r := rfl

@[simp] theorem Reading.takeAll_cons (r : Reading) (s : Statement) (ss : List Statement) :
    r.takeAll (s :: ss) = (r.take s).bind fun r => r.takeAll ss := by
  rw [takeAll, List.foldlM_cons]
  rfl

theorem Reading.takeAll_append (r : Reading) (ss ss' : List Statement) :
    r.takeAll (ss ++ ss') = (r.takeAll ss).bind fun r => r.takeAll ss' := by
  rw [takeAll, List.foldlM_append]
  rfl

theorem linesFrom_eq (fuel : Nat) (r : Reading) (turns : Nat) (cs : List Char) :
    linesFrom fuel r turns cs = (statementsFrom fuel turns cs).bind r.takeAll := by
  induction turns generalizing r cs with
  | zero => rfl
  | succ turns ih =>
    rw [linesFrom, statementsFrom]
    rcases skipSpaces cs with _ | ⟨c, rest⟩
    · rfl
    dsimp only
    split
    · rcases behindLine? (c :: rest) with _ | rest
      · rfl
      · exact ih r rest
    · rcases behindBreak? (c :: rest) with _ | rest
      · dsimp only
        rw [line?_eq]
        rcases statement? fuel (c :: rest) with _ | ⟨s, rest⟩
        · rfl
        · -- what is not taken ends the reading, whatever follows
          simp only [Option.bind_some, Option.bind_map, Function.comp_def, Reading.takeAll_cons]
          rcases r.take s with _ | r'
          · simp
          · simp only [Option.map_some, Option.bind_some]
            rw [ih r' rest]
      · exact ih r rest

/-- What a document says, or nothing if it cannot be made out. -/
def statements? (text : String) : Option (List Statement) :=
  let cs := skipMark text.toList
  statementsFrom (cs.length + 1) (cs.length + 1) cs

/-- The reading of a document before its first line. -/
def Reading.start : Reading := ⟨[], []⟩

/-- **The table of a document is what its statements come to.** -/
theorem read?_eq (text : String) : read? text =
    ((statements? text).bind Reading.start.takeAll).map Reading.root := by
  rw [read?, statements?, linesFrom_eq]
  rfl

/-! ## Whole values -/

/-- Whether a value may still be added to by the lines that follow. -/
def Value.grows : Value → Bool
  | .table .inline _ => false
  | .table _ _ => true
  | .tables _ => true
  | _ => false

/-- Whether the value that is read, if any, is there as a whole. -/
def Whole (read : Option (Value × List Char)) : Prop :=
  ∀ v rest, read = some (v, rest) → v.grows = false

theorem whole_none : Whole none := nofun

theorem whole_some (h : v.grows = false) : Whole (some (v, rest)) := by
  rintro _ _ ⟨⟩
  exact h

theorem whole_map {α : Type} {f : α → Value × List Char} (h : ∀ a, (f a).1.grows = false)
    (read : Option α) : Whole (read.map f) := by
  rintro v rest eq
  obtain ⟨a, -, same⟩ := Option.map_eq_some_iff.mp eq
  have whole := h a
  rwa [same] at whole

theorem whole_bind {α : Type} {f : α → Option (Value × List Char)} (h : ∀ a, Whole (f a))
    (read : Option α) : Whole (read.bind f) := by
  rintro v rest eq
  obtain ⟨a, -, same⟩ := Option.bind_eq_some_iff.mp eq
  exact h a v rest same

theorem whole_integer? (n : Int) (rest : List Char) :
    Whole ((integer? n).map fun v => (v, rest)) := by
  rw [integer?]
  split
  · exact whole_some rfl
  · exact whole_none

theorem whole_float? (x : Binary64) (rest : List Char) :
    Whole ((float? x).map fun v => (v, rest)) := by
  rw [float?]
  split
  · exact whole_none
  · exact whole_some rfl

theorem whole_afterDigits? (negative : Bool) (places : List Char) (behind : Nat)
    (pointed : Bool) (cs : List Char) :
    Whole (afterDigits? negative places behind pointed cs) := by
  unfold afterDigits?
  dsimp only
  split
  · exact whole_bind (fun _ => whole_float? _ _) _
  · exact whole_bind (fun _ => whole_float? _ _) _
  · split
    · exact whole_float? _ _
    · exact whole_integer? _ _

theorem whole_number? (cs : List Char) : Whole (number? cs) := by
  have based : ∀ base cs, Whole (based? base cs) := fun base cs =>
    whole_bind (fun _ => whole_integer? _ _) _
  have decimal : ∀ negative cs, Whole (decimal? negative cs) := by
    intro negative cs
    unfold decimal?
    split
    · exact whole_none
    · exact whole_bind (fun _ => whole_afterDigits? _ _ _ _ _) _
    · exact whole_afterDigits? _ _ _ _ _
  unfold number?
  split
  · exact whole_some rfl
  split
  · exact based _ _
  · exact based _ _
  · exact based _ _
  · exact whole_some rfl
  · exact whole_some rfl
  · exact decimal _ _

theorem whole_simple? (cs : List Char) : Whole (simple? cs) := by
  unfold simple?
  split
  · exact whole_none
  · repeat' split
    · exact whole_map (fun _ => rfl) _
    · exact whole_map (fun _ => rfl) _
    · exact whole_map (fun _ => rfl) _
    · exact whole_number? _
    · exact whole_none

theorem whole_value? (fuel depth : Nat) (cs : List Char) : Whole (value? fuel depth cs) := by
  cases depth with
  | zero => exact whole_simple? cs
  | succ depth =>
    unfold value?
    split
    · exact whole_map (fun _ => rfl) _
    · split
      · exact whole_some rfl
      · exact whole_map (fun _ => rfl) _
    · exact whole_simple? _

/-- Whether the value of a statement, if it has one, is there as a whole. -/
def Statement.Whole : Statement → Prop
  | .entry _ _ v => v.grows = false
  | .header _ _ | .next _ _ => True

theorem whole_of_statement? (h : statement? fuel cs = some (s, rest)) : s.Whole := by
  unfold statement? at h
  split at h
  · obtain ⟨_, -, ⟨⟩⟩ := Option.map_eq_some_iff.mp h
    trivial
  · obtain ⟨_, -, ⟨⟩⟩ := Option.map_eq_some_iff.mp h
    trivial
  · split at h
    · exact absurd h (by simp)
    · rename_i read
      obtain ⟨_, -, ⟨⟩⟩ := Option.map_eq_some_iff.mp h
      unfold entry? at read
      split at read
      · obtain ⟨_, value, ⟨⟩⟩ := Option.map_eq_some_iff.mp read
        exact whole_value? _ _ _ _ _ value
      · exact absurd read (by simp)

theorem whole_of_statementsFrom {ss : List Statement}
    (h : statementsFrom fuel turns cs = some ss) : ∀ s ∈ ss, s.Whole := by
  induction turns generalizing cs ss with
  | zero => exact absurd h (by simp [statementsFrom])
  | succ turns ih =>
    rw [statementsFrom] at h
    split at h
    · obtain rfl := Option.some.inj h
      simp
    split at h
    · obtain ⟨_, -, h⟩ := Option.bind_eq_some_iff.mp h
      exact ih h
    split at h
    · exact ih h
    · obtain ⟨⟨s, rest⟩, said, h⟩ := Option.bind_eq_some_iff.mp h
      obtain ⟨others, more, rfl⟩ := Option.map_eq_some_iff.mp h
      exact List.forall_mem_cons.mpr ⟨whole_of_statement? said, ih more⟩

/-- **A document says its values as a whole.** -/
theorem whole_of_statements? {text : String} {ss : List Statement}
    (h : statements? text = some ss) : ∀ s ∈ ss, s.Whole := whole_of_statementsFrom h

end Toml
end Linkage
