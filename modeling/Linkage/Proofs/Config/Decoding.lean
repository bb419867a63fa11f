import Linkage.Proofs.Config.RoundTrip
import Linkage.Proofs.Toml.Names

/-!
# What a document decides

What the entries of a document say about a configuration can be told without visiting them one
by one.  An entry fits if its name is that of a field and its value is of the field's type
(`Fits`), and if it does not fit there is one thing to say about it (`Misfits`).  A configuration
is described by entries if each field that has an entry has its value and each other field its
default (`Describes`).

Visiting the entries comes to the same: it ends with a misfit exactly if there is a first entry
that does not fit, and with a configuration exactly if they all fit and describe it
(`takeEntries_eq_error`, `takeEntries_eq_ok`; the induction is on the entries).  The description
does not depend on their order, as no name is there twice; the first misfit does.

`decoding_decides` puts this together with the check of the configuration, and with what is known
of the table of a document: which names it has, in which order, and with which values.
-/

namespace Linkage

/-- Whether the elements of a list are good up to one that is bad. -/
def GoodUpTo {α : Type} (Good Bad : α → Prop) (l : List α) : Prop :=
  ∃ front x back, l = front ++ x :: back ∧ (∀ y ∈ front, Good y) ∧ Bad x

section
variable {α : Type} {Good Bad : α → Prop}

theorem not_goodUpTo_nil : ¬GoodUpTo Good Bad [] := by
  rintro ⟨front, x, back, eq, -⟩
  exact absurd eq (by simp)

theorem goodUpTo_cons {x : α} {l : List α} :
    GoodUpTo Good Bad (x :: l) ↔ Bad x ∨ (Good x ∧ GoodUpTo Good Bad l) := by
  constructor
  · rintro ⟨_ | ⟨y, front⟩, z, back, eq, good, bad⟩
    · obtain ⟨rfl, rfl⟩ := List.cons.inj eq
      exact Or.inl bad
    · obtain ⟨rfl, rfl⟩ := List.cons.inj eq
      exact Or.inr ⟨good x List.mem_cons_self, front, z, back, rfl,
        fun w mem => good w (List.mem_cons_of_mem x mem), bad⟩
  · rintro (bad | ⟨good, front, z, back, rfl, goods, bad⟩)
    · exact ⟨[], x, l, rfl, by simp, bad⟩
    · exact ⟨x :: front, z, back, rfl, by simpa using ⟨good, goods⟩, bad⟩

end

/-! ## Types of values -/

namespace Toml

/-- Whether a value is a string. -/
def Value.IsString (v : Value) : Prop := ∃ text, v = .string text

/-- The items of a sequence: of an array, or the tables of a doubled header. -/
def Value.items? : Value → Option (List Value)
  | .array items => some items
  | .tables elements => some (elements.map (.table .defined))
  | _ => none

end Toml

namespace Config

open Toml (Value Table)

variable {f g : Field} {c c' c₁ : Config} {v v' : Value} {t t' : Table} {m : Misfit}
  {name expected text : String} {vs : List Value} {paths : List Path}

/-- Whether a value is of the type of a field. -/
def Field.Accepts : Field → Value → Prop
  | .library, v | .symbol, v => v.IsString
  | .searchPaths, v => ∃ items, v.items? = some items ∧ ∀ item ∈ items, item.IsString
  | .systemSearchPaths, v => ∃ b, v = .boolean b

/-- Whether a value is what a configuration has in a field. -/
def Field.Gives : Field → Value → Config → Prop
  | .library, v, c => v = .string c.library
  | .symbol, v, c => v = .string c.symbol
  | .searchPaths, v, c => v.items? = some (c.searchPaths.map fun path => .string path.text)
  | .systemSearchPaths, v, c => v = .boolean c.systemSearchPaths

/-- Whether two configurations have the same in a field. -/
def Field.Agrees : Field → Config → Config → Prop
  | .library, c, c' => c.library = c'.library
  | .symbol, c, c' => c.symbol = c'.symbol
  | .searchPaths, c, c' => c.searchPaths = c'.searchPaths
  | .systemSearchPaths, c, c' => c.systemSearchPaths = c'.systemSearchPaths

/-- What there is to say about a value that is not of the type of a field.  Of a sequence for
the search paths it is about the first item that is no string. -/
inductive Field.Refuses : Field → Value → Misfit → Prop
  | text {f : Field} {v : Value} (texts : f = .library ∨ f = .symbol) (other : ¬v.IsString) :
    Refuses f v (.wrongType v.found "a string")
  | boolean {v : Value} (other : ∀ b, v ≠ .boolean b) :
    Refuses .systemSearchPaths v (.wrongType v.found "a boolean")
  | sequence {v : Value} (other : v.items? = none) :
    Refuses .searchPaths v (.wrongType v.found "a sequence")
  | item {v : Value} {items : List Value} {m : Misfit} (sequence : v.items? = some items)
    (first : GoodUpTo Value.IsString
      (fun item => ¬item.IsString ∧ m = .wrongType item.found "path string") items) :
    Refuses .searchPaths v m

/-- Whether an entry is a field with a value of its type. -/
def Fits (e : String × Value) : Prop := ∃ f : Field, f.name = e.1 ∧ f.Accepts e.2

/-- What there is to say about an entry that does not fit. -/
inductive Misfits : String × Value → Misfit → Prop
  | unknown {name : String} (other : ∀ f : Field, f.name ≠ name) (v : Value) :
    Misfits (name, v) (.unknownField name)
  | refused {f : Field} {v : Value} {m : Misfit} (refuses : f.Refuses v m) : Misfits (f.name, v) m

/-- Whether entries are what a configuration differs in from another one: a field with an entry
has its value, and one without is the same in both. -/
def Describes (t : Table) (c₀ c : Config) : Prop :=
  ∀ f : Field, (∀ v, (f.name, v) ∈ t → f.Gives v c) ∧
    ((∀ v, (f.name, v) ∉ t) → f.Agrees c c₀)

namespace Field

theorem name_injective (same : f.name = g.name) : f = g := by
  have found := (ofName?_name f).symm.trans (same ▸ ofName?_name g)
  exact Option.some.inj found

theorem ofName?_eq_none : ofName? name = none ↔ ∀ f : Field, f.name ≠ name := by
  rw [ofName?, List.find?_eq_none]
  constructor
  · intro none f same
    have all : f ∈ Field.all := by cases f <;> decide
    exact none f all (by simpa using same)
  · intro other f _ same
    exact other f (by simpa using same)

theorem agrees_refl (f : Field) (c : Config) : f.Agrees c c := by
  cases f <;> exact Eq.refl _

theorem Agrees.symm (h : f.Agrees c c') : f.Agrees c' c := by
  cases f <;> exact Eq.symm h

theorem Agrees.trans (h : f.Agrees c c₁) (h' : f.Agrees c₁ c') : f.Agrees c c' := by
  cases f <;> exact Eq.trans h h'

theorem gives_of_agrees (h : f.Agrees c c') (given : f.Gives v c') : f.Gives v c := by
  cases f <;> simp only [Gives, Agrees] at * <;> rw [h, given]

theorem Gives.accepts (given : f.Gives v c) : f.Accepts v := by
  cases f with
  | library => exact ⟨_, given⟩
  | symbol => exact ⟨_, given⟩
  | systemSearchPaths => exact ⟨_, given⟩
  | searchPaths =>
    refine ⟨_, given, fun item mem => ?_⟩
    obtain ⟨path, -, rfl⟩ := List.mem_map.mp mem
    exact ⟨_, rfl⟩

end Field

theorem eq_of_agrees (h : ∀ f : Field, f.Agrees c c') : c = c' := by
  obtain ⟨library, symbol, searchPaths, systemSearchPaths⟩ := c
  obtain rfl : library = _ := h .library
  obtain rfl : symbol = _ := h .symbol
  obtain rfl : searchPaths = _ := h .searchPaths
  obtain rfl : systemSearchPaths = _ := h .systemSearchPaths
  rfl

/-! ## Reading values -/

theorem stringOf_eq_ok : stringOf expected v = .ok text ↔ v = .string text := by
  cases v <;> simp [stringOf]

theorem stringOf_eq_error : stringOf expected v = .error m ↔
    ¬v.IsString ∧ m = .wrongType v.found expected := by
  cases v <;> simp [stringOf, Value.IsString, eq_comm]

theorem booleanOf_eq_ok {b : Bool} : booleanOf v = .ok b ↔ v = .boolean b := by
  cases v <;> simp [booleanOf]

theorem booleanOf_eq_error : booleanOf v = .error m ↔
    (∀ b, v ≠ .boolean b) ∧ m = .wrongType v.found "a boolean" := by
  cases v <;> simp [booleanOf, eq_comm]

theorem pathsOf_string (text : String) (vs : List Value) :
    pathsOf (.string text :: vs) = (pathsOf vs).map (⟨text⟩ :: ·) := by
  rw [pathsOf, stringOf]
  rcases pathsOf vs with e | paths <;> rfl

theorem pathsOf_other (other : ¬v.IsString) (vs : List Value) :
    pathsOf (v :: vs) = .error (.wrongType v.found "path string") := by
  rw [pathsOf, stringOf_eq_error.mpr ⟨other, rfl⟩]

theorem pathsOf_eq_ok : pathsOf vs = .ok paths ↔
    vs = paths.map fun path => .string path.text := by
  constructor
  · intro read
    induction vs generalizing paths with
    | nil =>
      obtain rfl := Except.ok.inj read
      rfl
    | cons v vs ih =>
      by_cases string : v.IsString
      · obtain ⟨text, rfl⟩ := string
        rw [pathsOf_string] at read
        rcases others : pathsOf vs with e | rest
        · rw [others] at read
          exact absurd read (by simp [Except.map])
        · rw [others] at read
          obtain rfl := Except.ok.inj read
          rw [ih others]
          rfl
      · rw [pathsOf_other string] at read
        exact absurd read (by simp)
  · rintro rfl
    have texts := pathsOf_map paths
    rwa [List.map_map] at texts

theorem pathsOf_eq_error : pathsOf vs = .error m ↔ GoodUpTo Value.IsString
    (fun item => ¬item.IsString ∧ m = .wrongType item.found "path string") vs := by
  induction vs with
  | nil => exact iff_of_false (by simp [pathsOf]) not_goodUpTo_nil
  | cons v vs ih =>
    rw [goodUpTo_cons]
    by_cases string : v.IsString
    · obtain ⟨text, rfl⟩ := string
      rw [pathsOf_string, ← ih]
      rcases pathsOf vs with e | paths
      · simp [Except.map, Value.IsString]
      · simp [Except.map, Value.IsString]
    · rw [pathsOf_other string]
      simp [string, eq_comm]

theorem searchPathsOf_eq (v : Value) : searchPathsOf v =
    match v.items? with
    | some items => pathsOf items
    | none => .error (.wrongType v.found "a sequence") := by
  cases v <;> rfl

/-! ## Taking entries over -/

/-- A configuration with a field of another one. -/
def Field.copy : Field → Config → Config → Config
  | .library, c, c' => { c with library := c'.library }
  | .symbol, c, c' => { c with symbol := c'.symbol }
  | .searchPaths, c, c' => { c with searchPaths := c'.searchPaths }
  | .systemSearchPaths, c, c' => { c with systemSearchPaths := c'.systemSearchPaths }

namespace Field

theorem copy_agrees (f : Field) (c c' : Config) : f.Agrees (f.copy c c') c' := by
  cases f <;> exact Eq.refl _

theorem copy_agrees_of_ne (other : g ≠ f) (c c' : Config) : g.Agrees (f.copy c c') c := by
  cases f <;> cases g <;> first | exact absurd rfl other | exact Eq.refl _

/-- A value of the type of a field can be had in it. -/
theorem Accepts.gives (accepts : f.Accepts v) : ∃ c, f.Gives v c := by
  cases f with
  | library =>
    obtain ⟨text, rfl⟩ := accepts
    exact ⟨{ Config.default with library := text }, rfl⟩
  | symbol =>
    obtain ⟨text, rfl⟩ := accepts
    exact ⟨{ Config.default with symbol := text }, rfl⟩
  | systemSearchPaths =>
    obtain ⟨b, rfl⟩ := accepts
    exact ⟨{ Config.default with systemSearchPaths := b }, rfl⟩
  | searchPaths =>
    obtain ⟨items, sequence, strings⟩ := accepts
    rcases read : pathsOf items with e | paths
    · obtain ⟨front, item, back, rfl, -, other, -⟩ := pathsOf_eq_error.mp read
      exact absurd (strings item (by simp)) other
    · refine ⟨{ Config.default with searchPaths := paths }, ?_⟩
      rw [Gives, sequence, pathsOf_eq_ok.mp read]

theorem accepts_or_refuses (f : Field) (v : Value) : f.Accepts v ∨ ∃ m, f.Refuses v m := by
  cases f with
  | library => exact (em v.IsString).imp_right fun other => ⟨_, .text (Or.inl rfl) other⟩
  | symbol => exact (em v.IsString).imp_right fun other => ⟨_, .text (Or.inr rfl) other⟩
  | systemSearchPaths =>
    exact (em (∃ b, v = .boolean b)).imp_right fun other =>
      ⟨_, .boolean fun b same => other ⟨b, same⟩⟩
  | searchPaths =>
    rcases sequence : v.items? with _ | items
    · exact Or.inr ⟨_, .sequence sequence⟩
    rcases read : pathsOf items with e | paths
    · exact Or.inr ⟨e, .item sequence (pathsOf_eq_error.mp read)⟩
    · refine Or.inl ⟨items, sequence, fun item mem => ?_⟩
      rw [pathsOf_eq_ok.mp read] at mem
      obtain ⟨path, -, rfl⟩ := List.mem_map.mp mem
      exact ⟨_, rfl⟩

end Field

theorem takeEntry_of_gives (given : f.Gives v c') (c : Config) :
    takeEntry c f.name v = .ok (f.copy c c') := by
  rw [takeEntry, Field.ofName?_name]
  cases f with
  | library => rw [stringOf_eq_ok.mpr given]; rfl
  | symbol => rw [stringOf_eq_ok.mpr given]; rfl
  | systemSearchPaths => rw [booleanOf_eq_ok.mpr given]; rfl
  | searchPaths =>
    have sequence : v.items? = some _ := given
    simp only [searchPathsOf_eq, sequence, pathsOf_eq_ok.mpr rfl]
    rfl

theorem takeEntry_of_refuses (refuses : f.Refuses v m) (c : Config) :
    takeEntry c f.name v = .error m := by
  rw [takeEntry, Field.ofName?_name]
  cases refuses with
  | text texts other =>
    rcases texts with rfl | rfl
    · rw [stringOf_eq_error.mpr ⟨other, rfl⟩]; rfl
    · rw [stringOf_eq_error.mpr ⟨other, rfl⟩]; rfl
  | boolean other => rw [booleanOf_eq_error.mpr ⟨other, rfl⟩]; rfl
  | sequence other => simp only [searchPathsOf_eq, other]; rfl
  | item sequence first => simp only [searchPathsOf_eq, sequence, pathsOf_eq_error.mpr first]; rfl

theorem takeEntry_of_unknown (other : ∀ f : Field, f.name ≠ name) (c : Config) (v : Value) :
    takeEntry c name v = .error (.unknownField name) := by
  rw [takeEntry, Field.ofName?_eq_none.mpr other]

theorem takeEntry_eq_ok : takeEntry c f.name v = .ok c' ↔
    f.Gives v c' ∧ ∀ g ≠ f, g.Agrees c' c := by
  constructor
  · intro taken
    rcases f.accepts_or_refuses v with accepts | ⟨m, refuses⟩
    · obtain ⟨c₁, given⟩ := accepts.gives
      obtain rfl := Except.ok.inj ((takeEntry_of_gives given c).symm.trans taken)
      exact ⟨Field.gives_of_agrees (f.copy_agrees c c₁) given,
        fun g other => Field.copy_agrees_of_ne other c c₁⟩
    · exact absurd ((takeEntry_of_refuses refuses c).symm.trans taken) (by simp)
  · rintro ⟨given, others⟩
    have same : f.copy c c' = c' := by
      refine eq_of_agrees fun g => ?_
      by_cases this : g = f
      · exact this ▸ f.copy_agrees c c'
      · exact (Field.copy_agrees_of_ne this c c').trans (others g this).symm
    rw [takeEntry_of_gives given, same]

theorem takeEntry_eq_error : takeEntry c name v = .error m ↔ Misfits (name, v) m := by
  constructor
  · intro refused
    by_cases known : ∃ f : Field, f.name = name
    · obtain ⟨f, rfl⟩ := known
      rcases f.accepts_or_refuses v with accepts | ⟨m', refuses⟩
      · obtain ⟨c₁, given⟩ := accepts.gives
        exact absurd ((takeEntry_of_gives given c).symm.trans refused) (by simp)
      · obtain rfl := Except.error.inj ((takeEntry_of_refuses refuses c).symm.trans refused)
        exact .refused refuses
    · have other : ∀ f : Field, f.name ≠ name := fun f same => known ⟨f, same⟩
      obtain rfl := Except.error.inj ((takeEntry_of_unknown other c v).symm.trans refused)
      exact .unknown other v
  · rintro (⟨other, v⟩ | refuses)
    · exact takeEntry_of_unknown other c v
    · exact takeEntry_of_refuses refuses c

/-- An entry is taken over exactly if it fits. -/
theorem exists_takeEntry_iff {e : String × Value} :
    (∃ c', takeEntry c e.1 e.2 = .ok c') ↔ Fits e := by
  obtain ⟨name, v⟩ := e
  constructor
  · rintro ⟨c', taken⟩
    by_cases known : ∃ f : Field, f.name = name
    · obtain ⟨f, rfl⟩ := known
      exact ⟨f, rfl, (takeEntry_eq_ok.mp taken).1.accepts⟩
    · have other : ∀ f : Field, f.name ≠ name := fun f same => known ⟨f, same⟩
      exact absurd ((takeEntry_of_unknown other c v).symm.trans taken) (by simp)
  · rintro ⟨f, rfl, accepts⟩
    obtain ⟨c₁, given⟩ := accepts.gives
    exact ⟨_, takeEntry_of_gives given c⟩

/-- An entry fits, or there is something to say about it. -/
theorem fits_iff {e : String × Value} : Fits e ↔ ∀ m, ¬Misfits e m := by
  rw [← exists_takeEntry_iff (c := default)]
  rcases taken : takeEntry default e.1 e.2 with m | c
  · refine iff_of_false (by simp) fun none => none m ?_
    exact takeEntry_eq_error.mp taken
  · refine iff_of_true ⟨c, rfl⟩ fun m misfits => ?_
    exact absurd (taken.symm.trans (takeEntry_eq_error.mpr misfits)) (by simp)

/-! ## Taking all entries over -/

/-- **The first entry that does not fit is the answer.** -/
theorem takeEntries_eq_error :
    takeEntries c t = .error m ↔ GoodUpTo Fits (fun e => Misfits e m) t := by
  induction t generalizing c with
  | nil => exact iff_of_false (by simp [takeEntries]) not_goodUpTo_nil
  | cons e t ih =>
    obtain ⟨name, v⟩ := e
    rw [takeEntries, goodUpTo_cons]
    rcases taken : takeEntry c name v with m' | c₁
    · have unfit : ¬Fits (name, v) := by
        intro fits
        exact fits_iff.mp fits m' (takeEntry_eq_error.mp taken)
      rw [← takeEntry_eq_error (c := c), taken]
      simp [unfit]
    · have fits : Fits (name, v) := exists_takeEntry_iff.mp ⟨c₁, taken⟩
      have fine : ¬Misfits (name, v) m := fits_iff.mp fits m
      simp only [fine, fits, false_or, true_and]
      exact ih

/-- What describes a configuration is one entry after the other. -/
theorem describes_cons (fresh : f.name ∉ t.keys) : Describes ((f.name, v) :: t) c c' ↔
    ∃ c₁, (f.Gives v c₁ ∧ ∀ g ≠ f, g.Agrees c₁ c) ∧ Describes t c₁ c' := by
  have absent : ∀ w, (f.name, w) ∉ t := fun w mem => fresh (List.mem_map_of_mem mem)
  constructor
  · intro described
    have given := (described f).1 v List.mem_cons_self
    have first : f.Gives v (f.copy c c') := Field.gives_of_agrees (f.copy_agrees c c') given
    refine ⟨f.copy c c', ⟨first, fun g other => Field.copy_agrees_of_ne other c c'⟩,
      fun g => ⟨fun w mem => ?_, fun none => ?_⟩⟩
    · exact (described g).1 w (List.mem_cons_of_mem _ mem)
    · by_cases same : g = f
      · exact same ▸ (f.copy_agrees c c').symm
      · have unnamed : ∀ w, (g.name, w) ∉ (f.name, v) :: t := by
          intro w mem
          rcases List.mem_cons.mp mem with first | mem
          · exact same (Field.name_injective (Prod.mk.inj first).1)
          · exact none w mem
        exact ((described g).2 unnamed).trans (Field.copy_agrees_of_ne same c c').symm
  · rintro ⟨c₁, ⟨given, others⟩, described⟩ g
    constructor
    · intro w mem
      rcases List.mem_cons.mp mem with first | mem
      · obtain ⟨named, rfl⟩ := Prod.mk.inj first
        obtain rfl := Field.name_injective named
        exact Field.gives_of_agrees ((described g).2 absent) given
      · exact (described g).1 w mem
    · intro none
      have other : g ≠ f := by
        rintro rfl
        exact none v List.mem_cons_self
      exact ((described g).2 fun w mem => none w (List.mem_cons_of_mem _ mem)).trans
        (others g other)

/-- **Entries that all fit describe the configuration they are taken over into.** -/
theorem takeEntries_eq_ok (once : t.keys.Nodup) :
    takeEntries c t = .ok c' ↔ (∀ e ∈ t, Fits e) ∧ Describes t c c' := by
  induction t generalizing c with
  | nil =>
    constructor
    · intro taken
      obtain rfl := Except.ok.inj taken
      exact ⟨by simp, fun f => ⟨by simp, fun _ => f.agrees_refl c⟩⟩
    · rintro ⟨-, described⟩
      obtain rfl := eq_of_agrees fun f => (described f).2 (by simp)
      rfl
  | cons e t ih =>
    obtain ⟨name, v⟩ := e
    obtain ⟨fresh, rest⟩ := List.nodup_cons.mp once
    rw [takeEntries, List.forall_mem_cons, ← exists_takeEntry_iff (c := c)]
    rcases taken : takeEntry c name v with m | c₁
    · simp
    obtain ⟨f, rfl, -⟩ := (exists_takeEntry_iff (e := (name, v))).mp ⟨c₁, taken⟩
    rw [describes_cons fresh]
    simp only [← takeEntry_eq_ok, taken, Except.ok.injEq, exists_eq_left', exists_eq', true_and]
    exact ih rest

/-! ## Checking -/

/-- What is wrong with a configuration that is not accepted; of several faults, the first. -/
inductive Faulty (c : Config) : Invalid → Prop
  | empty (unnamed : c.library = "") : Faulty c .emptyLibrary
  | path (named : c.library ≠ "") (separated : '/' ∈ c.library.toList ∨ '\\' ∈ c.library.toList) :
    Faulty c (.libraryIsPath c.library)
  | symbol (named : c.library ≠ "") (base : '/' ∉ c.library.toList ∧ '\\' ∉ c.library.toList)
    (other : isIdentifier c.symbol = false) : Faulty c (.symbolNotIdentifier c.symbol)

theorem hasSeparator_iff (name : String) :
    hasSeparator name = true ↔ '/' ∈ name.toList ∨ '\\' ∈ name.toList := by
  simp only [hasSeparator, List.any_eq_true, Bool.or_eq_true, beq_iff_eq]
  constructor
  · rintro ⟨c, mem, rfl | rfl⟩
    · exact Or.inl mem
    · exact Or.inr mem
  · rintro (mem | mem)
    · exact ⟨_, mem, Or.inl rfl⟩
    · exact ⟨_, mem, Or.inr rfl⟩

theorem Faulty.validate_eq {reason : Invalid} (h : Faulty c reason) :
    c.validate = .error reason := by
  cases h with
  | empty unnamed => simp [validate, unnamed]
  | path named separated => simp [validate, named, (hasSeparator_iff _).mpr separated]
  | symbol named base other =>
    have whole : hasSeparator c.library = false := by
      rw [← Bool.not_eq_true, hasSeparator_iff, not_or]
      exact base
    simp [validate, named, whole, other]

theorem validate_eq_error {reason : Invalid} : c.validate = .error reason ↔ Faulty c reason := by
  refine ⟨fun refused => ?_, Faulty.validate_eq⟩
  suffices found : ∃ reason', Faulty c reason' by
    obtain ⟨reason', faulty⟩ := found
    obtain rfl := Except.error.inj (refused.symm.trans faulty.validate_eq)
    exact faulty
  by_cases named : c.library = ""
  · exact ⟨_, .empty named⟩
  by_cases separated : '/' ∈ c.library.toList ∨ '\\' ∈ c.library.toList
  · exact ⟨_, .path named separated⟩
  have whole : hasSeparator c.library = false := by
    rw [← Bool.not_eq_true, hasSeparator_iff]
    exact separated
  refine ⟨_, .symbol named (not_or.mp separated) ?_⟩
  rw [← Bool.not_eq_true]
  intro identifier
  exact absurd (refused.symm.trans (validate_eq_ok.mpr ⟨named, whole, identifier⟩)) (by simp)

/-! ## What a document decides -/

/-- Whether an answer is the one for entries: the configuration that they describe if they all
fit and it is accepted, else the first misfit, and only without any the fault of the
configuration. -/
structure Decides (t : Table) (answer : Except Error Config) : Prop where
  accepted : ∀ c, answer = .ok c ↔
    (∀ e ∈ t, Fits e) ∧ Describes t default c ∧ c.validate = .ok ()
  misfit : ∀ m, answer = .error (.document unnamedFile (some m)) ↔
    GoodUpTo Fits (fun e => Misfits e m) t
  invalid : ∀ reason, answer = .error (.invalid reason) ↔
    (∀ e ∈ t, Fits e) ∧ ∃ c, Describes t default c ∧ Faulty c reason
  complete : (∃ c, answer = .ok c) ∨
    (∃ m, answer = .error (.document unnamedFile (some m))) ∨
    ∃ reason, answer = .error (.invalid reason)

theorem ofText_of_read (h : Toml.read? text = some t) : ofText text =
    match ofTable t with
    | .error m => .error (.document unnamedFile (some m))
    | .ok c =>
      match c.validate with
      | .error reason => .error (.invalid reason)
      | .ok () => .ok c := by
  simp only [ofText, read, parse, h]
  rcases ofTable t with m | c <;> rfl

theorem decides_ofText (once : t.keys.Nodup) (h : Toml.read? text = some t) :
    Decides t (ofText text) := by
  have fitting : ∀ c, ofTable t = .ok c ↔ (∀ e ∈ t, Fits e) ∧ Describes t default c :=
    fun c => takeEntries_eq_ok once
  have refusing : ∀ m, ofTable t = .error m ↔ GoodUpTo Fits (fun e => Misfits e m) t :=
    fun m => takeEntries_eq_error
  rw [ofText_of_read h]
  constructor
  · intro c
    rw [← and_assoc, ← fitting]
    rcases ofTable t with m | c'
    · simp
    · rcases valid : c'.validate with reason | ⟨⟩ <;> grind
  · intro m
    rw [← refusing]
    rcases ofTable t with m' | c'
    · simp
    · rcases valid : c'.validate with reason | ⟨⟩ <;> simp [valid]
  · intro reason
    simp only [← validate_eq_error, ← exists_and_left, ← and_assoc, ← fitting]
    rcases ofTable t with m' | c'
    · simp
    · rcases valid : c'.validate with reason | ⟨⟩ <;> simp [valid]
  · rcases ofTable t with m | c'
    · exact Or.inr (Or.inl ⟨m, rfl⟩)
    · rcases valid : c'.validate with reason | ⟨⟩
      · exact Or.inr (Or.inr ⟨reason, by simp [valid]⟩)
      · exact Or.inl ⟨c', by simp [valid]⟩

/-- A document without a table is refused without a word about its entries, and no other is. -/
theorem ofText_eq_unread : ofText text = .error (.document unnamedFile none) ↔
    Toml.read? text = none := by
  constructor
  · intro refused
    rcases h : Toml.read? text with _ | t
    · rfl
    · obtain ⟨ss, -, lists⟩ := Toml.lists_of_read? h
      rcases (decides_ofText lists.once h).complete with
        ⟨c, answer⟩ | ⟨m, answer⟩ | ⟨reason, answer⟩
      all_goals exact absurd (refused.symm.trans answer) (by simp)
  · intro h
    simp only [ofText, read, parse, h]

/-- **What a document decides.**  A document that cannot be read is refused as one, and so is one
that repeats something, whatever else it says.  The table of any other is what its statements
list, and the answer is the one for its entries; where all of them are accepted, their order does
not matter.  A document of entries under plain names is read exactly if it repeats no name, and
then its table is its entries as they stand. -/
theorem decoding_decides (text : String) :
    (ofText text = .error (.document unnamedFile none) ↔ Toml.read? text = none) ∧
    (∀ front s back r, Toml.statements? text = some (front ++ s :: back) →
      Toml.Reading.start.takeAll front = some r → r.Repeats s →
        ofText text = .error (.document unnamedFile none)) ∧
    (∀ t, Toml.read? text = some t →
      (∃ ss, Toml.statements? text = some ss ∧ Toml.Lists ss t) ∧ Decides t (ofText text)) ∧
    (∀ t text' t' c, Toml.read? text = some t → Toml.read? text' = some t' → t.Perm t' →
      ofText text = .ok c → ofText text' = .ok c) ∧
    (∀ es : Table, Toml.statements? text = some (es.map fun e => .entry [] e.1 e.2) →
      Toml.read? text = if es.keys.Nodup then some es else none) := by
  refine ⟨ofText_eq_unread, ?_, ?_, ?_, fun es => Toml.read?_plain⟩
  · intro front s back r said before repeats
    exact ofText_eq_unread.mpr (Toml.read?_of_repeats said before repeats)
  · intro t h
    obtain ⟨ss, said, lists⟩ := Toml.lists_of_read? h
    exact ⟨⟨ss, said, lists⟩, decides_ofText lists.once h⟩
  · intro t text' t' c h h' perm answer
    obtain ⟨_, -, lists⟩ := Toml.lists_of_read? h
    obtain ⟨_, -, lists'⟩ := Toml.lists_of_read? h'
    obtain ⟨fits, described, valid⟩ := ((decides_ofText lists.once h).accepted c).mp answer
    refine ((decides_ofText lists'.once h').accepted c).mpr ⟨fun e mem => ?_, fun f => ?_, valid⟩
    · exact fits e (perm.mem_iff.mpr mem)
    · simpa only [perm.mem_iff] using described f

/-- Two documents that are not answered for the first entry that appears in them.  In one the
table `foo` appears first, but its own header stands behind that of `qux`; the other has a single
entry, whose value can be made out and nests deeper than the reader goes. -/
theorem moved_and_nested :
    (Toml.statements? "[foo.bar]\n[qux]\n[foo]\n" =
        some [.header ["foo"] "bar", .header [] "qux", .header [] "foo"] ∧
      ofText "[foo.bar]\n[qux]\n[foo]\n" =
        .error (.document unnamedFile (some (.unknownField "qux")))) ∧
    ((Toml.value? 200 100 (List.replicate 90 '[' ++ List.replicate 90 ']')).map Prod.snd =
        some [] ∧
      ofText ("x = " ++ String.ofList (List.replicate 90 '[' ++ List.replicate 90 ']')) =
        .error (.document unnamedFile none)) :=
  ⟨⟨rfl, by decide +kernel⟩, by decide +kernel, by decide +kernel⟩

end Config
end Linkage
