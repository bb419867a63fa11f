import Linkage.Proofs.Toml.Statements
import Mathlib.Data.List.Nodup

/-!
# The names of a document

Every statement settles one name of the table of its document: the first name of its key, or of
the header it stands behind.  A name takes its place where it first appears, with one exception:
a table that gets a header of its own only behind the headers of tables in it moves to where that
header stands (`Statement.place`).

What a statement does to the table is one of three things: it adds a value under a new name, it
lets the table grow under one name (`Table.Extends`), or it moves a table (`Reading.cases_take`).
From this one list follows what a statement does to the names, to the values that are there as a
whole, and to the tables of doubled headers, and by induction on the statements what a document
does: its table is what its statements list (`lists_of_read?`).

A statement about something that is there already is refused (`Reading.take_of_repeats`).  Which
table a path leads to is `Table.reach`; both ways of walking a table, on the way to a header and
along a dotted key, change the table that is reached, so they are refused where it is.
-/

namespace Linkage
namespace Toml

variable {k key : String} {v w : Value} {t t' : Table} {names way : List String}

/-- Whether a value is the tables of a doubled header. -/
def Value.isTables : Value → Bool
  | .tables _ => true
  | _ => false

namespace Table

/-! ## Tables by their names -/

/-- The names of a table. -/
def keys (t : Table) : List String := t.map (·.1)

theorem keys_append (t t' : Table) : keys (t ++ t') = keys t ++ keys t' := List.map_append

theorem keys_set (t : Table) (k : String) (v : Value) : keys (t.set k v) = keys t := by
  rw [keys, set, List.map_map]
  refine List.map_congr_left fun e _ => ?_
  by_cases same : e.1 = k <;> simp [same]

theorem keys_erase (t : Table) (k : String) : keys (t.erase k) = (keys t).filter (· ≠ k) := by
  rw [keys, keys, erase, List.filter_map]
  rfl

theorem get?_eq_none : t.get? k = none ↔ k ∉ keys t := by
  rw [get?, Option.map_eq_none_iff, List.find?_eq_none, keys, List.mem_map]
  constructor
  · rintro none ⟨e, mem, same⟩
    exact none e mem (by simpa using same)
  · intro none e mem same
    exact none ⟨e, mem, by simpa using same⟩

theorem mem_of_get? (h : t.get? k = some v) : (k, v) ∈ t := by
  obtain ⟨⟨name, w⟩, found, rfl⟩ := Option.map_eq_some_iff.mp h
  obtain rfl : name = k := by simpa using List.find?_some found
  exact List.mem_of_find?_eq_some found

/-- A name that is there once has one value. -/
theorem get?_eq_some (once : (keys t).Nodup) : t.get? k = some v ↔ (k, v) ∈ t := by
  refine ⟨mem_of_get?, fun mem => ?_⟩
  rcases found : t.get? k with _ | w
  · exact absurd (List.mem_map_of_mem mem) (get?_eq_none.mp found)
  · have same := List.inj_on_of_nodup_map once (mem_of_get? found) mem rfl
    rw [(Prod.mk.inj same).2]

theorem get?_append (t t' : Table) (k : String) :
    Table.get? (t ++ t') k = (t.get? k).or (Table.get? t' k) := by
  rw [get?, List.find?_append, Option.map_or]
  rfl

theorem get?_singleton (k : String) (v : Value) (key : String) :
    Table.get? [(k, v)] key = if key = k then some v else none := by
  rw [get?, List.find?_singleton]
  by_cases same : k = key
  · simp [same]
  · simp [same, Ne.symm same]

theorem get?_set (t : Table) (k : String) (v : Value) (key : String) :
    (t.set k v).get? key = if key = k then (t.get? key).map fun _ => v else t.get? key := by
  have named : ((fun e => decide (e.1 = key)) ∘ fun e : String × Value =>
      if e.1 = k then (k, v) else e) = fun e => decide (e.1 = key) := by
    funext e
    by_cases same : e.1 = k <;> simp [same]
  rw [get?, set, List.find?_map, named, get?]
  rcases found : t.find? fun e => e.1 = key with _ | e
  · simp [found]
  · have found' : e.1 = key := by simpa using List.find?_some found
    rcases eq_or_ne key k with rfl | other
    · simp [found, found']
    · simp [found, found', other]

theorem get?_erase (t : Table) (k : String) (key : String) :
    (t.erase k).get? key = if key = k then none else t.get? key := by
  split
  · rename_i same
    rw [get?_eq_none, keys_erase, same]
    simp
  · rename_i other
    rw [get?, get?, erase, List.find?_filter]
    congr 2
    funext e
    by_cases same : e.1 = key <;> simp [same, other]

theorem erase_of_fresh (fresh : k ∉ keys t) : t.erase k = t := by
  refine List.filter_eq_self.mpr fun e mem => ?_
  have other : e.1 ≠ k := by
    rintro rfl
    exact fresh (List.mem_map_of_mem mem)
  simpa using other

/-- A table that has a new name, or under one name something that has grown.  Only `next` says
whether the name is one for the tables of a doubled header. -/
inductive Extends (t : Table) (k : String) (next : Bool) : Table → Prop where
  | added (v : Value) (fresh : k ∉ keys t) (grows : v.grows = true) (kind : v.isTables = next) :
    Extends t k next (t ++ [(k, v)])
  | grown (v w : Value) (old : t.get? k = some v) (grew : v.grows = true) (grows : w.grows = true)
    (kind : v.isTables = w.isTables) (told : next = true → w.isTables = true) :
    Extends t k next (t.set k w)

/-- The table that a name on the way to others leads to. -/
def under (t : Table) (k : String) : Table :=
  match t.get? k with
  | some (.table _ sub) => sub
  | some (.tables elements) => elements.getLast?.getD []
  | _ => []

/-- What is found behind a name on the way to a header is a table that grows. -/
theorem within_extends {change : Table → Option Table}
    (h : t.within change (k :: way) = some t') :
    t.Extends k false t' ∧ ∃ sub, (t.under k).within change way = some sub := by
  rw [within] at h
  rw [under]
  rcases found : t.get? k with _ | w
  · rw [found] at h
    obtain ⟨sub, changed, rfl⟩ := Option.map_eq_some_iff.mp h
    exact ⟨.added _ (get?_eq_none.mp found) rfl rfl, sub, changed⟩
  rw [found] at h
  cases w with
  | table standing sub =>
    cases standing with
    | inline => exact absurd h (by simp)
    | _ =>
      obtain ⟨sub', changed, rfl⟩ := Option.map_eq_some_iff.mp h
      exact ⟨.grown _ _ found rfl rfl rfl nofun, sub', changed⟩
  | tables elements =>
    rcases last : elements.getLast? with _ | sub
    · exact absurd h (by simp [last])
    · simp only [last] at h
      obtain ⟨sub', changed, rfl⟩ := Option.map_eq_some_iff.mp h
      exact ⟨.grown _ _ found rfl rfl rfl nofun, sub', by simpa [last] using changed⟩
  | _ => exact absurd h (by simp)

theorem addDotted_extends (h : t.addDotted (k :: way) key v = some t') :
    t.Extends k false t' ∧ ∃ sub, (t.under k).addDotted way key v = some sub := by
  rw [addDotted] at h
  rw [under]
  rcases found : t.get? k with _ | w
  · rw [found] at h
    obtain ⟨sub, changed, rfl⟩ := Option.map_eq_some_iff.mp h
    exact ⟨.added _ (get?_eq_none.mp found) rfl rfl, sub, changed⟩
  rw [found] at h
  cases w with
  | table standing sub =>
    obtain ⟨grows, h⟩ := Option.ite_none_right_eq_some.mp h
    obtain ⟨sub', changed, rfl⟩ := Option.map_eq_some_iff.mp h
    cases standing with
    | inline => exact absurd grows (by simp)
    | _ => exact ⟨.grown _ _ found rfl rfl rfl nofun, sub', changed⟩
  | tables elements =>
    rcases last : elements.getLast? with _ | sub
    · exact absurd h (by cases way <;> simp [last])
    · cases way with
      | nil => exact absurd h (by simp [last])
      | cons next way =>
        simp only [last, List.isEmpty_cons] at h
        obtain ⟨sub', changed, rfl⟩ := Option.map_eq_some_iff.mp h
        exact ⟨.grown _ _ found rfl rfl rfl nofun, sub', by simpa [last] using changed⟩
  | _ => exact absurd h (by simp)

theorem openNext_extends (h : openNext key t = some t') : t.Extends key true t' := by
  rw [openNext] at h
  rcases found : t.get? key with _ | w
  · rw [found] at h
    obtain rfl := Option.some.inj h
    exact .added _ (get?_eq_none.mp found) rfl rfl
  rw [found] at h
  cases w with
  | tables elements =>
    obtain rfl := Option.some.inj h
    exact .grown _ _ found rfl rfl rfl fun _ => rfl
  | _ => exact absurd h (by simp)

/-- A header puts its table behind everything else. -/
theorem openTable_eq (h : openTable key t = some t') :
    ∃ sub, t' = t.erase key ++ [(key, .table .defined sub)] ∧
      (t.get? key = none ∨ t.get? key = some (.table .implied sub)) := by
  rw [openTable] at h
  rcases found : t.get? key with _ | w
  · rw [found] at h
    obtain rfl := Option.some.inj h
    exact ⟨[], by rw [erase_of_fresh (get?_eq_none.mp found)], Or.inl rfl⟩
  rw [found] at h
  cases w with
  | table standing sub =>
    cases standing with
    | implied => exact ⟨sub, (Option.some.inj h).symm, Or.inr rfl⟩
    | _ => exact absurd h (by simp)
  | _ => exact absurd h (by simp)

theorem addNew_eq (h : t.addNew key v = some t') : key ∉ keys t ∧ t' = t ++ [(key, v)] := by
  rw [addNew] at h
  split at h
  · rename_i fresh
    exact ⟨get?_eq_none.mp fresh, (Option.some.inj h).symm⟩
  · exact absurd h (by simp)

theorem addNew_of_fresh (fresh : key ∉ keys t) (v : Value) :
    t.addNew key v = some (t ++ [(key, v)]) := by
  rw [addNew, get?_eq_none.mpr fresh]

/-! ## The table at the end of a path -/

/-- The table that a path leads to. -/
def reach : Table → List String → Table
  | t, [] => t
  | t, k :: way => reach (t.under k) way

theorem reach_append (t : Table) (way way' : List String) :
    t.reach (way ++ way') = (t.reach way).reach way' := by
  induction way generalizing t with
  | nil => rfl
  | cons k way ih => exact ih (t.under k)

theorem changed_of_within {change : Table → Option Table} (h : t.within change way = some t') :
    ∃ sub, change (t.reach way) = some sub := by
  induction way generalizing t t' with
  | nil => exact ⟨t', h⟩
  | cons k way ih =>
    obtain ⟨sub, changed⟩ := (within_extends h).2
    exact ih changed

theorem fresh_of_addDotted (h : t.addDotted way key v = some t') :
    (t.reach way).get? key = none := by
  induction way generalizing t t' with
  | nil => exact get?_eq_none.mpr (addNew_eq h).1
  | cons k way ih =>
    obtain ⟨sub, changed⟩ := (addDotted_extends h).2
    exact ih changed

end Table

/-! ## Where a name stands -/

/-- Names with one more at the end, unless it is there. -/
def appear (names : List String) (k : String) : List String :=
  if k ∈ names then names else names ++ [k]

theorem Table.Extends.keys_eq {next : Bool} (h : t.Extends k next t') :
    t'.keys = appear t.keys k := by
  cases h with
  | added w fresh =>
    rw [appear, if_neg fresh, keys_append]
    rfl
  | grown w w' old =>
    have there : k ∈ t.keys := List.mem_map_of_mem (mem_of_get? old)
    rw [appear, if_pos there, keys_set]

/-- Only the one name may have another value, and it and the one it had are growing. -/
theorem Table.Extends.get?_eq {next : Bool} (h : t.Extends k next t') :
    ∃ w : Value, (∀ key, t'.get? key = if key = k then some w else t.get? key) ∧
      w.grows = true ∧ (∀ v, t.get? k = some v → v.grows = true ∧ v.isTables = w.isTables) ∧
      (next = true → w.isTables = true) ∧ (t.get? k = none → w.isTables = next) := by
  cases h with
  | added w fresh grows kind =>
    have free := get?_eq_none.mpr fresh
    refine ⟨w, fun key => ?_, grows, by simp [free], by simp [kind], fun _ => kind⟩
    rw [get?_append, get?_singleton]
    by_cases same : key = k
    · simp [same, free]
    · simp [same]
  | grown w w' old grew grows kind told =>
    refine ⟨w', fun key => ?_, grows, ?_, told, by simp [old]⟩
    · rw [get?_set]
      by_cases same : key = k
      · simp [same, old]
      · simp [same]
    · intro v there
      obtain rfl := Option.some.inj (old.symm.trans there)
      exact ⟨grew, kind⟩

/-- Whether a name is one for the tables of a doubled header. -/
def Table.HasTables (t : Table) (k : String) : Prop :=
  ∃ v, t.get? k = some v ∧ v.isTables = true

theorem Table.hasTables_iff : t.HasTables k ↔ ∃ elements, t.get? k = some (.tables elements) := by
  constructor
  · rintro ⟨v, there, kind⟩
    cases v with
    | tables elements => exact ⟨elements, there⟩
    | _ => exact absurd kind (by simp [Value.isTables])
  · rintro ⟨elements, there⟩
    exact ⟨_, there, rfl⟩

/-- A value that does not grow stays where others are added and grow. -/
theorem Table.Extends.get?_iff {next : Bool} (h : t.Extends k next t')
    (whole : v.grows = false) : t'.get? key = some v ↔ t.get? key = some v := by
  obtain ⟨w, value, grows, old, -⟩ := h.get?_eq
  have other : w ≠ v := by
    rintro rfl
    exact absurd (whole.symm.trans grows) (by simp)
  rw [value]
  split
  · rename_i same
    refine iff_of_false (fun eq => other (Option.some.inj eq)) fun there => ?_
    exact absurd (whole.symm.trans (old v (same ▸ there)).1) (by simp)
  · rfl

theorem Table.Extends.hasTables_iff {next : Bool} (h : t.Extends k next t') :
    t'.HasTables key ↔ t.HasTables key ∨ (next = true ∧ key = k) := by
  obtain ⟨w, value, -, old, told, new⟩ := h.get?_eq
  rw [HasTables, value]
  split
  · rename_i same
    rcases there : t.get? k with _ | v
    · simp [HasTables, same, there, new there]
    · have kind := (old v there).2
      simp [HasTables, same, there, kind]
      exact told
  · rename_i other
    simp [HasTables, other]

namespace Statement

/-- The path of names under which what follows a statement belongs. -/
def behind (here : List String) : Statement → List String
  | .entry _ _ _ => here
  | .header way key | .next way key => way ++ [key]

/-- The names of a table behind a statement: the name that it is about takes its place, where it
is not there yet or the statement is the header of its table. -/
def place (here names : List String) : Statement → List String
  | .entry way key _ => appear names ((here ++ way).headD key)
  | .header [] key => names.filter (· ≠ key) ++ [key]
  | .header (k :: _) _ => appear names k
  | .next way key => appear names (way.headD key)

/-- The names of a table behind statements. -/
def order : (here names : List String) → List Statement → List String
  | _, names, [] => names
  | here, names, s :: ss => order (s.behind here) (s.place here names) ss

/-- The values that plain names have in front of the first header. -/
def given : List Statement → List (String × Value)
  | .entry [] key v :: ss => (key, v) :: given ss
  | .entry (_ :: _) _ _ :: ss => given ss
  | _ => []

theorem nodup_place (once : names.Nodup) (here : List String) (s : Statement) :
    (s.place here names).Nodup := by
  have appears : ∀ k, (appear names k).Nodup := by
    intro k
    rw [appear]
    split
    · exact once
    · rename_i fresh
      exact List.nodup_append.mpr ⟨once, List.nodup_singleton k,
        fun a mem b last same => fresh (List.mem_singleton.mp last ▸ same ▸ mem)⟩
  rcases s with ⟨way, key, v⟩ | ⟨_ | ⟨k, way⟩, key⟩ | ⟨way, key⟩
  · exact appears _
  · refine List.nodup_append.mpr ⟨once.filter _, List.nodup_singleton key, ?_⟩
    rintro a mem b last rfl
    exact absurd (List.mem_singleton.mp last) (by simpa using (List.mem_filter.mp mem).2)
  · exact appears _
  · exact appears _

theorem nodup_order (once : names.Nodup) (here : List String) (ss : List Statement) :
    (order here names ss).Nodup := by
  induction ss generalizing here names with
  | nil => exact once
  | cons s ss ih => exact ih (nodup_place once here s) _

end Statement

namespace Reading

variable {r r' : Reading} {s : Statement} {ss : List Statement}

theorem here_take (h : r.take s = some r') : r'.here = s.behind r.here := by
  cases s <;> obtain ⟨root, -, rfl⟩ := Option.map_eq_some_iff.mp h <;> rfl

/-- **What a statement does to the table.**  It gives a plain name its value, or lets the table
grow, or moves one of its tables. -/
theorem cases_take (h : r.take s = some r') :
    (∃ key v, s = .entry [] key v ∧ r.here = [] ∧ key ∉ r.root.keys ∧
      r'.root = r.root ++ [(key, v)]) ∨
    (∃ k next, (∀ names, s.place r.here names = appear names k) ∧ r.root.Extends k next r'.root ∧
      (∀ key v, r.here = [] → s ≠ .entry [] key v) ∧
      ∀ key, next = true ∧ key = k ↔ s = .next [] key) ∨
    (∃ key sub, s = .header [] key ∧
      r'.root = r.root.erase key ++ [(key, .table .defined sub)] ∧
      (r.root.get? key = none ∨ r.root.get? key = some (.table .implied sub))) := by
  obtain ⟨t, here⟩ := r
  cases s with
  | entry way key v =>
    obtain ⟨root, added, rfl⟩ := Option.map_eq_some_iff.mp h
    cases here with
    | nil =>
      cases way with
      | nil =>
        obtain ⟨fresh, eq⟩ := Table.addNew_eq added
        exact Or.inl ⟨key, v, rfl, rfl, fresh, eq⟩
      | cons k way =>
        exact Or.inr (Or.inl ⟨k, false, fun names => rfl, (Table.addDotted_extends added).1,
          by simp, by simp⟩)
    | cons k above =>
      exact Or.inr (Or.inl ⟨k, false, fun names => rfl, (Table.within_extends added).1,
        by simp, by simp⟩)
  | header way key =>
    obtain ⟨root, opened, rfl⟩ := Option.map_eq_some_iff.mp h
    cases way with
    | nil =>
      obtain ⟨sub, eq, was⟩ := Table.openTable_eq opened
      exact Or.inr (Or.inr ⟨key, sub, rfl, eq, was⟩)
    | cons k way =>
      exact Or.inr (Or.inl ⟨k, false, fun names => rfl, (Table.within_extends opened).1,
        nofun, by simp⟩)
  | next way key =>
    obtain ⟨root, opened, rfl⟩ := Option.map_eq_some_iff.mp h
    cases way with
    | nil =>
      exact Or.inr (Or.inl ⟨key, true, fun names => rfl, Table.openNext_extends opened, nofun,
        fun name => by simp [eq_comm]⟩)
    | cons k way =>
      exact Or.inr (Or.inl ⟨k, false, fun names => rfl, (Table.within_extends opened).1,
        nofun, by simp⟩)

theorem keys_take (h : r.take s = some r') : r'.root.keys = s.place r.here r.root.keys := by
  rcases cases_take h with ⟨key, v, rfl, here, fresh, eq⟩ | ⟨k, next, placed, extended, -⟩ |
    ⟨key, sub, rfl, eq, -⟩
  · rw [eq, here, Table.keys_append, Statement.place]
    exact (if_neg fresh).symm
  · rw [placed, extended.keys_eq]
  · rw [eq, Table.keys_append, Table.keys_erase]
    rfl

/-- **The names of a document stand where its statements place them.** -/
theorem keys_takeAll (h : r.takeAll ss = some r') :
    r'.root.keys = Statement.order r.here r.root.keys ss := by
  induction ss generalizing r with
  | nil =>
    obtain rfl := Option.some.inj h
    rfl
  | cons s ss ih =>
    rw [takeAll_cons] at h
    obtain ⟨next, taken, rest⟩ := Option.bind_eq_some_iff.mp h
    rw [ih rest, here_take taken, keys_take taken]
    rfl

theorem get?_take (whole : v.grows = false) (h : r.take s = some r') :
    r'.root.get? k = some v ↔ r.root.get? k = some v ∨ (r.here = [] ∧ s = .entry [] k v) := by
  rcases cases_take h with ⟨key, w, rfl, here, fresh, eq⟩ | ⟨name, next, -, extended, other, -⟩ |
    ⟨key, sub, rfl, eq, was⟩
  · rw [eq, Table.get?_append, Table.get?_singleton]
    by_cases same : k = key
    · simp [same, here, Table.get?_eq_none.mpr fresh]
    · simp [same, Ne.symm same]
  · rw [extended.get?_iff whole]
    exact (or_iff_left fun ⟨here, same⟩ => other k v here same).symm
  · have apart : ∀ standing sub, standing ≠ .inline → Value.table standing sub ≠ v := by
      rintro standing sub grows rfl
      cases standing <;> contradiction
    rw [eq, Table.get?_append, Table.get?_singleton, Table.get?_erase]
    by_cases same : k = key
    · rcases was with free | implied
      · simp [same, free, apart .defined sub nofun]
      · simp [same, implied, apart .defined sub nofun, apart .implied sub nofun]
    · simp [same]

/-- **The values of a document that are there as a whole** are those that it gives to plain names
in front of its first header. -/
theorem get?_takeAll (whole : v.grows = false) (h : r.takeAll ss = some r') :
    r'.root.get? k = some v ↔
      r.root.get? k = some v ∨ (r.here = [] ∧ (k, v) ∈ Statement.given ss) := by
  induction ss generalizing r with
  | nil =>
    obtain rfl := Option.some.inj h
    simp [Statement.given]
  | cons s ss ih =>
    rw [takeAll_cons] at h
    obtain ⟨next, taken, rest⟩ := Option.bind_eq_some_iff.mp h
    rw [ih rest, get?_take whole taken, here_take taken]
    rcases s with ⟨_ | ⟨first, way⟩, key, w⟩ | ⟨way, key⟩ | ⟨way, key⟩
    · simp only [Statement.behind, Statement.given, List.mem_cons, Prod.mk.injEq,
        Statement.entry.injEq, true_and]
      tauto
    · simp [Statement.behind, Statement.given]
    · simp [Statement.behind, Statement.given]
    · simp [Statement.behind, Statement.given]

theorem hasTables_take (whole : s.Whole) (h : r.take s = some r') :
    r'.root.HasTables k ↔ r.root.HasTables k ∨ s = .next [] k := by
  rcases cases_take h with ⟨key, w, rfl, here, fresh, eq⟩ | ⟨name, next, -, extended, -, told⟩ |
    ⟨key, sub, rfl, eq, was⟩
  · have single : w.isTables = false := by
      cases w with
      | tables elements => exact absurd whole (by simp [Statement.Whole, Value.grows])
      | _ => rfl
    rw [eq, Table.HasTables, Table.HasTables, Table.get?_append, Table.get?_singleton]
    by_cases same : k = key
    · simp [same, single, Table.get?_eq_none.mpr fresh]
    · simp [same]
  · rw [extended.hasTables_iff, told]
  · rw [eq, Table.HasTables, Table.HasTables, Table.get?_append, Table.get?_singleton,
      Table.get?_erase]
    by_cases same : k = key
    · rcases was with free | implied
      · simp [same, free, Value.isTables]
      · simp [same, implied, Value.isTables]
    · simp [same]

/-- **The names for the tables of a doubled header** are those that have one. -/
theorem hasTables_takeAll (whole : ∀ s ∈ ss, s.Whole) (h : r.takeAll ss = some r') :
    r'.root.HasTables k ↔ r.root.HasTables k ∨ .next [] k ∈ ss := by
  induction ss generalizing r with
  | nil =>
    obtain rfl := Option.some.inj h
    simp
  | cons s ss ih =>
    rw [takeAll_cons] at h
    obtain ⟨next, taken, rest⟩ := Option.bind_eq_some_iff.mp h
    obtain ⟨first, others⟩ := List.forall_mem_cons.mp whole
    rw [ih others rest, hasTables_take first taken, List.mem_cons, or_assoc,
      eq_comm (a := s)]

/-! ## What is refused -/

/-- Whether a statement is about something that is there already: a name that has a value, a
table that has more than tables in it, or a list of tables under a name for something else. -/
def Repeats (r : Reading) : Statement → Prop
  | .entry way key _ => (r.root.reach (r.here ++ way)).get? key ≠ none
  | .header way key =>
    ∃ v, (r.root.reach way).get? key = some v ∧ ∀ sub, v ≠ .table .implied sub
  | .next way key => ∃ v, (r.root.reach way).get? key = some v ∧ ∀ elements, v ≠ .tables elements

theorem take_of_repeats (h : r.Repeats s) : r.take s = none := by
  refine Option.eq_none_iff_forall_ne_some.mpr fun r' taken => ?_
  cases s with
  | entry way key v =>
    obtain ⟨root, added, rfl⟩ := Option.map_eq_some_iff.mp taken
    obtain ⟨sub, added⟩ := Table.changed_of_within added
    rw [Repeats, Table.reach_append] at h
    exact h (Table.fresh_of_addDotted added)
  | header way key =>
    obtain ⟨w, there, other⟩ := h
    obtain ⟨root, opened, rfl⟩ := Option.map_eq_some_iff.mp taken
    obtain ⟨sub, opened⟩ := Table.changed_of_within opened
    obtain ⟨sub, -, none | implied⟩ := Table.openTable_eq opened
    · exact absurd (there.symm.trans none) (by simp)
    · exact other sub (Option.some.inj (there.symm.trans implied))
  | next way key =>
    obtain ⟨w, there, other⟩ := h
    obtain ⟨root, opened, rfl⟩ := Option.map_eq_some_iff.mp taken
    obtain ⟨sub, opened⟩ := Table.changed_of_within opened
    rw [Table.openNext, there] at opened
    cases w with
    | tables elements => exact other elements rfl
    | _ => exact absurd opened (by simp)

/-- **Entries under plain names** come to a table of themselves, as long as no name is there
twice. -/
theorem takeAll_plain (once : t.keys.Nodup) (es : Table) :
    takeAll ⟨t, []⟩ (es.map fun e => .entry [] e.1 e.2) =
      if (t ++ es).keys.Nodup then some ⟨t ++ es, []⟩ else none := by
  induction es generalizing t with
  | nil => rw [List.append_nil, if_pos once, List.map_nil, takeAll_nil]
  | cons e es ih =>
    rw [List.map_cons, takeAll_cons]
    by_cases there : e.1 ∈ t.keys
    · have twice : ¬(t ++ e :: es).keys.Nodup := by
        rw [Table.keys_append]
        exact fun nodup => (List.nodup_append.mp nodup).2.2 _ there _ List.mem_cons_self rfl
      have refused : take ⟨t, []⟩ (.entry [] e.1 e.2) = none :=
        take_of_repeats fun fresh => Table.get?_eq_none.mp fresh there
      rw [if_neg twice, refused]
      rfl
    · have taken : take ⟨t, []⟩ (.entry [] e.1 e.2) = some ⟨t ++ [e], []⟩ :=
        congrArg (Option.map _) (Table.addNew_of_fresh there e.2)
      have once' : (t ++ [e]).keys.Nodup := by
        rw [keys_take taken]
        exact Statement.nodup_place once _ _
      rw [taken, Option.bind_some, ih once', List.append_assoc]
      rfl

end Reading

/-! ## Whole documents -/

/-- Whether a table is what statements list.  Its names are theirs, in their order and each once;
the values that are there as a whole are those that they give, and of the others those are the
tables of a doubled header that have one. -/
structure Lists (ss : List Statement) (t : Table) : Prop where
  names : t.keys = Statement.order [] [] ss
  once : t.keys.Nodup
  values : ∀ k v, v.grows = false → ((k, v) ∈ t ↔ (k, v) ∈ Statement.given ss)
  tables : ∀ k, (∃ elements, (k, .tables elements) ∈ t) ↔ .next [] k ∈ ss

/-- **The table of a document is what its statements list.** -/
theorem lists_of_read? {text : String} (h : read? text = some t) :
    ∃ ss, statements? text = some ss ∧ Lists ss t := by
  rw [read?_eq] at h
  obtain ⟨r, taken, rfl⟩ := Option.map_eq_some_iff.mp h
  obtain ⟨ss, said, taken⟩ := Option.bind_eq_some_iff.mp taken
  have names : r.root.keys = Statement.order [] [] ss := Reading.keys_takeAll taken
  have once : r.root.keys.Nodup := names ▸ Statement.nodup_order List.nodup_nil _ _
  have empty : ∀ k, Reading.start.root.get? k = none := fun _ => rfl
  refine ⟨ss, said, names, once, fun k v whole => ?_, fun k => ?_⟩
  · rw [← Table.get?_eq_some once, Reading.get?_takeAll whole taken, empty]
    simp [Reading.start]
  · have tables := Reading.hasTables_takeAll (k := k) (whole_of_statements? said) taken
    simp only [← Table.get?_eq_some once]
    rw [Table.hasTables_iff, Table.hasTables_iff, empty] at tables
    simpa using tables

/-- A document with a repetition has no table, whatever else is in it. -/
theorem read?_of_repeats {text : String} {front back : List Statement} {s : Statement}
    {r : Reading} (said : statements? text = some (front ++ s :: back))
    (before : Reading.start.takeAll front = some r) (h : r.Repeats s) : read? text = none := by
  rw [read?_eq, said, Option.bind_some, Reading.takeAll_append, before, Option.bind_some,
    Reading.takeAll_cons, Reading.take_of_repeats h]
  rfl

/-- A document of entries under plain names is their table, unless it has a name twice. -/
theorem read?_plain {text : String} {es : Table}
    (said : statements? text = some (es.map fun e => .entry [] e.1 e.2)) :
    read? text = if es.keys.Nodup then some es else none := by
  have once : Table.keys [] |>.Nodup := List.nodup_nil
  have taken := Reading.takeAll_plain once es
  rw [read?_eq, said, Option.bind_some, Reading.start, taken, List.nil_append]
  split <;> rfl

end Toml
end Linkage
