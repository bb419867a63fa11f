import Linkage.Proofs.Text.Cutting
import Linkage.Path
import Mathlib.Data.List.Induction

/-!
# The components of a path in a directory

The components of a path are read off its segments, and whether it starts at the root
(`components_eq`).  A name that is joined to a directory adds its own segments behind those of
the directory, except that a slash at the end of the directory is not doubled
(`exists_front_join`).  So the components of the whole are those of the directory and those
that the name adds (`components_join`), for every spelling of the directory; and what is joined
to the same directory in two spellings is the same (`same_join_iff`).

The file name of a path is its last component, and what is above the path has the components in
front of it (`fileName?_eq_some`, `exists_parent?`).  A name without slashes adds one component to
a directory: it is the file name of the whole, and what is above it has the components of the
directory (`fileName?_join`, `exists_parent?_join`).
-/

namespace Linkage
namespace Path

variable {p dir : Path} {name : String} {parts more : List (List Char)} {absolute : Bool}

/-! ## Components from segments -/

/-- The components that segments stand for, by whether they start at the root. -/
def componentsFrom (absolute : Bool) : List (List Char) → List Component
  | [] => []
  | first :: rest =>
    (if absolute then [Component.root]
      else if first = ['.'] then [.here]
      else (component? first).toList) ++ rest.filterMap component?

theorem components_eq (p : Path) : p.components = componentsFrom p.isAbsolute p.segments := rfl

theorem componentsFrom_append (some : parts ≠ []) (absolute : Bool) (more : List (List Char)) :
    componentsFrom absolute (parts ++ more) =
      componentsFrom absolute parts ++ more.filterMap component? := by
  obtain ⟨first, rest, rfl⟩ := List.exists_cons_of_ne_nil some
  rw [List.cons_append, componentsFrom, componentsFrom, List.filterMap_append, List.append_assoc]

/-- Behind the first one, a segment that stands for nothing can be left out. -/
theorem componentsFrom_concat {s : List Char} (some : parts ≠ []) (nothing : component? s = none) :
    componentsFrom absolute (parts ++ [s]) = componentsFrom absolute parts := by
  rw [componentsFrom_append some, List.filterMap_cons_none nothing, List.filterMap_nil,
    List.append_nil]

theorem segments_ne_nil (p : Path) : p.segments ≠ [] := Text.splitOn_ne_nil _ _

/-- A path starts at the root if its first segment is empty and not its only one. -/
theorem isAbsolute_iff (p : Path) :
    p.isAbsolute ↔ p.segments.head? = some [] ∧ 1 < p.segments.length := by
  rw [isAbsolute, segments]
  generalize p.text.toList = cs
  rcases cs with _ | ⟨c, cs⟩
  · simp
  obtain ⟨first, rest, h⟩ := List.exists_cons_of_ne_nil (Text.splitOn_ne_nil '/' cs)
  rw [Text.splitOn_cons, h, Text.cutBefore]
  by_cases slash : c = '/'
  · simp [slash]
  · simp [slash]

/-- The path with given segments. -/
def ofSegments (parts : List (List Char)) : Path := ⟨String.ofList (['/'].intercalate parts)⟩

theorem segments_ofSegments (some : parts ≠ []) (free : ∀ s ∈ parts, '/' ∉ s) :
    (ofSegments parts).segments = parts := by
  rw [segments, ofSegments, String.toList_ofList, Text.splitOn_intercalate some free]

/-! ## A name in a directory -/

/-- The components that a name adds to those of a directory. -/
def inside (name : String) : List Component :=
  (Text.splitOn '/' name.toList).filterMap component?

/-- The segments of a directory that a name goes behind: all of them, but for the empty one
behind a slash at the end. -/
structure Front (dir : Path) (parts : List (List Char)) : Prop where
  nonempty : parts ≠ []
  segments : dir.segments = parts ∨ dir.segments = parts ++ [[]]

theorem exists_front_join (named : dir.text ≠ "") (name : String) :
    ∃ parts, Front dir parts ∧
      (dir.join name).segments = parts ++ Text.splitOn '/' name.toList := by
  rw [join, if_neg (by simpa using named)]
  split
  · rename_i last
    obtain ⟨front, text⟩ := List.getLast?_eq_some_iff.mp last
    refine ⟨Text.splitOn '/' front, ⟨Text.splitOn_ne_nil _ _, Or.inr ?_⟩, ?_⟩
    · rw [Path.segments, text, Text.splitOn_append_sep, Text.splitOn_nil]
    · rw [Path.segments, String.toList_append, text, List.append_assoc, List.singleton_append,
        Text.splitOn_append_sep]
  · refine ⟨dir.segments, ⟨dir.segments_ne_nil, Or.inl rfl⟩, ?_⟩
    rw [Path.segments, String.toList_append, String.toList_append, List.append_assoc,
      show "/".toList = ['/'] from rfl, List.singleton_append, Text.splitOn_append_sep]
    rfl

theorem Front.components_eq (front : Front dir parts) :
    dir.components = componentsFrom dir.isAbsolute parts := by
  rw [Path.components_eq]
  rcases front.segments with here | here
  · rw [here]
  · rw [here, componentsFrom_concat front.nonempty rfl]

theorem isAbsolute_join (named : dir.text ≠ "") (name : String) :
    (dir.join name).isAbsolute = dir.isAbsolute := by
  obtain ⟨c, cs, text⟩ : ∃ c cs, dir.text.toList = c :: cs :=
    List.exists_cons_of_ne_nil (by simpa using named)
  rw [join, if_neg (by simpa using named)]
  split <;> simp [isAbsolute, text]

/-- A name that starts with neither a slash nor a dot. -/
def Plain (name : String) : Prop := ∃ c cs, name.toList = c :: cs ∧ c ≠ '/' ∧ c ≠ '.'

theorem Plain.ne (plain : Plain name) : name ≠ "" ∧ name ≠ "." ∧ name ≠ ".." := by
  obtain ⟨c, cs, text, -, dot⟩ := plain
  refine ⟨?_, ?_, ?_⟩ <;> rintro rfl
  · exact absurd text.symm (List.cons_ne_nil c cs)
  all_goals exact dot (List.cons.inj text).1.symm

/-- Alone, such a name has the components that it adds to a directory. -/
theorem Plain.components (plain : Plain name) : (Path.mk name).components = inside name := by
  obtain ⟨c, cs, text, slash, dot⟩ := plain
  obtain ⟨first, rest, h⟩ := List.exists_cons_of_ne_nil (Text.splitOn_ne_nil '/' cs)
  have relative : (Path.mk name).isAbsolute = false := by simp [isAbsolute, text, slash]
  have parts : Text.splitOn '/' name.toList = (c :: first) :: rest := by
    rw [text, Text.splitOn_cons, h, Text.cutBefore, if_neg slash]
  have other : ¬ c :: first = ['.'] := fun same => dot (List.cons.inj same).1
  rw [components_eq, relative, inside, segments, parts, componentsFrom, if_neg Bool.false_ne_true,
    if_neg other, List.filterMap_cons]
  cases component? (c :: first) <;> rfl

/-- **A path in a directory has the components of the directory and those of its name.** -/
theorem components_join (plain : Plain name) (dir : Path) :
    (dir.join name).components = dir.components ++ inside name := by
  by_cases named : dir.text = ""
  · obtain rfl : dir = ⟨""⟩ := by rw [← named]
    exact plain.components
  · obtain ⟨parts, front, joined⟩ := exists_front_join named name
    rw [components_eq, joined, componentsFrom_append front.nonempty, isAbsolute_join named,
      front.components_eq, inside]

/-- Paths of one name are the same exactly if their directories are. -/
theorem same_join_iff (plain : Plain name) (dir dir' : Path) :
    (dir.join name).same (dir'.join name) ↔ dir.same dir' := by
  rw [same_iff, same_iff, components_join plain, components_join plain, List.append_left_inj]

/-! ## The last component -/

/-- A name without slashes that is no dots is one component. -/
theorem Plain.inside_eq (plain : Plain name) (free : '/' ∉ name.toList) :
    inside name = [.named name] := by
  obtain ⟨c, cs, text, slash, dot⟩ := plain
  have other : name.toList ≠ [] ∧ name.toList ≠ ['.'] ∧ name.toList ≠ ['.', '.'] := by
    rw [text]
    simp [dot]
  rw [inside, Text.splitOn_of_free free]
  simp [component?, other]

/-- The file name of a path is its last component, where this is a name. -/
theorem fileName?_eq_some :
    p.fileName? = some name ↔ ∃ front, p.components = front ++ [.named name] := by
  rw [fileName?, ← List.getLast?_eq_some_iff]
  split
  · rename_i last
    rw [last, Option.some_inj, Option.some_inj, Component.named.injEq]
  · rename_i other
    exact ⟨nofun, fun last => absurd last (other name)⟩

/-- **The file name of a path in a directory is the name joined to it.** -/
theorem fileName?_join (plain : Plain name) (free : '/' ∉ name.toList) (dir : Path) :
    (dir.join name).fileName? = some name :=
  fileName?_eq_some.mpr ⟨dir.components, by rw [components_join plain, plain.inside_eq free]⟩

/-- The segments without those at the end that stand for nothing. -/
def trimmed : List (List Char) → List (List Char)
  | [] => []
  | first :: rest => first :: (rest.reverse.dropWhile fun s => s = [] ∨ s = ['.']).reverse

theorem trimmedSegments_eq (p : Path) : p.trimmedSegments = trimmed p.segments := rfl

theorem trimmed_ne_nil (some : parts ≠ []) : trimmed parts ≠ [] := by
  obtain ⟨first, rest, rfl⟩ := List.exists_cons_of_ne_nil some
  exact List.cons_ne_nil _ _

theorem mem_of_mem_trimmed {s : List Char} (h : s ∈ trimmed parts) : s ∈ parts := by
  cases parts with
  | nil => exact h
  | cons first rest =>
    rcases List.mem_cons.mp h with rfl | later
    · exact List.mem_cons_self
    · rw [List.mem_reverse] at later
      exact List.mem_cons_of_mem _ (List.mem_reverse.mp ((List.dropWhile_sublist _).subset later))

theorem head?_trimmed (parts : List (List Char)) : (trimmed parts).head? = parts.head? := by
  cases parts <;> rfl

theorem length_trimmed_le (parts : List (List Char)) : (trimmed parts).length ≤ parts.length := by
  cases parts with
  | nil => exact Nat.le_refl _
  | cons first rest =>
    have shorter := (rest.reverse.dropWhile_sublist fun s => decide (s = [] ∨ s = ['.'])).length_le
    rw [List.length_reverse] at shorter
    rw [trimmed, List.length_cons, List.length_cons, List.length_reverse]
    omega

/-- The segments that are trimmed off stand for nothing. -/
theorem componentsFrom_trimmed (absolute : Bool) (parts : List (List Char)) :
    componentsFrom absolute (trimmed parts) = componentsFrom absolute parts := by
  cases parts with
  | nil => rfl
  | cons first rest =>
    rw [trimmed, componentsFrom, componentsFrom]
    congr 1
    induction rest using List.reverseRecOn with
    | nil => rfl
    | append_singleton rest s ih =>
      rw [List.reverse_append, List.reverse_singleton, List.singleton_append]
      by_cases nothing : s = [] ∨ s = ['.']
      · have none : component? s = none := by rw [component?, if_pos nothing]
        rw [List.dropWhile_cons_of_pos (by simpa using nothing), ih, List.filterMap_append,
          List.filterMap_cons_none none, List.filterMap_nil, List.append_nil]
      · rw [List.dropWhile_cons_of_neg (by simpa using nothing), List.reverse_cons,
          List.reverse_reverse]

/-- What is left at the end, behind a first segment, stands for something. -/
theorem something_of_trimmed {front : List (List Char)} {s : List Char} (behind : front ≠ [])
    (left : trimmed parts = front ++ [s]) : ¬ (s = [] ∨ s = ['.']) := by
  obtain ⟨first, middle, rfl⟩ := List.exists_cons_of_ne_nil behind
  cases parts with
  | nil => exact absurd left (by simp [trimmed])
  | cons other rest =>
    rw [trimmed, List.cons_append] at left
    have kept := congrArg List.reverse (List.cons.inj left).2
    rw [List.reverse_reverse, List.reverse_append, List.reverse_singleton,
      List.singleton_append] at kept
    have stops := List.head?_dropWhile_not (fun s => decide (s = [] ∨ s = ['.'])) rest.reverse
    rw [kept] at stops
    simpa using stops

/-- The path that given segments leave, which are those of a path without its last ones. -/
def leaving (absolute : Bool) (front : List (List Char)) : Path :=
  let kept := (ofSegments front).trimmedSegments
  if absolute ∧ kept.length ≤ 1 then ⟨"/"⟩ else ofSegments kept

/-- What is above a path that ends in a name is what its segments leave without the last. -/
theorem parent?_of_named {last : String} (h : p.components.getLast? = some (.named last)) :
    p.parent? = some (leaving p.isAbsolute (trimmed p.segments).dropLast) := by
  rw [parent?, h, leaving, ← trimmedSegments_eq]
  dsimp only
  rw [apply_ite some]
  rfl

/-- A front of a path starts at the root if the path does, unless an empty segment is all that
is left. -/
theorem isAbsolute_ofSegments (kept : (ofSegments parts).segments = parts)
    (head : parts.head? = p.segments.head?) (shorter : parts.length ≤ p.segments.length)
    (deep : ¬ (p.isAbsolute ∧ parts.length ≤ 1)) :
    (ofSegments parts).isAbsolute = p.isAbsolute := by
  refine Bool.eq_iff_iff.mpr ⟨fun absolute => ?_, fun absolute => ?_⟩
  · rw [isAbsolute_iff, kept, head] at absolute
    exact (isAbsolute_iff p).mpr ⟨absolute.1, Nat.lt_of_lt_of_le absolute.2 shorter⟩
  · rw [isAbsolute_iff, kept, head]
    exact ⟨((isAbsolute_iff p).mp absolute).1,
      Nat.lt_of_not_le fun shallow => deep ⟨absolute, shallow⟩⟩

theorem exists_component? {s : List Char} (something : ¬ (s = [] ∨ s = ['.'])) :
    ∃ c, component? s = some c := by
  rw [component?, if_neg something]
  split <;> exact ⟨_, rfl⟩

/-- A path of one segment has at most one component. -/
theorem componentsFrom_singleton (absolute : Bool) (s : List Char) :
    (componentsFrom absolute [s]).length ≤ 1 := by
  rw [componentsFrom, List.filterMap_nil, List.append_nil]
  split
  · exact Nat.le_refl _
  · split
    · exact Nat.le_refl _
    · exact Option.length_toList_le

/-- What segments leave at the front of a path has the components that they stand for there. -/
theorem components_leaving {init : List (List Char)} (some : init ≠ [])
    (free : ∀ s ∈ init, '/' ∉ s) (head : init.head? = p.segments.head?)
    (shorter : init.length ≤ p.segments.length) :
    (leaving p.isAbsolute init).components = componentsFrom p.isAbsolute init := by
  have kept := segments_ofSegments (trimmed_ne_nil some) fun t mem =>
    free t (mem_of_mem_trimmed mem)
  rw [leaving, trimmedSegments_eq, segments_ofSegments some free, ← componentsFrom_trimmed]
  split
  · rename_i root
    obtain ⟨t, only⟩ := List.length_eq_one_iff.mp
      (Nat.le_antisymm root.2 (List.length_pos_iff.mpr (trimmed_ne_nil some)))
    rw [only, root.1]
    rfl
  · rename_i deep
    rw [components_eq, kept, isAbsolute_ofSegments kept ((head?_trimmed init).trans head)
      (Nat.le_trans (length_trimmed_le init) shorter) deep]

/-- **What is above a path that ends in a name has the components in front of the name.** -/
theorem exists_parent? {front : List Component} {last : String}
    (ends : p.components = front ++ [.named last]) :
    ∃ above, p.parent? = some above ∧ above.components = front := by
  refine ⟨_, parent?_of_named (by rw [ends, List.getLast?_concat]), ?_⟩
  have whole : componentsFrom p.isAbsolute (trimmed p.segments) = front ++ [.named last] := by
    rw [componentsFrom_trimmed, ← components_eq, ends]
  have free : ∀ s ∈ trimmed p.segments, '/' ∉ s := fun s mem =>
    Text.not_mem_of_mem_splitOn (mem_of_mem_trimmed mem)
  have head := head?_trimmed p.segments
  have shorter := length_trimmed_le p.segments
  obtain nothing | ⟨init, s, left⟩ := List.eq_nil_or_concat (trimmed p.segments)
  · exact absurd nothing (trimmed_ne_nil p.segments_ne_nil)
  rw [List.concat_eq_append] at left
  rw [left] at whole free head shorter
  rw [left, List.dropLast_concat]
  by_cases alone : init = []
  · -- the name is all of the path, so nothing stands in front of it
    subst alone
    have few := componentsFrom_singleton p.isAbsolute s
    rw [← List.nil_append [s], whole, List.length_append, List.length_singleton] at few
    obtain rfl : front = [] := List.eq_nil_of_length_eq_zero (by omega)
    have relative : p.isAbsolute = false := by
      rw [Bool.eq_false_iff]
      intro absolute
      simp [componentsFrom, absolute] at whole
    rw [relative]
    decide
  · -- the name is the last segment, and the others stand for what is in front of it
    obtain ⟨c, stands⟩ := exists_component? (something_of_trimmed alone left)
    rw [componentsFrom_append alone, List.filterMap_cons_some stands, List.filterMap_nil] at whole
    rw [List.head?_append, List.head?_eq_some_head alone, Option.some_or] at head
    rw [List.length_append] at shorter
    rw [components_leaving alone (fun t mem => free t (List.mem_append_left _ mem))
      (by rw [← head, List.head?_eq_some_head alone]) (by omega)]
    exact (List.append_inj' whole rfl).1

/-- What is above a path in a directory has the components of the directory. -/
theorem exists_parent?_join (plain : Plain name) (free : '/' ∉ name.toList) (dir : Path) :
    ∃ above, (dir.join name).parent? = some above ∧ above.same dir := by
  obtain ⟨above, parent, components⟩ := exists_parent? (p := dir.join name)
    (by rw [components_join plain, plain.inside_eq free])
  exact ⟨above, parent, same_iff.mpr components⟩

/-! ## What a spelling does not show -/

/-- The components behind the first place, which are the same for every spelling. -/
theorem filterMap_segments (p : Path) : p.segments.filterMap component? =
    p.components.filter fun c => c ≠ .root ∧ c ≠ .here := by
  have solid : ∀ s c, component? s = some c → c ≠ .root ∧ c ≠ .here := by
    intro s c h
    rw [component?] at h
    split at h
    · exact absurd h (by simp)
    · split at h <;> cases h <;> exact ⟨Component.noConfusion, Component.noConfusion⟩
  have kept : ∀ parts : List (List Char), (parts.filterMap component?).filter
      (fun c => c ≠ .root ∧ c ≠ .here) = parts.filterMap component? := fun parts =>
    List.filter_eq_self.mpr fun c mem => by
      obtain ⟨s, -, h⟩ := List.mem_filterMap.mp mem
      simpa using solid s c h
  obtain ⟨first, rest, h⟩ := List.exists_cons_of_ne_nil p.segments_ne_nil
  rw [components_eq, h, componentsFrom, List.filter_append, kept]
  by_cases absolute : p.isAbsolute
  · obtain rfl : first = [] := by simpa [h] using ((isAbsolute_iff p).mp absolute).1
    rw [if_pos absolute]
    rfl
  · rw [if_neg absolute]
    by_cases dot : first = ['.']
    · subst dot
      rfl
    · rw [if_neg dot, List.filterMap_cons]
      rcases stands : component? first with _ | c
      · rfl
      · simp [solid first c stands]

theorem root_mem_components (p : Path) : .root ∈ p.components ↔ p.isAbsolute := by
  obtain ⟨first, rest, h⟩ := List.exists_cons_of_ne_nil p.segments_ne_nil
  have none : ∀ s, component? s ≠ some .root := by
    intro s
    rw [component?]
    split
    · exact nofun
    · split <;> exact nofun
  rw [components_eq, h, componentsFrom]
  cases p.isAbsolute with
  | true => simp
  | false =>
    by_cases dot : first = ['.'] <;> simp [dot, none]

theorem isAbsolute_of_same {q : Path} (same : p.same q) : p.isAbsolute = q.isAbsolute := by
  rw [Bool.eq_iff_iff, ← root_mem_components, ← root_mem_components, same_iff.mp same]

/-- A character that is neither a slash nor a dot is in a path if it is in one of its names. -/
theorem mem_text_iff {c : Char} (slash : c ≠ '/') (dot : c ≠ '.') (p : Path) :
    c ∈ p.text.toList ↔ ∃ n, .named n ∈ p.segments.filterMap component? ∧ c ∈ n.toList := by
  constructor
  · intro mem
    rw [← Text.intercalate_splitOn '/' p.text.toList] at mem
    obtain ⟨s, here, inside⟩ := (Text.mem_of_mem_intercalate mem).resolve_left slash
    have other : s ≠ [] ∧ s ≠ ['.'] ∧ s ≠ ['.', '.'] := by
      refine ⟨?_, ?_, ?_⟩ <;> rintro rfl <;> simp [dot] at inside
    refine ⟨String.ofList s, List.mem_filterMap.mpr ⟨s, here, ?_⟩, by simpa using inside⟩
    simp [component?, other]
  · rintro ⟨n, mem, inside⟩
    obtain ⟨s, here, h⟩ := List.mem_filterMap.mp mem
    rw [component?] at h
    split at h
    · exact absurd h (by simp)
    · split at h
      · exact absurd h (by simp)
      · obtain rfl := Component.named.inj (Option.some.inj h)
        rw [String.toList_ofList] at inside
        rw [← Text.intercalate_splitOn '/' p.text.toList]
        exact Text.mem_intercalate_of_mem here inside

end Path
end Linkage
