import Linkage.Proofs.Process.Verdicts
import Linkage.Proofs.Text.Cutting
import Mathlib.Data.Nat.Digits.Defs

/-!
# Where origins have their libraries

An in-process source has its library at a path that names no file: a directory made of the
number of the source, relative to whatever the working directory is.  Its first component is
that number (`head?_components_pathOf`), so two such paths are the same only if the numbers
are.  A canonical path starts at the root, and so never is the same as one of them.

So as long as the place of an in-process source leads nowhere, only what is spelled the same is
known by it, whatever else is on the disk (`same_registryKey_of_nowhere`).
-/

namespace Linkage

/-! ## First components -/

namespace Path

theorem same_comm (p q : Path) : p.same q = q.same p := decide_eq_decide.mpr eq_comm

/-- A path that starts at the root has the root as its first component. -/
theorem head?_components_of_isAbsolute {p : Path} (h : p.isAbsolute) :
    p.components.head? = some .root := by
  obtain ⟨first, rest, hs⟩ := List.exists_cons_of_ne_nil (Text.splitOn_ne_nil '/' p.text.toList)
  rw [components, segments, hs]
  simp [h]

/-- A directory with a name of its own is the first component of what is in it. -/
theorem head?_components_join {dir : String} (named : dir.toList ≠ [] ∧ dir.toList ≠ ['.'] ∧
      dir.toList ≠ ['.', '.']) (free : '/' ∉ dir.toList) (name : String) :
    ((Path.mk dir).join name).components.head? = some (.named dir) := by
  have nonempty : dir.isEmpty = false := by
    rw [Bool.eq_false_iff, ne_eq, String.isEmpty_iff]
    rintro rfl
    exact named.1 rfl
  have last : dir.toList.getLast? ≠ some '/' := fun h => free (List.mem_of_getLast? h)
  have text : ((Path.mk dir).join name).text.toList = dir.toList ++ '/' :: name.toList := by
    rw [join, if_neg (by simp [nonempty]), if_neg last]
    simp
  have segments : ((Path.mk dir).join name).segments =
      dir.toList :: Text.splitOn '/' name.toList := by
    rw [Path.segments, text, Text.splitOn_append_cons free]
  have relative : ((Path.mk dir).join name).isAbsolute = false := by
    rw [isAbsolute, text]
    obtain ⟨c, rest, h⟩ := List.exists_cons_of_ne_nil named.1
    rw [h] at free ⊢
    obtain ⟨other, -⟩ : '/' ≠ c ∧ '/' ∉ rest := by simpa using free
    simpa [eq_comm] using other
  rw [components, segments]
  simp [relative, component?, named]

end Path

namespace InProcess

variable {s t : InProcess} {library library' : String}

/-- The functions that are registered with a source do not touch its number and its library. -/
theorem withSymbols_leaves (s : InProcess) (functions : List (String × Function)) :
    (s.withSymbols functions).id = s.id ∧ (s.withSymbols functions).library = s.library := by
  rw [withSymbols]
  induction functions generalizing s with
  | nil => exact ⟨rfl, rfl⟩
  | cons f functions ih => exact ih _

theorem slash_not_mem_directory (s : InProcess) : '/' ∉ s.directory.text.toList := by
  have digits : '/' ∉ (toString s.id).toList := by
    intro mem
    rw [Nat.toString_eq_repr, Nat.toList_repr] at mem
    exact absurd (Nat.isDigit_of_mem_toDigits (by decide) (by decide) mem) (by decide)
  simpa [directory] using digits

theorem head?_components_pathOf (s : InProcess) (library : String) :
    (s.pathOf library).components.head? = some (.named s.directory.text) := by
  refine Path.head?_components_join ⟨?_, ?_, ?_⟩ s.slash_not_mem_directory _
  all_goals simp [directory]

theorem eq_of_directory (h : s.directory.text = t.directory.text) : s.id = t.id := by
  have same : toString s.id = toString t.id := by simpa [directory] using h
  have digits : Nat.toDigits 10 s.id = Nat.toDigits 10 t.id := by
    rw [← Nat.toList_repr, ← Nat.toString_eq_repr, same, Nat.toString_eq_repr, Nat.toList_repr]
  rw [← Nat.ofDigitChars_ten_toDigits (n := s.id), digits, Nat.ofDigitChars_ten_toDigits]

/-- In-process sources of different numbers have no place in common. -/
theorem id_eq_of_same (h : (s.pathOf library).same (t.pathOf library')) : s.id = t.id := by
  have heads := congrArg List.head? (Path.same_iff.mp h)
  rw [head?_components_pathOf, head?_components_pathOf] at heads
  exact eq_of_directory (by simpa using heads)

/-- The place of an in-process source does not start at the root. -/
theorem not_same_of_isAbsolute {q : Path} (h : q.isAbsolute) :
    (s.pathOf library).same q = false := by
  rw [Bool.eq_false_iff]
  intro same
  have heads := congrArg List.head? (Path.same_iff.mp same)
  rw [head?_components_pathOf, Path.head?_components_of_isAbsolute h] at heads
  exact absurd heads (by simp)

end InProcess

/-! ## Canonical paths -/

namespace FileSystem

variable {fs : FileSystem} {cwd : Place} {p q : Path}

theorem isAbsolute_of_canonical? (h : fs.canonical? cwd p = some q) : q.isAbsolute := by
  unfold canonical? at h
  split at h
  · cases h
    simp [placePath, Path.isAbsolute]
  · exact absurd h (by simp)

/-- A path that leads to a file has a canonical path. -/
theorem isSome_canonical?_of_isFile (h : fs.isFile cwd p) : (fs.canonical? cwd p).isSome := by
  unfold isFile fileAt? at h
  unfold canonical?
  split at h
  · rename_i found
    rw [found]
    rfl
  · exact absurd h (by simp)

end FileSystem

/-- Two paths led to the same place, each on a host of its own. -/
def Host.SamePlace (around around' : Host) (p q : Path) : Prop :=
  ∃ c d, around.files.canonical? around.cwd p = some c ∧
    around'.files.canonical? around'.cwd q = some d ∧ c.same d

/-- A path that led nowhere did not lead where another one did. -/
theorem Host.not_samePlace_of_nowhere {around around' : Host} {p q : Path}
    (nowhere : around.files.canonical? around.cwd p = none) :
    ¬ around.SamePlace around' p q := by
  rintro ⟨c, -, here, -⟩
  exact absurd (nowhere.symm.trans here) (by simp)

/-- **The place of an in-process source that leads nowhere is that of another path** exactly if
this one led nowhere either and is the same. -/
theorem InProcess.same_registryKey_of_nowhere {s : InProcess} {library : String}
    {around around' : Host} {q : Path}
    (nowhere : around.files.canonical? around.cwd (s.pathOf library) = none) :
    (around.registryKey (s.pathOf library)).same (around'.registryKey q) ↔
      around'.files.canonical? around'.cwd q = none ∧ (s.pathOf library).same q := by
  rw [Host.registryKey, Host.registryKey, nowhere]
  rcases there : around'.files.canonical? around'.cwd q with _ | d
  · simp
  · simp [not_same_of_isAbsolute (FileSystem.isAbsolute_of_canonical? there)]

/-- The place by which an in-process source is known is that of another path if both paths
led to the same place, or both led nowhere and are the same. -/
theorem InProcess.same_registryKey_iff {s : InProcess} {library : String} {around around' : Host}
    {q : Path} (nowhere : around'.files.canonical? around'.cwd q = none →
      ∃ (t : InProcess) (library' : String), q = t.pathOf library') :
    (around.registryKey (s.pathOf library)).same (around'.registryKey q) ↔
      (around.files.canonical? around.cwd (s.pathOf library) = none ∧
        around'.files.canonical? around'.cwd q = none ∧ (s.pathOf library).same q) ∨
      around.SamePlace around' (s.pathOf library) q := by
  rcases here : around.files.canonical? around.cwd (s.pathOf library) with _ | c
  · rw [same_registryKey_of_nowhere here]
    simp [Host.not_samePlace_of_nowhere here]
  rw [Host.registryKey, Host.registryKey, here, Host.SamePlace]
  rcases there : around'.files.canonical? around'.cwd q with _ | d
  · obtain ⟨t, library', rfl⟩ := nowhere there
    have apart : c.same (t.pathOf library') = false := by
      rw [Path.same_comm]
      exact not_same_of_isAbsolute (FileSystem.isAbsolute_of_canonical? here)
    simp [apart]
  · simp [here]

/-- What the probing finds is a candidate that passes the test. -/
theorem Search.of_probe {test : Path → Bool} {candidates : List Path} {path : Path}
    (h : (probe test candidates).2 = some path) : path ∈ candidates ∧ test path := by
  induction candidates with
  | nil => exact absurd h (by simp [probe])
  | cons c rest ih =>
    rw [probe] at h
    split at h
    · rename_i passes
      obtain rfl := Option.some.inj h
      exact ⟨List.mem_cons_self, passes⟩
    · obtain ⟨mem, passes⟩ := ih h
      exact ⟨List.mem_cons_of_mem _ mem, passes⟩

end Linkage
