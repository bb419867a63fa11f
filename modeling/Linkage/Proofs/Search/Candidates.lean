import Linkage.Proofs.Search.Order
import Linkage.Config

/-!
# The candidates of a search

Every directory of a search gives one candidate, the file name of the library joined to it.
The candidate leads into the directory, with one exception: joined to the empty path the file
name stands alone, without a slash (`mem_join_iff`).

The empty path comes only from a configuration.  Neither the standard directories nor the
entries taken from the library path are empty, and the directory of the running program and
its parent start at the root (`bare_not_mem_candidates`).
-/

namespace Linkage

namespace Path

variable {p q : Path} {name : String}

/-- A name without slashes that is put behind a directory stays alone only if the directory is
the empty path. -/
theorem mem_join_iff (free : '/' ∉ name.toList) (dir : Path) :
    '/' ∈ (dir.join name).text.toList ↔ dir.text ≠ "" := by
  rw [join]
  split
  · rename_i empty
    simp [free, String.isEmpty_iff.mp empty]
  · rename_i nonempty
    have named : dir.text ≠ "" := fun empty => nonempty (by simp [empty])
    split
    · rename_i last
      simp [named, List.mem_of_getLast? last]
    · simp [named]

theorem eq_of_join_eq (free : '/' ∉ name.toList) {dir : Path} (bare : dir.join name = ⟨name⟩) :
    dir.text = "" := by
  by_contra named
  have slash := (mem_join_iff free dir).mpr named
  rw [bare] at slash
  exact free slash

theorem text_ne_empty_of_isAbsolute (h : p.isAbsolute) : p.text ≠ "" := by
  intro empty
  simp [isAbsolute, empty] at h

/-- More than one segment makes a text with a slash. -/
theorem intercalate_ne_nil {segments : List (List Char)} (many : 1 < segments.length) :
    ['/'].intercalate segments ≠ [] := by
  match segments, many with
  | first :: second :: rest, _ => simp [List.intercalate]

/-- What is above a directory that starts at the root is not the empty path. -/
theorem text_ne_empty_of_parent? (h : p.isAbsolute) (parent : p.parent? = some q) :
    q.text ≠ "" := by
  unfold parent? at parent
  split at parent
  · exact absurd parent (by simp)
  · exact absurd parent (by simp)
  · dsimp only at parent
    split at parent
    · obtain rfl := Option.some.inj parent
      decide
    · rename_i deep
      obtain rfl := Option.some.inj parent
      have many : 1 < _ := Nat.lt_of_not_le fun shallow => deep ⟨h, shallow⟩
      simpa using intercalate_ne_nil many

end Path

namespace Search

variable {host : Host} {configured paths : List Path} {system : Bool} {dir : Path}
  {library : String}

/-- The probing finds the first candidate that passes the test. -/
theorem probe_eq_find? (test : Path → Bool) (candidates : List Path) :
    (probe test candidates).2 = candidates.find? test := by
  induction candidates with
  | nil => rfl
  | cons c rest ih =>
    rw [probe, List.find?_cons]
    cases test c with
    | true => rfl
    | false => exact ih

/-- Only a configuration brings the empty path into a search, where the running program is
known by a directory that starts at the root. -/
theorem configured_of_empty (located : ∀ d ∈ host.programDir, d.isAbsolute)
    (mem : dir ∈ dirs host configured system) (empty : dir.text = "") : dir ∈ configured := by
  have named : ∀ {d : Path}, d.text ≠ "" → dir ≠ d := fun h same => h (same ▸ empty)
  have all := (firstOccurrences_sublist _).subset mem
  rw [allDirs, List.mem_append, List.mem_append] at all
  rcases all with (own | program) | further
  · exact own
  · rw [programDirs] at program
    split at program
    · exact absurd program List.not_mem_nil
    · rename_i d hd
      have absolute := located d hd
      split at program
      · rcases List.mem_cons.mp program with same | above
        · exact absurd same (named (Path.text_ne_empty_of_isAbsolute absolute))
        · have parent : d.parent? = some dir := by simpa using above
          exact absurd empty (Path.text_ne_empty_of_parent? absolute parent)
      · exact absurd (List.mem_singleton.mp program)
          (named (Path.text_ne_empty_of_isAbsolute absolute))
  · split at further
    · rcases List.mem_append.mp further with entry | standard
      · rw [libraryPathDirs] at entry
        split at entry
        · exact absurd entry List.not_mem_nil
        · obtain ⟨cs, kept, rfl⟩ := List.mem_map.mp entry
          have nonempty : cs ≠ [] := by simpa using (List.mem_filter.mp kept).2
          exact absurd empty (by simpa using nonempty)
      · have texts : ∀ d ∈ standardDirs, d.text ≠ "" := by decide
        exact absurd empty (texts dir standard)
    · exact absurd further List.not_mem_nil

/-- Unless the empty path is configured, no candidate is the file name alone. -/
theorem bare_not_mem_candidates (free : '/' ∉ (libraryFileName library).toList)
    (located : ∀ d ∈ host.programDir, d.isAbsolute)
    (configured : ∀ d ∈ paths, d.text ≠ "") :
    ⟨libraryFileName library⟩ ∉ candidates (dirs host paths system) library := by
  intro mem
  obtain ⟨dir, hd, bare⟩ := List.mem_map.mp mem
  have empty := Path.eq_of_join_eq free bare
  exact configured dir (configured_of_empty located hd empty) empty

end Search

/-- The file name of a library that a configuration may name has no slash. -/
theorem Config.slash_not_mem_libraryFileName {c : Config} (valid : c.validate = .ok ()) :
    '/' ∉ (libraryFileName c.library).toList := by
  obtain ⟨-, free, -⟩ := validate_eq_ok.mp valid
  have apart : ∀ x ∈ c.library.toList, x ≠ '/' := by
    intro x mem slash
    have other := List.any_eq_false.mp free x mem
    simp [slash] at other
  intro mem
  have inside : '/' ∈ c.library.toList := by simpa [libraryFileName] using mem
  exact apart _ inside rfl

end Linkage
