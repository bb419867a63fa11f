import Linkage.Proofs.Loading.Places
import Linkage.Proofs.Path.Components
import Mathlib.Data.List.Induction
import Mathlib.Logic.ExistsUnique

/-!
# The order of a search

The directories of a search are those of all groups, one group behind the other, without the
ones that are the same as a directory in front of them.  The search keeps a list and adds to it
at the end, so its lemmas are inductions from the right: what the last path of a list does is
decided by the paths in front of it (`firstOccurrences_concat`), since a path is the same as one
that was kept exactly if it is the same as one that was passed (`any_firstOccurrences`).

`firstOccurrences_eq` says the same without a list that is built up, path by path of the list of
all groups.  From it come what the search keeps (`pairwise_firstOccurrences`,
`find?_of_mem_firstOccurrences`) and what further paths do to it (`firstOccurrences_append`,
`firstOccurrences_idem`).  What the groups hold is read off what is around the process
(`programDirs_eq_singleton`, `programDirs_eq_pair`, `libraryPathDirs_of_intercalate`), and
`searched_in_order` puts this together.
-/

namespace Linkage
namespace Search

variable {host : Host} {configured paths more : List Path} {system : Bool} {p q dir : Path}

/-! ## First occurrences -/

theorem firstOccurrences_snoc (paths : List Path) (p : Path) :
    firstOccurrences (paths ++ [p]) = keepFirst (firstOccurrences paths) p := by
  rw [firstOccurrences, List.foldl_append]
  rfl

/-- A path is the same as one that is kept exactly if it is the same as one of the list. -/
theorem any_firstOccurrences (paths : List Path) (q : Path) :
    (firstOccurrences paths).any (·.same q) = paths.any (·.same q) := by
  induction paths using List.reverseRecOn with
  | nil => rfl
  | append_singleton paths p ih =>
    have last : ∀ front : List Path,
        (front ++ [p]).any (·.same q) = (front.any (·.same q) || p.same q) := fun front => by
      rw [List.any_append, List.any_cons, List.any_nil, Bool.or_false]
    rw [firstOccurrences_snoc, keepFirst, last]
    split
    · rename_i passed
      obtain ⟨d, mem, same⟩ := List.any_eq_true.mp passed
      rw [ih]
      by_cases here : p.same q
      · have kept : (firstOccurrences paths).any (·.same q) = true :=
          List.any_eq_true.mpr ⟨d, mem, Path.same_iff.mpr
            ((Path.same_iff.mp same).trans (Path.same_iff.mp here))⟩
        rw [← ih, kept, Bool.true_or]
      · rw [Bool.eq_false_iff.mpr here, Bool.or_false]
    · rw [last, ih]

/-- **The last path of a list is kept unless it is the same as one in front of it.** -/
theorem firstOccurrences_concat (paths : List Path) (p : Path) :
    firstOccurrences (paths ++ [p]) =
      if paths.any (·.same p) then firstOccurrences paths else firstOccurrences paths ++ [p] := by
  rw [firstOccurrences_snoc, keepFirst, any_firstOccurrences]

/-- Whether the path at a place of a list is the same as none in front of it. -/
def isFirst (paths : List Path) (e : Path × Nat) : Bool :=
  (paths.take e.2).all fun d => !d.same e.1

/-- The paths of a list that are the same as none in front of them. -/
def firsts (paths : List Path) : List Path := (paths.zipIdx.filter (isFirst paths)).map (·.1)

/-- **What is kept are the paths that are the same as none in front of them.** -/
theorem firstOccurrences_eq (paths : List Path) : firstOccurrences paths = firsts paths := by
  induction paths using List.reverseRecOn with
  | nil => rfl
  | append_singleton paths p ih =>
    -- what stands behind a path does not count
    have front : ∀ e ∈ paths.zipIdx, isFirst (paths ++ [p]) e = isFirst paths e := by
      intro e mem
      have lt := (List.mem_zipIdx' mem).1
      rw [isFirst, isFirst, List.take_append_of_le_length (Nat.le_of_lt lt)]
    have last : isFirst (paths ++ [p]) (p, paths.length) = !paths.any (·.same p) := by
      rw [isFirst, List.take_left, List.not_any_eq_all_not]
    rw [firstOccurrences_concat, ih, firsts, firsts, List.zipIdx_append, List.filter_append,
      List.filter_congr front, List.map_append]
    simp only [List.zipIdx_singleton, Nat.zero_add, List.filter_singleton, last]
    cases paths.any (·.same p) <;> simp

theorem firstOccurrences_sublist (paths : List Path) :
    (firstOccurrences paths).Sublist paths := by
  have kept := (List.filter_sublist (p := isFirst paths) (l := paths.zipIdx)).map Prod.fst
  rw [List.zipIdx_map_fst] at kept
  rw [firstOccurrences_eq]
  exact kept

/-- No two of the paths that are kept are the same. -/
theorem pairwise_firstOccurrences (paths : List Path) :
    (firstOccurrences paths).Pairwise fun p q => p.same q = false := by
  induction paths using List.reverseRecOn with
  | nil => exact List.Pairwise.nil
  | append_singleton paths p ih =>
    rw [firstOccurrences_concat]
    split
    · exact ih
    · rename_i fresh
      rw [← any_firstOccurrences] at fresh
      refine List.pairwise_append.mpr ⟨ih, List.pairwise_singleton _ _, fun d mem e last => ?_⟩
      obtain rfl := List.mem_singleton.mp last
      exact Bool.eq_false_iff.mpr fun same => fresh (List.any_eq_true.mpr ⟨d, mem, same⟩)

/-- A path that is kept is the first of the list that is the same as it. -/
theorem find?_of_mem_firstOccurrences (kept : q ∈ firstOccurrences paths) :
    paths.find? (·.same q) = some q := by
  induction paths using List.reverseRecOn with
  | nil => exact absurd kept List.not_mem_nil
  | append_singleton paths p ih =>
    rw [firstOccurrences_concat] at kept
    rw [List.find?_append]
    split at kept
    · rw [ih kept, Option.some_or]
    · rename_i fresh
      rcases List.mem_append.mp kept with old | new
      · rw [ih old, Option.some_or]
      · obtain rfl := List.mem_singleton.mp new
        have none : paths.find? (·.same q) = none := by
          rw [← Option.not_isSome_iff_eq_none, List.find?_isSome]
          exact fun found => fresh (List.any_eq_true.mpr found)
        simp [none]

/-- Exactly one of the paths that are kept is the same as a path of the list. -/
theorem existsUnique_firstOccurrences (mem : p ∈ paths) :
    ∃! q, q ∈ firstOccurrences paths ∧ p.same q := by
  have here : paths.any (·.same p) = true := List.any_eq_true.mpr ⟨p, mem, Path.same_refl p⟩
  rw [← any_firstOccurrences] at here
  obtain ⟨q, kept, same⟩ := List.any_eq_true.mp here
  refine ⟨q, ⟨kept, Path.same_comm q p ▸ same⟩, fun r ⟨kept', same'⟩ => ?_⟩
  have components := (Path.same_iff.mp same).trans (Path.same_iff.mp same')
  have first := find?_of_mem_firstOccurrences kept
  simp only [Path.same, components] at first
  exact Option.some.inj ((find?_of_mem_firstOccurrences kept').symm.trans first)

/-! ## Further paths -/

/-- What is kept of a list is kept of every longer list, and stays in front. -/
theorem firstOccurrences_prefix (paths more : List Path) :
    firstOccurrences paths <+: firstOccurrences (paths ++ more) := by
  induction more using List.reverseRecOn with
  | nil => simp
  | append_singleton more p ih =>
    rw [← List.append_assoc, firstOccurrences_concat]
    split
    · exact ih
    · exact ih.trans (List.prefix_append _ _)

/-- Paths that are the same as those in front of them change nothing. -/
theorem firstOccurrences_append (known : ∀ q ∈ more, paths.any (·.same q) = true) :
    firstOccurrences (paths ++ more) = firstOccurrences paths := by
  induction more using List.reverseRecOn with
  | nil => rw [List.append_nil]
  | append_singleton more p ih =>
    have old : (paths ++ more).any (·.same p) = true := by
      rw [List.any_append, known p (by simp), Bool.true_or]
    rw [← List.append_assoc, firstOccurrences_concat, if_pos old]
    exact ih fun q mem => known q (List.mem_append_left _ mem)

theorem firstOccurrences_of_pairwise (apart : paths.Pairwise fun p q => p.same q = false) :
    firstOccurrences paths = paths := by
  induction paths using List.reverseRecOn with
  | nil => rfl
  | append_singleton paths p ih =>
    obtain ⟨front, -, last⟩ := List.pairwise_append.mp apart
    have fresh : paths.any (·.same p) = false :=
      List.any_eq_false.mpr fun d mem => Bool.eq_false_iff.mp (last d mem p (by simp))
    rw [firstOccurrences_concat, fresh, if_neg Bool.false_ne_true, ih front]

/-- What was kept is kept again, and nothing is added by paths that were in the list. -/
theorem firstOccurrences_idem (known : ∀ q ∈ more, q ∈ paths) :
    firstOccurrences (firstOccurrences paths ++ more) = firstOccurrences paths := by
  rw [firstOccurrences_append, firstOccurrences_of_pairwise (pairwise_firstOccurrences paths)]
  intro q mem
  rw [any_firstOccurrences]
  exact List.any_eq_true.mpr ⟨q, known q mem, Path.same_refl q⟩

/-! ## The groups -/

/-- A program is searched for libraries in its own directory alone, unless it is under test. -/
theorem programDirs_eq_singleton (program : host.programDir = some dir)
    (other : ∀ front, dir.components ≠ front ++ [.named buildSubdirectory]) :
    programDirs host = [dir] := by
  rw [programDirs, program]
  exact if_neg fun under => (Path.fileName?_eq_some.mp under).elim other

/-- The directory of a program under test stands in front of the one above it. -/
theorem programDirs_eq_pair {front : List Path.Component} (program : host.programDir = some dir)
    (under : dir.components = front ++ [.named buildSubdirectory]) :
    ∃ above, dir.parent? = some above ∧ above.components = front ∧
      programDirs host = [dir, above] := by
  obtain ⟨above, parent, components⟩ := Path.exists_parent? under
  refine ⟨above, parent, components, ?_⟩
  rw [programDirs, program]
  dsimp only
  rw [if_pos (Path.fileName?_eq_some.mpr ⟨front, under⟩), parent]
  rfl

/-- The entries of a library path are what stands between its colons. -/
theorem libraryPathDirs_of_intercalate {entries : List String} (some : entries ≠ [])
    (free : ∀ e ∈ entries, ':' ∉ e.toList)
    (joined : host.libraryPath = .some (":".intercalate entries)) :
    libraryPathDirs host = (entries.filter (· ≠ "")).map Path.mk := by
  have split : Text.splitOn ':' (":".intercalate entries).toList = entries.map String.toList := by
    rw [String.toList_intercalate]
    refine Text.splitOn_intercalate (by simpa using some) fun part mem => ?_
    obtain ⟨e, he, rfl⟩ := List.mem_map.mp mem
    exact free e he
  rw [libraryPathDirs, joined]
  dsimp only
  rw [split, List.filter_map, List.map_map]
  simp [Function.comp_def]

/-- Where the system is searched as well, it is searched last. -/
theorem dirs_prefix (host : Host) (configured : List Path) :
    dirs host configured false <+: dirs host configured true := by
  have longer := firstOccurrences_prefix (configured ++ programDirs host)
    (libraryPathDirs host ++ standardDirs)
  simpa only [dirs, allDirs, if_true, Bool.false_eq_true, if_false, List.append_nil] using longer

/-- **The order of a search.**  The directories of a search are the first occurrences, by
components, of the configured directories, those of the running program and, if the system is
searched, the entries of the library path that are not empty and the standard directories, in
this order and as first written: each of all these is the same as exactly one that is searched,
no two that are searched are the same, and they stand in the order of all.  The running program
brings none if its directory is not known, its directory alone if this is not called `deps`, and
otherwise its directory and the one above it, which has the components in front of `deps`.  So a
search that leaves the system out is the front of one that does not, and depends on nothing
around it but the running program; and where the directories of a search are configured, they
are those of the search. -/
theorem searched_in_order (host : Host) (configured : List Path) (system : Bool) :
    let all := configured ++ programDirs host ++
      if system then libraryPathDirs host ++ standardDirs else []
    let searched := dirs host configured system
    searched = firsts all ∧
    (∀ p ∈ all, ∃! q, q ∈ searched ∧ p.same q) ∧
    searched.Pairwise (fun p q => p.same q = false) ∧
    searched.Sublist all ∧
    (∀ q ∈ searched, all.find? (·.same q) = some q) ∧
    (host.programDir = none → programDirs host = []) ∧
    (∀ dir, host.programDir = some dir →
      (∀ front, dir.components ≠ front ++ [.named "deps"]) → programDirs host = [dir]) ∧
    (∀ dir front, host.programDir = some dir → dir.components = front ++ [.named "deps"] →
      ∃ above, dir.parent? = some above ∧ above.components = front ∧
        programDirs host = [dir, above]) ∧
    (∀ entries : List String, entries ≠ [] → (∀ e ∈ entries, ':' ∉ e.toList) →
      host.libraryPath = some (":".intercalate entries) →
      libraryPathDirs host = (entries.filter (· ≠ "")).map Path.mk) ∧
    (host.libraryPath = none → libraryPathDirs host = []) ∧
    standardDirs = [⟨"/usr/local/lib"⟩, ⟨"/usr/lib"⟩, ⟨"/lib"⟩, ⟨"/usr/lib64"⟩, ⟨"/lib64"⟩] ∧
    dirs host configured false <+: dirs host configured true ∧
    (∀ around : Host, around.programDir = host.programDir →
      dirs around configured false = dirs host configured false) ∧
    dirs host searched system = searched := by
  intro all searched
  refine ⟨firstOccurrences_eq all, fun p mem => existsUnique_firstOccurrences mem,
    pairwise_firstOccurrences all, firstOccurrences_sublist all,
    fun q mem => find?_of_mem_firstOccurrences mem,
    fun unknown => by rw [programDirs, unknown],
    fun dir program other => programDirs_eq_singleton program other,
    fun dir front program under => programDirs_eq_pair program under,
    fun entries given free joined => libraryPathDirs_of_intercalate given free joined,
    fun unset => by rw [libraryPathDirs, unset], rfl, ?_, ?_, ?_⟩
  · exact dirs_prefix host configured
  · intro around same
    have program : programDirs around = programDirs host := by
      rw [programDirs, programDirs, same]
    simp only [dirs, allDirs, Bool.false_eq_true, if_false, program]
  · have again : dirs host searched system = firstOccurrences (firstOccurrences all ++
        (programDirs host ++ if system then libraryPathDirs host ++ standardDirs else [])) := by
      rw [← List.append_assoc]
      rfl
    rw [again]
    refine firstOccurrences_idem fun q mem => ?_
    rw [show all = configured ++ _ from List.append_assoc ..]
    exact List.mem_append_right _ mem

/-- The running program is under test, in a directory written with needless parts. -/
def underTest : Host where
  files := .empty
  cwd := []
  libraryPath := some "/opt/lib::/lib/"
  programDir := some ⟨"/work//target/./deps/"⟩
  mapped := []

/-- A program under test is searched in two directories, and the entry `/lib/` takes the place
of the standard directory that is the same. -/
theorem searched_in_order_under_test :
    programDirs underTest = [⟨"/work//target/./deps/"⟩, ⟨"/work//target"⟩] ∧
    dirs underTest [⟨"/usr/lib/."⟩, ⟨"./lib"⟩, ⟨"/usr//lib"⟩] true =
      [⟨"/usr/lib/."⟩, ⟨"./lib"⟩, ⟨"/work//target/./deps/"⟩, ⟨"/work//target"⟩, ⟨"/opt/lib"⟩,
        ⟨"/lib/"⟩, ⟨"/usr/local/lib"⟩, ⟨"/usr/lib64"⟩, ⟨"/lib64"⟩] := by
  have order := searched_in_order underTest [⟨"/usr/lib/."⟩, ⟨"./lib"⟩, ⟨"/usr//lib"⟩] true
  obtain ⟨searched, -, -, -, -, -, -, under, -⟩ := order
  obtain ⟨above, parent, -, program⟩ := under ⟨"/work//target/./deps/"⟩
    [.root, .named "work", .named "target"] rfl (by decide)
  obtain rfl : above = ⟨"/work//target"⟩ :=
    Option.some.inj (parent.symm.trans (by decide +kernel))
  exact ⟨program, searched.trans (by decide +kernel)⟩

end Search
end Linkage
