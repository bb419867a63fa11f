import Linkage.Proofs.FileSystem.Walking
import Linkage.Proofs.Loading.Located
import Linkage.Proofs.Search.Order

/-!
# What is located

The disk is searched in the first occurrences of its directories only.  That leaves nothing out
where directories that are the same by components have a file of a name in them together
(`FileSystem.Uniform`): the first of all candidates that is a file then is the candidate of a
first occurrence (`find?_candidates_firstOccurrences`).  The spellings of a directory lead to the
same place, so this is how disks are, except that a path may be too long to be followed
(`FileSystem.uniform_of_short`).

`locating_unaffected` says what a source over the disk answers, by all directories of its search.
-/

namespace Linkage

/-! ## The file name of a library -/

theorem plain_libraryFileName (library : String) : Path.Plain (libraryFileName library) :=
  ⟨'l', _, by rw [libraryFileName, String.toList_append, String.toList_append]; rfl,
    by decide, by decide⟩

theorem ended_libraryFileName (library : String) : Path.Ended (libraryFileName library) := by
  refine ⟨"lib".toList ++ library.toList ++ ".s".toList, 'o', ?_, by decide⟩
  rw [libraryFileName, String.toList_append, String.toList_append,
    show ".so".toList = ".s".toList ++ ['o'] from rfl, ← List.append_assoc]

namespace FileSystem

variable {fs : FileSystem} {cwd : Place} {dirs : List Path} {name : String}

/-- Directories that are the same have a file of a name in them together. -/
def Uniform (fs : FileSystem) (cwd : Place) (dirs : List Path) (name : String) : Prop :=
  ∀ d ∈ dirs, ∀ d' ∈ dirs, d.same d' → fs.isFile cwd (d.join name) = fs.isFile cwd (d'.join name)

/-- **Directories that are the same have the same in them**, unless a path is too long to be
followed. -/
theorem uniform_of_short (plain : Path.Plain name) (ended : Path.Ended name)
    (short : ∀ d ∈ dirs, (d.join name).text.utf8ByteSize < pathLimit) :
    fs.Uniform cwd dirs name := by
  intro d mem d' mem' same
  have followed : fs.follow true cwd (d.join name) = fs.follow true cwd (d'.join name) :=
    follow_join_of_same plain ended same (short d mem) (short d' mem') true cwd
  rw [isFile, isFile, fileAt?, fileAt?, resolve, resolve, followed]

/-- A directory is no file. -/
theorem isFile_of_directory {p : Path} {place : Place}
    (h : fs.resolve cwd p = .ok (place, .directory)) : fs.isFile cwd p = false := by
  rw [isFile, fileAt?, h]
  rfl

end FileSystem

namespace Search

variable {paths front back : List Path} {library : String} {test : Path → Bool} {d : Path}

/-! ## First hits -/

/-- **The first candidate that passes a test comes from a first occurrence**, if directories that
are the same pass it together. -/
theorem find?_candidates_firstOccurrences
    (uniform : ∀ d ∈ paths, ∀ d' ∈ paths, d.same d' →
      test (d.join (libraryFileName library)) = test (d'.join (libraryFileName library))) :
    (candidates (firstOccurrences paths) library).find? test =
      (candidates paths library).find? test := by
  induction paths using List.reverseRecOn with
  | nil => rfl
  | append_singleton paths p ih =>
    have earlier := ih fun d mem d' mem' =>
      uniform d (List.mem_append_left _ mem) d' (List.mem_append_left _ mem')
    rw [candidates, candidates] at earlier
    rw [candidates, candidates, firstOccurrences_concat, List.map_append, List.find?_append]
    split
    · rename_i passed
      rw [earlier]
      rcases found : (paths.map (·.join (libraryFileName library))).find? test with _ | path
      · -- what did not pass in front does not pass at the end
        obtain ⟨d, mem, same⟩ := List.any_eq_true.mp passed
        have failed := List.find?_eq_none.mp found _ (List.mem_map_of_mem mem)
        rw [uniform d (List.mem_append_left _ mem) p (by simp) same] at failed
        simp [failed]
      · rw [found, Option.some_or]
    · rw [List.map_append, List.find?_append, earlier]

/-- A candidate that does not pass can be left out. -/
theorem find?_candidates_skip (failed : test (d.join (libraryFileName library)) = false)
    (front back : List Path) :
    (candidates (front ++ d :: back) library).find? test =
      (candidates (front ++ back) library).find? test := by
  simp only [candidates, List.map_append, List.map_cons, List.find?_append]
  rw [List.find?_cons_of_neg (by simp [failed])]

theorem find?_candidates_of_prefix {path : Path} {dirs more : List Path} (longer : dirs <+: more)
    (found : (candidates dirs library).find? test = some path) :
    (candidates more library).find? test = some path := by
  obtain ⟨rest, rfl⟩ := longer
  rw [candidates, List.map_append, List.find?_append, ← candidates, found, Option.some_or]

/-- Candidates of different directories are different. -/
theorem pairwise_candidates (apart : paths.Pairwise fun p q => p.same q = false)
    (library : String) :
    (candidates paths library).Pairwise fun p q => p.same q = false := by
  refine List.pairwise_map.mpr (apart.imp fun {p q} other => ?_)
  rw [Bool.eq_false_iff] at other ⊢
  exact fun same => other ((Path.same_join_iff (plain_libraryFileName library) p q).mp same)

end Search

namespace Process

variable {p : Process} {c : Config} {library : String} {owner : Option LoaderId}

/-- A source over the disk answers with the first candidate that is a file, or with all
candidates if there is none. -/
theorem locate_systemOrigin (made p : Process) (c : Config) (library : String)
    (owner : Option LoaderId) :
    (p.locate ⟨made.systemOrigin c, none, none⟩ library owner).1 =
      match (Search.candidates (Search.dirs made.host c.searchPaths c.systemSearchPaths)
        library).find? (p.host.files.isFile p.host.cwd) with
      | some path => .ok path
      | none => .error (.libraryNotFound library
          (Search.candidates (Search.dirs made.host c.searchPaths c.systemSearchPaths) library)) :=
  p.locate_system _ library owner

/-- **Locating, by all directories of a search.**  Let a source over the disk be made from a
configuration, and later be asked for a library where directories that are the same have its file
in them together.  It answers with a path exactly if that path, in this spelling, is the first
file among the candidates of all directories, repetitions included.  It answers that the library
was not found exactly if none of these candidates is a file, and then with the candidates that
were tried, of which no two are the same; each of all candidates is the same as one of them.  A
directory that has the file name of the library is passed over, as if its place were not searched.
And what is located by a source that leaves the system out is located by the one that searches
it as well. -/
theorem locating_unaffected (made p : Process) (c : Config) (library : String)
    (owner : Option LoaderId)
    (uniform : p.host.files.Uniform p.host.cwd
      (Search.allDirs made.host c.searchPaths c.systemSearchPaths) (libraryFileName library)) :
    let source := fun c : Config => (⟨made.systemOrigin c, none, none⟩ : Source)
    let dirs := Search.allDirs made.host c.searchPaths c.systemSearchPaths
    let all := Search.candidates dirs library
    let tried := Search.candidates (Search.dirs made.host c.searchPaths c.systemSearchPaths) library
    let answer := (p.locate (source c) library owner).1
    (∀ path, answer = .ok path ↔ all.find? (p.host.files.isFile p.host.cwd) = some path) ∧
    (∀ name searched, answer = .error (.libraryNotFound name searched) ↔
      (∀ path ∈ all, p.host.files.isFile p.host.cwd path = false) ∧
        name = library ∧ searched = tried) ∧
    ((∃ path, answer = .ok path) ∨ answer = .error (.libraryNotFound library tried)) ∧
    tried.Pairwise (fun path path' => path.same path' = false) ∧
    (∀ path ∈ all, ∃! path', path' ∈ tried ∧ path.same path') ∧
    (∀ front dir back, dirs = front ++ dir :: back →
      (∃ place, p.host.files.resolve p.host.cwd (dir.join (libraryFileName library)) =
        .ok (place, .directory)) →
      ∀ path, answer = .ok path ↔ (Search.candidates (front ++ back) library).find?
        (p.host.files.isFile p.host.cwd) = some path) ∧
    (∀ path, (p.locate (source { c with systemSearchPaths := false }) library owner).1 = .ok path →
      (p.locate (source { c with systemSearchPaths := true }) library owner).1 = .ok path) := by
  intro source dirs all tried answer
  have first : tried.find? (p.host.files.isFile p.host.cwd) =
      all.find? (p.host.files.isFile p.host.cwd) := Search.find?_candidates_firstOccurrences uniform
  have outcome : answer = match all.find? (p.host.files.isFile p.host.cwd) with
      | some path => .ok path
      | none => .error (.libraryNotFound library tried) := by
    rw [← first]
    exact locate_systemOrigin made p c library owner
  have found : ∀ path, answer = .ok path ↔
      all.find? (p.host.files.isFile p.host.cwd) = some path := by
    intro path
    rw [outcome]
    rcases all.find? (p.host.files.isFile p.host.cwd) with _ | here <;> simp
  refine ⟨found, ?_, ?_, ?_, ?_, ?_, ?_⟩
  · intro name searched
    rw [outcome]
    rcases search : all.find? (p.host.files.isFile p.host.cwd) with _ | here
    · have none := List.find?_eq_none.mp search
      simp only [Bool.not_eq_true] at none
      simp only [Outcome.error.injEq, BridgeError.libraryNotFound.injEq]
      exact ⟨fun ⟨same, searched⟩ => ⟨none, same.symm, searched.symm⟩,
        fun ⟨_, same, searched⟩ => ⟨same.symm, searched.symm⟩⟩
    · have passes := List.find?_some search
      have mem := List.mem_of_find?_eq_some search
      refine iff_of_false (by simp) fun none => ?_
      exact absurd passes (by simp [none.1 here mem])
  · rw [outcome]
    rcases all.find? (p.host.files.isFile p.host.cwd) with _ | here
    · exact Or.inr rfl
    · exact Or.inl ⟨here, rfl⟩
  · exact Search.pairwise_candidates (Search.pairwise_firstOccurrences _) library
  · intro path mem
    obtain ⟨d, hd, rfl⟩ := List.mem_map.mp mem
    obtain ⟨q, ⟨kept, same⟩, only⟩ := Search.existsUnique_firstOccurrences hd
    have plain := plain_libraryFileName library
    refine ⟨_, ⟨List.mem_map_of_mem kept, (Path.same_join_iff plain d q).mpr same⟩, ?_⟩
    rintro _ ⟨mem', same'⟩
    obtain ⟨r, kept', rfl⟩ := List.mem_map.mp mem'
    rw [only r ⟨kept', (Path.same_join_iff plain d r).mp same'⟩]
  · rintro front dir back split ⟨place, directory⟩ path
    rw [← Search.find?_candidates_skip (FileSystem.isFile_of_directory directory), ← split]
    exact found path
  · intro path located
    have shorter := Search.dirs_prefix made.host c.searchPaths
    rw [locate_systemOrigin] at located ⊢
    rcases without : (Search.candidates (Search.dirs made.host c.searchPaths false) library).find?
        (p.host.files.isFile p.host.cwd) with _ | here
    · rw [without] at located
      exact absurd located (by simp)
    · rw [without] at located
      rw [Search.find?_candidates_of_prefix shorter without]
      exact located

/-- A working directory with a directory that is called like the library, and with the library
in a directory that is configured in two spellings. -/
def spelled.host : Host where
  files := ⟨[(["w"], .directory), (["w", "a"], .directory), (["w", "a", "libx.so"], .directory),
    (["w", "b"], .directory), (["w", "b", "libx.so"], .file 0)], [.library .lengthLibrary]⟩
  cwd := ["w"]
  libraryPath := some "/w/b::b"
  programDir := none
  mapped := []

/-- The configuration of the search there. -/
def spelled.config : Config := ⟨"x", "f", [⟨"a"⟩, ⟨"b/."⟩, ⟨"b//"⟩], true⟩

/-- The library is located in the first spelling of its directory. -/
theorem locating_unaffected_spelled :
    let p := Process.start spelled.host
    p.host.files.Uniform p.host.cwd
        (Search.allDirs p.host spelled.config.searchPaths spelled.config.systemSearchPaths)
        (libraryFileName "x") ∧
      (p.locate ⟨p.systemOrigin spelled.config, none, none⟩ "x" none).1 = .ok ⟨"b/./libx.so"⟩ := by
  intro p
  have uniform : p.host.files.Uniform p.host.cwd
      (Search.allDirs p.host spelled.config.searchPaths spelled.config.systemSearchPaths)
      (libraryFileName "x") :=
    FileSystem.uniform_of_short (plain_libraryFileName _) (ended_libraryFileName _)
      (by decide +kernel)
  exact ⟨uniform, ((locating_unaffected p p spelled.config "x" none uniform).1 _).mpr
    (by decide +kernel)⟩

end Process
end Linkage
