import Linkage.Proofs.Bridge.Stages
import Linkage.Proofs.Host.Opening
import Linkage.Proofs.Search.Candidates

/-!
# What is located is loaded

A loader that searches the disk takes the first candidate that is a file, seen from the
working directory, and asks the platform's loader for it under the path of the candidate.
The two agree about the path as long as it has a slash.  Every candidate has one, unless the
empty path is configured as a directory: its candidate is the file name alone, which leads to
a file in the working directory, but is no path to the platform's loader.

`located_library_loads` says of every loader over the disk how its loading ends, by the first
candidate that is a file.  That a file of the working directory is found and not opened is
the run of `located_not_opened`.
-/

namespace Linkage
namespace Process

variable {p : Process} {l : LoaderId} {dirs : List Path} {library : String} {path : Path}

/-! ## One request, by the first candidate that is a file -/

/-- The first candidate that is a file. -/
def firstFile? (p : Process) (dirs : List Path) (library : String) : Option Path :=
  (Search.candidates dirs library).find? (p.host.files.isFile p.host.cwd)

theorem firstFile?_eq_none : p.firstFile? dirs library = none ↔
    ∀ path ∈ Search.candidates dirs library, p.host.files.isFile p.host.cwd path = false := by
  simp [firstFile?]

/-- A file that is found has a canonical path, by which its library is known. -/
theorem canonical?_of_firstFile? (found : p.firstFile? dirs library = some path) :
    p.host.files.canonical? p.host.cwd path = some (p.host.registryKey path) := by
  have file := FileSystem.isSome_canonical?_of_isFile (List.find?_some found)
  obtain ⟨key, canonical⟩ := Option.isSome_iff_exists.mp file
  rw [Host.registryKey, canonical, Option.getD_some]

theorem fileAt?_of_firstFile? (found : p.firstFile? dirs library = some path) :
    ∃ id, p.host.files.fileAt? p.host.cwd path = some id :=
  Option.isSome_iff_exists.mp (by simpa [FileSystem.isFile] using List.find?_some found)

/-- Where a loader stands does not matter to the search. -/
theorem firstFile?_setState (p : Process) (l : LoaderId) (state : LoadState) (dirs : List Path) :
    (p.setState l state).firstFile? dirs ((p.setState l state).loader l).library =
      p.firstFile? dirs (p.loader l).library := by
  rw [library_setState]
  rfl

/-- The disk answers with the first candidate that is a file. -/
theorem locate_system (p : Process) (dirs : List Path) (library : String)
    (owner : Option LoaderId) :
    (p.locate (.system dirs) library owner).1 =
      match p.firstFile? dirs library with
      | some path => .ok path
      | none => .error (.libraryNotFound library (Search.candidates dirs library)) := by
  have passes : p.verdict (Source.system dirs).watch .locate 0 = .pass := rfl
  rw [(locate_spec ..).1, passes]
  simp only [locateUnder, Source.system, locateAt, firstFile?, ← Search.probe_eq_find?]
  cases (Search.probe _ _).2 <;> rfl

/-- The disk opens what the platform's loader opens. -/
theorem tableUnder_system (p : Process) (dirs : List Path) (path : Path) :
    (p.tableUnder (.system dirs) path (p.verdict (Source.system dirs).watch .opening 0)).1 =
      match (p.host.mapLibrary path).1 with
      | some image => .ok (.mapped image)
      | none => .error (.libraryLoad path .refused) := by
  have passes : p.verdict (Source.system dirs).watch .opening 0 = .pass := rfl
  rw [passes]
  simp only [tableUnder, Source.system, tableAt]
  rcases p.host.mapLibrary path with ⟨_ | image, host⟩ <;> rfl

section
variable (source : (p.loader l).source = .system dirs)
include source

theorem load_of_no_file (none : p.firstFile? dirs (p.loader l).library = none) :
    (p.load l).1 = .error (.libraryNotFound (p.loader l).library
      (Search.candidates dirs (p.loader l).library)) := by
  have answer := locate_system p dirs (p.loader l).library (some l)
  rcases asked : p.locate (.system dirs) (p.loader l).library (some l) with ⟨o, q⟩
  rw [asked, none] at answer
  obtain rfl : o = _ := answer
  rw [(Attempt.notLocated (source ▸ asked)).eq_load]

/-- The file that is found is asked for in a process that is as it was. -/
theorem asked_of_firstFile? (found : p.firstFile? dirs (p.loader l).library = some path) :
    ∃ q, p.locate (p.loader l).source (p.loader l).library (some l) = (.ok path, q) ∧
      Heard p q := by
  have answer := locate_system p dirs (p.loader l).library (some l)
  have heard := heard_locate p (.system dirs) (p.loader l).library (some l)
  rcases asked : p.locate (.system dirs) (p.loader l).library (some l) with ⟨o, q⟩
  rw [asked, found] at answer
  rw [asked] at heard
  obtain rfl : o = _ := answer
  exact ⟨q, source ▸ asked, heard⟩

variable (found : p.firstFile? dirs (p.loader l).library = some path)
include found

theorem load_of_registered {h : Handle}
    (registered : p.registered? (p.host.registryKey path) = some h) :
    (p.load l).1 = .ok ⟨path, p.host.registryKey path, h, false⟩ := by
  obtain ⟨q, asked, heard⟩ := asked_of_firstFile? source found
  rw [← heard.host, ← heard.registered?] at registered
  rw [(Attempt.reused asked registered).eq_load, heard.host]

variable (unregistered : p.registered? (p.host.registryKey path) = none)
include unregistered

theorem load_of_mapped {image : Image} (mapped : (p.host.mapLibrary path).1 = some image) :
    (p.load l).1 = .ok ⟨path, p.host.registryKey path, p.libraries.length, true⟩ ∧
      (p.load l).2.libraries = p.libraries ++ [⟨path, .mapped image, none⟩] := by
  obtain ⟨q, asked, heard⟩ := asked_of_firstFile? source found
  have table := tableUnder_system q dirs path
  rw [heard.host, mapped] at table
  obtain ⟨handle, libraries⟩ := openLibrary_of_ok table (some l)
  rw [heard.libraries] at handle libraries
  rcases opening : q.openLibrary (.system dirs) path (some l) with ⟨o, r⟩
  rw [opening] at handle libraries
  obtain rfl : o = _ := handle
  rw [← heard.host, ← heard.registered?] at unregistered
  rw [(Attempt.opened asked unregistered (source ▸ opening)).eq_load, heard.host]
  exact ⟨rfl, libraries⟩

theorem load_of_refused (refused : (p.host.mapLibrary path).1 = none) :
    (p.load l).1 = .error (.libraryLoad path .refused) := by
  obtain ⟨q, asked, heard⟩ := asked_of_firstFile? source found
  have table := tableUnder_system q dirs path
  rw [heard.host, refused] at table
  have failed := (openLibrary_of_error table (some l)).1
  rcases opening : q.openLibrary (.system dirs) path (some l) with ⟨o, r⟩
  rw [opening] at failed
  obtain rfl : o = _ := failed
  rw [← heard.host, ← heard.registered?] at unregistered
  rw [(Attempt.notOpened asked unregistered (source ▸ opening)).eq_load]

end

/-- A loader without a handle answers as its attempt ends, which opens what it opens. -/
theorem ensureLoaded_of_none (unloaded : (p.loader l).handle = none) :
    (p.ensureLoaded l).1 =
        (match ((p.setState l .loading).load l).1 with
        | .ok a => .ok a.handle
        | .error e => .error e
        | .panic => .panic) ∧
      (p.ensureLoaded l).2.libraries = ((p.setState l .loading).load l).2.libraries := by
  have attempt := attempt_load (p.setState l .loading) l
  rcases load : (p.setState l .loading).load l with ⟨o, q⟩
  rw [load] at attempt
  cases o with
  | panic => rw [(Loads.panics unloaded attempt).eq_ensureLoaded]; exact ⟨rfl, rfl⟩
  | error e => rw [(Loads.fails unloaded attempt).eq_ensureLoaded]; exact ⟨rfl, rfl⟩
  | ok a => rw [(Loads.loads unloaded attempt).eq_ensureLoaded]; exact ⟨rfl, rfl⟩

section
variable (unloaded : (p.loader l).handle = none) (source : (p.loader l).source = .system dirs)
include unloaded source

/-- **How loading over the disk ends**, by the first candidate that is a file: there is none,
or its place is registered, or the platform's loader is asked for it. -/
theorem ensureLoaded_system :
    (p.ensureLoaded l).1 =
      match p.firstFile? dirs (p.loader l).library with
      | none => .error (.libraryNotFound (p.loader l).library
          (Search.candidates dirs (p.loader l).library))
      | some path =>
        match p.registered? (p.host.registryKey path) with
        | some h => .ok h
        | none =>
          match (p.host.mapLibrary path).1 with
          | some _ => .ok p.libraries.length
          | none => .error (.libraryLoad path .refused) := by
  have source' : ((p.setState l .loading).loader l).source = .system dirs := by
    rw [source_setState, source]
  have same := firstFile?_setState p l .loading dirs
  rw [(ensureLoaded_of_none unloaded).1]
  rcases found : p.firstFile? dirs (p.loader l).library with _ | path
  · rw [load_of_no_file source' (same.trans found), library_setState]
  rcases registered : p.registered? (p.host.registryKey path) with _ | h
  · rcases mapped : (p.host.mapLibrary path).1 with _ | image
    · rw [load_of_refused source' (same.trans found) registered mapped]
      simp only [registered, mapped]
    · rw [(load_of_mapped source' (same.trans found) registered mapped).1]
      simp only [registered, mapped]
      rfl
  · rw [load_of_registered source' (same.trans found) registered]
    simp only [registered]

/-- What the platform's loader opens is the library that is handed out. -/
theorem libraries_ensureLoaded {image : Image}
    (found : p.firstFile? dirs (p.loader l).library = some path)
    (unregistered : p.registered? (p.host.registryKey path) = none)
    (mapped : (p.host.mapLibrary path).1 = some image) :
    (p.ensureLoaded l).2.libraries = p.libraries ++ [⟨path, .mapped image, none⟩] := by
  have source' : ((p.setState l .loading).loader l).source = .system dirs := by
    rw [source_setState, source]
  have found' := (firstFile?_setState p l .loading dirs).trans found
  rw [(ensureLoaded_of_none unloaded).2, (load_of_mapped source' found' unregistered mapped).2]
  rfl

/-- The library is not found exactly if no candidate is a file. -/
theorem ensureLoaded_eq_libraryNotFound_iff {name : String} {searched : List Path} :
    (p.ensureLoaded l).1 = .error (.libraryNotFound name searched) ↔
      p.firstFile? dirs (p.loader l).library = none ∧ name = (p.loader l).library ∧
        searched = Search.candidates dirs (p.loader l).library := by
  rw [ensureLoaded_system unloaded source]
  rcases p.firstFile? dirs (p.loader l).library with _ | path
  · rw [Outcome.error.injEq, BridgeError.libraryNotFound.injEq]
    exact ⟨fun ⟨same, tried⟩ => ⟨rfl, same.symm, tried.symm⟩,
      fun ⟨_, same, tried⟩ => ⟨same.symm, tried.symm⟩⟩
  · refine iff_of_false ?_ fun h => absurd h.1 (by simp)
    dsimp only
    split
    · exact fun h => absurd h (by simp)
    · split <;> exact fun h => absurd h (by simp)

/-- A library that could not be loaded was found, and the platform's loader refused it. -/
theorem refused_of_libraryLoad {reason : OpenReason}
    (failed : (p.ensureLoaded l).1 = .error (.libraryLoad path reason)) :
    p.firstFile? dirs (p.loader l).library = some path ∧ (p.host.mapLibrary path).1 = none := by
  rw [ensureLoaded_system unloaded source] at failed
  rcases found : p.firstFile? dirs (p.loader l).library with _ | first
  · rw [found] at failed
    exact absurd failed (by simp)
  rw [found] at failed
  dsimp only at failed
  split at failed
  · exact absurd failed (by simp)
  split at failed
  · exact absurd failed (by simp)
  · rename_i refused
    obtain ⟨rfl, -⟩ : first = path ∧ _ := by simpa using failed
    exact ⟨rfl, refused⟩

end

/-! ## Loaders over configurations -/

/-- The platform's loader opens every candidate that is a file, but for the one that is the
file name alone. -/
theorem mapLibrary_of_candidate {c : Config} (valid : c.validate = .ok ())
    (opens : p.host.OpensFiles) (found : p.firstFile? dirs c.library = some path) :
    (p.host.mapLibrary path).1 =
      if path = ⟨libraryFileName c.library⟩ then none else p.host.imageAt? path := by
  have free := Config.slash_not_mem_libraryFileName valid
  obtain ⟨id, file⟩ := fileAt?_of_firstFile? found
  obtain ⟨dir, -, rfl⟩ := List.mem_map.mp (List.mem_of_find?_eq_some found)
  split
  · rename_i bare
    refine Host.mapLibrary_of_no_slash file ?_
    rwa [bare]
  · rename_i other
    have named : dir.text ≠ "" := fun empty => other (by simp [Path.join, empty])
    rw [opens _ id ((Path.mem_join_iff free dir).mpr named) file, Host.imageAt?_of_fileAt? file]

/-- **A loader over the disk loads the first candidate that is a file.**  Let a loader without
a handle be over the directories of a configuration that is accepted, looked up in any
environment, and let the platform's loader open every path with a slash that leads to a file.
The loader answers that the library was not found exactly if no candidate is a file.  If one
is, and the canonical path of the first is registered, the loader answers with the handle
registered for it; if it is not registered and the file is a library, that library is opened
and handed out, unless the candidate is the file name alone.  In this case, and if the file is
no library, the loader answers that the candidate could not be loaded; and it never answers so
otherwise.  And no candidate is the file name alone unless the empty path is configured. -/
theorem located_library_loads {c : Config} (valid : c.validate = .ok ()) (made : Process)
    (library : (p.loader l).library = c.library)
    (source : (p.loader l).source = ⟨made.systemOrigin c, none, none⟩)
    (unloaded : (p.loader l).handle = none) (opens : p.host.OpensFiles) :
    let dirs := Search.dirs made.host c.searchPaths c.systemSearchPaths
    let candidates := Search.candidates dirs c.library
    let first? := candidates.find? (p.host.files.isFile p.host.cwd)
    let bare : Path := ⟨libraryFileName c.library⟩
    (∀ name searched, (p.ensureLoaded l).1 = .error (.libraryNotFound name searched) ↔
      (∀ path ∈ candidates, p.host.files.isFile p.host.cwd path = false) ∧
        name = c.library ∧ searched = candidates) ∧
    (∀ path, first? = some path → ∃ key, p.host.files.canonical? p.host.cwd path = some key ∧
      (∀ h, p.registered? key = some h → (p.ensureLoaded l).1 = .ok h) ∧
      (p.registered? key = none → ∀ image, p.host.imageAt? path = some image → path ≠ bare →
        (p.ensureLoaded l).1 = .ok p.libraries.length ∧
        (p.ensureLoaded l).2.libraries = p.libraries ++ [⟨path, .mapped image, none⟩]) ∧
      (p.registered? key = none → (p.host.imageAt? path = none ∨ path = bare) →
        (p.ensureLoaded l).1 = .error (.libraryLoad path .refused))) ∧
    (∀ path reason, (p.ensureLoaded l).1 = .error (.libraryLoad path reason) →
      first? = some path ∧ (p.host.imageAt? path = none ∨ path = bare)) ∧
    ((∀ dir ∈ c.searchPaths, dir.text ≠ "") → (∀ dir ∈ made.host.programDir, dir.isAbsolute) →
      bare ∉ candidates) := by
  intro dirs candidates first? bare
  have first : p.firstFile? dirs (p.loader l).library = first? := by
    rw [library]
    rfl
  have mapped : ∀ path, first? = some path → (p.host.mapLibrary path).1 =
      if path = bare then none else p.host.imageAt? path :=
    fun path found => mapLibrary_of_candidate valid opens found
  have answer := ensureLoaded_system unloaded source
  rw [first, library] at answer
  refine ⟨?_, ?_, ?_, ?_⟩
  · intro name searched
    rw [ensureLoaded_eq_libraryNotFound_iff unloaded source, library]
    exact and_congr_left' firstFile?_eq_none
  · intro path found
    refine ⟨_, canonical?_of_firstFile? found, ?_, ?_, ?_⟩
    · intro h registered
      rw [answer, found]
      simp only [registered]
    · intro unregistered image here other
      have opened : (p.host.mapLibrary path).1 = some image := by
        rw [mapped path found, if_neg other, here]
      refine ⟨?_, libraries_ensureLoaded unloaded source (first.trans found) unregistered opened⟩
      rw [answer, found]
      simp only [unregistered, opened]
    · intro unregistered lost
      have refused : (p.host.mapLibrary path).1 = none := by
        rw [mapped path found]
        rcases lost with none | bare
        · rw [none, ite_self]
        · rw [if_pos bare]
      rw [answer, found]
      simp only [unregistered, refused]
  · intro path reason failed
    obtain ⟨found, refused⟩ := refused_of_libraryLoad unloaded source failed
    rw [mapped path (first.symm.trans found)] at refused
    refine ⟨first.symm.trans found, ?_⟩
    split at refused
    · rename_i bare
      exact Or.inr bare
    · exact Or.inl refused
  · intro configured located
    exact Search.bare_not_mem_candidates (Config.slash_not_mem_libraryFileName valid) located
      configured

/-- A working directory with a library in it, and with another in a directory below, which has
been mapped before. -/
def located.host : Host where
  files := ⟨[(["w"], .directory), (["w", "libx.so"], .file 0), (["w", "lib"], .directory),
    (["w", "lib", "libx.so"], .file 1)], [.library .lengthLibrary, .library .program]⟩
  cwd := ["w"]
  libraryPath := none
  programDir := none
  mapped := [⟨1, .program, ["/w/lib/libx.so"]⟩]

/-- A configuration with directories to search. -/
def located.config (dirs : List Path) : Config := ⟨"x", "f", dirs, false⟩

/-- A process with a loader over these directories. -/
def located.process (dirs : List Path) : Process :=
  let p := Process.start located.host
  (p.newLoader "x" ⟨p.systemOrigin (config dirs), none, none⟩).2

theorem located.opensFiles : located.host.OpensFiles := by
  refine Host.Current.opensFiles ⟨fun m mem name asked id found => ?_, fun m mem => ?_⟩
  · obtain rfl := List.mem_singleton.mp mem
    obtain rfl := List.mem_singleton.mp asked
    have here : located.host.files.fileAt? located.host.cwd ⟨"/w/lib/libx.so"⟩ = some 1 := by
      decide +kernel
    exact Option.some.inj (here.symm.trans found)
  · obtain rfl := List.mem_singleton.mp mem
    rfl

/-- Behind a directory that is not there the one below the working directory is searched, and
its library is loaded. -/
theorem located_library_loads_below :
    let p := located.process [⟨"missing"⟩, ⟨"lib"⟩]
    (p.ensureLoaded 0).1 = .ok 0 ∧
      (p.ensureLoaded 0).2.libraries = [⟨⟨"lib/libx.so"⟩, .mapped .program, none⟩] := by
  intro p
  have loads := (located_library_loads (p := p) (l := 0)
    (c := located.config [⟨"missing"⟩, ⟨"lib"⟩]) rfl (.start located.host) rfl rfl rfl
    located.opensFiles).2.1
  obtain ⟨key, canonical, -, opened, -⟩ := loads ⟨"lib/libx.so"⟩ (by decide +kernel)
  obtain rfl : (⟨"/w/lib/libx.so"⟩ : Path) = key :=
    Option.some.inj ((by decide +kernel : _ = some _).symm.trans canonical)
  exact opened rfl .program (by decide +kernel) (by decide)

/-- **A library of the working directory is found and not loaded** where the empty path is
configured, though the configuration is accepted and the platform's loader opens every path
with a slash. -/
theorem located_not_opened :
    let c := located.config [⟨""⟩]
    let p := located.process [⟨""⟩]
    c.validate = .ok () ∧ p.host.OpensFiles ∧
      p.firstFile? (Search.dirs p.host c.searchPaths c.systemSearchPaths) c.library =
        some ⟨"libx.so"⟩ ∧
      p.host.imageAt? ⟨"libx.so"⟩ = some .lengthLibrary ∧ p.registry = [] ∧
      (p.ensureLoaded 0).1 = .error (.libraryLoad ⟨"libx.so"⟩ .refused) := by
  refine ⟨rfl, located.opensFiles, ?_, ?_, rfl, ?_⟩ <;> decide +kernel

end Process
end Linkage
