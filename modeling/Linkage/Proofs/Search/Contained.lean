import Linkage.Proofs.Binding.Exports
import Linkage.Proofs.Search.Locating

/-!
# Names that stay where they are looked for

A configuration that is accepted names a library without separators and a function by an
identifier of C.  Both are then put into longer names: the library into the name of a file in
every directory of the search, the function into the name of its descriptor.

What was checked of the short names holds of the long ones.  The file is directly in its
directory, by the components of its path (`Path.exists_parent?_join`) and on every disk
(`FileSystem.place_of_follow_join`), and the two names that are looked up in the library are
found under themselves only (`Image.find?_of_free`).  `accepted_names_stay` says all of
this of a configuration.
-/

namespace Linkage

variable {c c' : Config} {library library' : String}

theorem libraryFileName_injective (same : libraryFileName library = libraryFileName library') :
    library = library' := by
  simpa [libraryFileName, ← String.toList_inj] using same

/-- The files of two libraries in one directory are different paths. -/
theorem same_join_libraryFileName (valid : c.validate = .ok ()) (valid' : c'.validate = .ok ())
    (dir : Path) : (dir.join (libraryFileName c.library)).same
      (dir.join (libraryFileName c'.library)) ↔ c.library = c'.library := by
  constructor
  · intro same
    have names := congrArg List.getLast? (Path.same_iff.mp same)
    have file := fun {c : Config} (valid : c.validate = .ok ()) =>
      Path.fileName?_join (plain_libraryFileName c.library)
        (Config.slash_not_mem_libraryFileName valid) dir
    have equal : some (libraryFileName c.library) = some (libraryFileName c'.library) := by
      rw [← file valid, ← file valid', Path.fileName?, names, ← Path.fileName?]
    exact libraryFileName_injective (Option.some.inj equal)
  · intro same
    rw [same]
    exact Path.same_refl _

namespace Image

variable {image : Image} {name : String} {f : Function}

theorem mem_exports_of_export? (h : image.export? name = some f) :
    (name, some f) ∈ image.exports := by
  rw [export?] at h
  rcases found : image.exports.find? fun x => x.1 = name with _ | ⟨e, exported⟩
  · rw [found] at h
    exact absurd h (by simp)
  · obtain rfl : e = name := by simpa using List.find?_some found
    rw [found] at h
    obtain rfl : exported = some f := by simpa using h
    exact List.mem_of_find?_eq_some found

/-- A name without zero characters is found under itself only. -/
theorem find?_of_free (named : name ≠ "") (free : '\x00' ∉ name.toList) (image : Image) :
    image.find? name = image.export? name :=
  find?_eq_export? (Text.platformName?_eq_some.mpr ⟨free, Or.inl rfl⟩) named

end Image

namespace Config

/-- **The names of an accepted configuration stay where they are looked for.**  In every
directory of a search the file of the library is the candidate.  It has exactly this file name
and, by components, the directory as its parent; on every disk it is directly below the place of
the directory; and no other library that may be configured has a candidate that is the same.  The
symbol and the name of its descriptor are different, not empty and without a zero character, and
in every library on the disk each is found only if it is exported under exactly that name. -/
theorem accepted_names_stay (c : Config) (valid : c.validate = .ok ()) (host : Host) :
    let file := "lib" ++ c.library ++ ".so"
    let dirs := Search.dirs host c.searchPaths c.systemSearchPaths
    Search.candidates dirs c.library = dirs.map (·.join file) ∧
    (∀ dir : Path,
      (dir.join file).fileName? = some file ∧
      (∃ above, (dir.join file).parent? = some above ∧ above.same dir) ∧
      (∀ (fs : FileSystem) cwd place, fs.DirectoryAt cwd dir place →
        ∀ arrival, fs.follow false cwd (dir.join file) = .ok arrival →
          arrival.place = place ++ [file]) ∧
      (∀ other : Config, other.validate = .ok () → other.library ≠ c.library →
        (dir.join ("lib" ++ other.library ++ ".so")).same (dir.join file) = false)) ∧
    c.symbol ≠ c.symbol ++ Signature.suffix ∧
    (∀ name ∈ [c.symbol, c.symbol ++ Signature.suffix], name ≠ "" ∧ '\x00' ∉ name.toList ∧
      ∀ image : Image, image.find? name = image.export? name ∧
        ∀ f, image.find? name = some f → (name, some f) ∈ image.exports) := by
  intro file dirs
  have plain := plain_libraryFileName c.library
  have free := slash_not_mem_libraryFileName valid
  obtain ⟨-, -, identifier⟩ := validate_eq_ok.mp valid
  have zero := zero_not_mem_of_isIdentifier identifier
  refine ⟨rfl, fun dir => ⟨Path.fileName?_join plain free dir,
    Path.exists_parent?_join plain free dir, ?_, ?_⟩, ?_, ?_⟩
  · intro fs cwd place located arrival followed
    exact FileSystem.place_of_follow_join plain free located followed
  · intro other valid' different
    rw [Bool.eq_false_iff]
    exact fun same => different ((same_join_libraryFileName valid' valid dir).mp same)
  · intro same
    have lengths := congrArg String.length same
    simp [Signature.suffix] at lengths
  · have named : ∀ name ∈ [c.symbol, c.symbol ++ Signature.suffix],
        name ≠ "" ∧ '\x00' ∉ name.toList := by
      refine List.forall_mem_cons.mpr ⟨⟨ne_empty_of_isIdentifier identifier, zero⟩,
        List.forall_mem_singleton.mpr ⟨?_, ?_⟩⟩
      · simp [Signature.suffix]
      · simpa [Signature.suffix] using zero
    intro name mem
    obtain ⟨nonempty, free⟩ := named name mem
    refine ⟨nonempty, free, fun image => ?_⟩
    have exact_name := Image.find?_of_free nonempty free image
    exact ⟨exact_name, fun f found => Image.mem_exports_of_export? (exact_name ▸ found)⟩

/-- A library with dots and a character beyond ASCII in its name is a file in its directory. -/
theorem accepted_names_stay_dotted :
    let c : Config := ⟨"..é.", "measure_1", [⟨"/opt//lib/."⟩], false⟩
    c.validate = .ok () ∧
      ((Path.mk "/opt//lib/.").join "lib..é..so").fileName? = some "lib..é..so" ∧
      Image.lengthLibrary.find? "measure_1" = none := by
  intro c
  have valid : c.validate = .ok () := by decide +kernel
  have stay := accepted_names_stay c valid ⟨.empty, [], none, none, []⟩
  refine ⟨valid, (stay.2.1 ⟨"/opt//lib/."⟩).1, ?_⟩
  rw [((stay.2.2.2 c.symbol (by simp)).2.2 .lengthLibrary).1]
  decide +kernel

end Config
end Linkage
