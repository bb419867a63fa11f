import Linkage.Proofs.Binding.Descriptor

/-!
# Which file the platform's loader opens

The platform's loader is asked by a path, but what it opens is not always what the path leads
to.  A path without a slash is no path to it.  And a path that it was asked for before, or a
file that it has mapped before, gives what was mapped then, though the disk may have changed
meanwhile.

`Host.OpensFiles` sets the second aside: every path with a slash that leads to a file opens
this file.  It holds as long as what has been mapped is there still, under every name that it
was asked for by (`Host.Current`, `Host.Current.opensFiles`).
-/

namespace Linkage

namespace FileSystem

variable {fs : FileSystem} {cwd : Place} {path : Path} {id : FileId}

/-- A path that leads anywhere has a text, and no zero character in it. -/
theorem text_of_fileAt? (h : fs.fileAt? cwd path = some id) :
    path.text ≠ "" ∧ '\x00' ∉ path.text.toList := by
  have arrives : ∀ fault, fs.follow true cwd path ≠ .error fault := by
    intro fault failed
    rw [fileAt?, resolve, failed] at h
    exact absurd h (by simp)
  constructor
  · intro empty
    exact arrives .notFound (by simp [follow, empty])
  · intro zero
    exact arrives .zeroInName (by simp [follow, zero])

end FileSystem

namespace Host

variable {host : Host} {path : Path} {id : FileId}

/-- The loadable library that a path leads to. -/
def imageAt? (host : Host) (path : Path) : Option Image :=
  (host.files.fileAt? host.cwd path).bind host.imageOf?

theorem imageAt?_of_fileAt? (found : host.files.fileAt? host.cwd path = some id) :
    host.imageAt? path = host.imageOf? id := by
  rw [imageAt?, found, Option.bind_some]

/-- The platform's loader opens, under every path with a slash that leads to a file, this
file. -/
def OpensFiles (host : Host) : Prop :=
  ∀ path id, '/' ∈ path.text.toList → host.files.fileAt? host.cwd path = some id →
    (host.mapLibrary path).1 = host.imageOf? id

/-- The platform's loader gets to see a path that leads to a file as it is. -/
theorem mapLibrary_of_fileAt? (found : host.files.fileAt? host.cwd path = some id) :
    host.mapLibrary path = host.mapNamed path := by
  obtain ⟨-, free⟩ := FileSystem.text_of_fileAt? found
  have seen : Text.platformName? path.text = some path.text.toList :=
    Text.platformName?_eq_some.mpr ⟨free, Or.inl rfl⟩
  rw [mapLibrary, seen]
  simp only [String.ofList_toList]

/-- **Under a path without a slash no file is opened**, wherever the path leads. -/
theorem mapLibrary_of_no_slash (found : host.files.fileAt? host.cwd path = some id)
    (bare : '/' ∉ path.text.toList) : (host.mapLibrary path).1 = none := by
  obtain ⟨named, -⟩ := FileSystem.text_of_fileAt? found
  rw [mapLibrary_of_fileAt? found, mapNamed]
  simp [named, bare]

/-- What the platform's loader has mapped is there still: its names lead nowhere else, and it
holds what it held. -/
structure Current (host : Host) : Prop where
  names : ∀ m ∈ host.mapped, ∀ name ∈ m.names, ∀ id,
    host.files.fileAt? host.cwd ⟨name⟩ = some id → m.file = id
  images : ∀ m ∈ host.mapped, host.imageOf? m.file = some m.image

/-- A file is mapped as it is, whether it was mapped before or not. -/
theorem Current.mapFile (current : host.Current)
    (found : host.files.fileAt? host.cwd path = some id) :
    (host.mapFile path).1 = host.imageOf? id := by
  fun_cases Host.mapFile host path with
  | case1 none => exact absurd (found.symm.trans none) (by simp)
  | case2 id' found' index hindex =>
    obtain rfl := Option.some.inj (found.symm.trans found')
    obtain ⟨lt, here⟩ := List.findIdx?_eq_some_iff_findIdx_eq.mp hindex
    obtain ⟨same, -⟩ := (List.findIdx_eq lt).mp here
    have image := current.images _ (List.getElem_mem lt)
    rw [of_decide_eq_true same] at image
    simp [List.getElem?_eq_getElem lt, image]
  | case3 id' found' _ none =>
    obtain rfl := Option.some.inj (found.symm.trans found')
    exact none.symm
  | case4 id' found' _ image himage =>
    obtain rfl := Option.some.inj (found.symm.trans found')
    exact himage.symm

/-- **Where what was mapped is there still, a path with a slash opens the file that it leads
to.** -/
theorem Current.opensFiles (current : host.Current) : host.OpensFiles := by
  intro path id slash found
  obtain ⟨named, -⟩ := FileSystem.text_of_fileAt? found
  have searched : path.text.toList.contains '/' = true := by simpa using slash
  rw [mapLibrary_of_fileAt? found, mapNamed]
  simp only [String.isEmpty_iff, named, searched, if_false, Bool.not_true, Bool.false_eq_true]
  split
  · rename_i m asked
    have mem := List.mem_of_find?_eq_some asked
    have name : path.text ∈ m.names := by simpa using List.find?_some asked
    rw [← current.names m mem _ name id found, current.images m mem]
  · exact current.mapFile found

end Host
end Linkage
