import Linkage.Text.Split

/-!
# Paths

A path is kept as it was first written, and compared by its components: repeated
slashes, a slash at the end and a dot anywhere but in first place make no
difference, while `..` stays what it is, since what it leads to depends on links.

A path leads somewhere by *steps*.  The steps are the written segments, except
that a slash at the end is one more step to stay where one is, which only a
directory allows.
-/

namespace Linkage

/-- A path, as written. -/
structure Path where
  text : String
  deriving DecidableEq, Repr

namespace Path

/-- A component of a path: the root, a leading dot, a step up, or a name. -/
inductive Component where
  | root
  | here
  | up
  | named (name : String)
  deriving DecidableEq, Repr

/-- The segments of a path between its slashes. -/
def segments (p : Path) : List (List Char) := Text.splitOn '/' p.text.toList

/-- Whether a path starts at the root. -/
def isAbsolute (p : Path) : Bool := p.text.toList.head? = some '/'

/-- The component that a segment behind the first place stands for. -/
def component? (segment : List Char) : Option Component :=
  if segment = [] ∨ segment = ['.'] then none
  else if segment = ['.', '.'] then some .up
  else some (.named (String.ofList segment))

/-- The components of a path. -/
def components (p : Path) : List Component :=
  match p.segments with
  | [] => []
  | first :: rest =>
    let lead :=
      if p.isAbsolute then [Component.root]
      else if first = ['.'] then [.here]
      else (component? first).toList
    lead ++ rest.filterMap component?

/-- Whether two paths have the same components. -/
def same (p q : Path) : Bool := p.components = q.components

/-- A path with a file name put behind it. -/
def join (dir : Path) (name : String) : Path :=
  if dir.text.isEmpty then ⟨name⟩
  else if dir.text.toList.getLast? = some '/' then ⟨dir.text ++ name⟩
  else ⟨dir.text ++ "/" ++ name⟩

/-- The written segments without those at the end that make no difference. -/
def trimmedSegments (p : Path) : List (List Char) :=
  match p.segments with
  | [] => []
  | first :: rest =>
    first :: (rest.reverse.dropWhile fun s => s = [] ∨ s = ['.']).reverse

/-- The last component of a path, if it is a name. -/
def fileName? (p : Path) : Option String :=
  match p.components.getLast? with
  | some (.named name) => some name
  | _ => none

/-- The path without its last component. -/
def parent? (p : Path) : Option Path :=
  match p.components.getLast? with
  | none | some .root => none
  | some _ =>
    let kept := (Path.mk (String.ofList (['/'].intercalate p.trimmedSegments.dropLast))).trimmedSegments
    if p.isAbsolute ∧ kept.length ≤ 1 then some ⟨"/"⟩
    else some ⟨String.ofList (['/'].intercalate kept)⟩

/-- The steps of a path: its segments that are not empty, and a last one to stay
in place for a slash at the end. -/
def steps (p : Path) : List String :=
  let written := (p.segments.filter (· ≠ [])).map String.ofList
  if p.text.toList.getLast? = some '/' then written ++ ["."] else written

@[simp] theorem same_refl (p : Path) : p.same p = true := by simp [same]

theorem same_iff {p q : Path} : p.same q = true ↔ p.components = q.components := by
  simp [same]

end Path

/-- The file name of a library with the given base name. -/
def libraryFileName (library : String) : String := "lib" ++ library ++ ".so"

end Linkage
