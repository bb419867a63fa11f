import Linkage.Proofs.Binding.Descriptor
import Linkage.Config

/-!
# The same functions in the program and in a file

Functions that are linked into the program are found under their exact names.  In a library
from the disk a name is found as the platform gets to see it: not if it is empty or has a zero
character inside, and without the zero character at its end if it has one there.  So the two
differ on some names even if they hold the same functions (`Image.Exports`).

They do not differ on the symbol of a configuration that is accepted.  It is an identifier of C,
so neither it nor the name of its descriptor is a name of that kind
(`Image.find?_of_isIdentifier`).
-/

namespace Linkage

/-! ## Identifiers -/

namespace Config

theorem ne_empty_of_isIdentifier {name : String} (h : isIdentifier name) : name ≠ "" := by
  rintro rfl
  exact absurd h (by simp [isIdentifier])

/-- No zero character is in an identifier of C. -/
theorem zero_not_mem_of_isIdentifier {name : String} (h : isIdentifier name) :
    '\x00' ∉ name.toList := by
  rw [isIdentifier] at h
  generalize name.toList = chars at h ⊢
  rcases chars with _ | ⟨first, rest⟩
  · exact List.not_mem_nil
  obtain ⟨starts, continues⟩ : startsIdentifier first = true ∧
      ∀ x ∈ rest, continuesIdentifier x = true := by simpa using h
  intro zero
  rcases List.mem_cons.mp zero with rfl | inside
  · exact absurd starts (by decide)
  · exact absurd (continues _ inside) (by decide)

end Config

/-! ## Exports -/

namespace Image

variable {image : Image} {symbols : Named Function} {name : String}

/-- A library on the disk exports the functions that a table holds: they have the same function,
or none, under every name that a library can export. -/
def Exports (image : Image) (symbols : Named Function) : Prop :=
  ∀ e : String, e ≠ "" → '\x00' ∉ e.toList → image.export? e = symbols.get? e

/-- The library on the disk with the functions of a table. -/
def ofSymbols (symbols : Named Function) : Image := ⟨symbols.map fun e => (e.1, some e.2)⟩

theorem exports_ofSymbols (symbols : Named Function) : (ofSymbols symbols).Exports symbols := by
  intro e _ _
  rw [export?, ofSymbols, Named.get?, List.find?_map]
  simp only [Function.comp_def, Option.map_map]
  cases symbols.find? fun x => x.1 = e <;> rfl

/-- A name without a zero character is looked up as it is. -/
theorem find?_eq_get? (exports : image.Exports symbols) (named : name ≠ "")
    (free : '\x00' ∉ name.toList) : image.find? name = symbols.get? name := by
  have seen : Text.platformName? name = some name.toList :=
    Text.platformName?_eq_some.mpr ⟨free, Or.inl rfl⟩
  rw [find?_eq_export? seen named, exports name named free]

/-- **An identifier is found in both or in neither**, and so is the name of its descriptor. -/
theorem find?_of_isIdentifier (exports : image.Exports symbols)
    (identifier : Config.isIdentifier name) : image.find? name = symbols.get? name ∧
      image.find? (name ++ Signature.suffix) = symbols.get? (name ++ Signature.suffix) := by
  have free := Config.zero_not_mem_of_isIdentifier identifier
  refine ⟨find?_eq_get? exports (Config.ne_empty_of_isIdentifier identifier) free,
    find?_eq_get? exports ?_ ?_⟩
  · simp [Signature.suffix]
  · simpa [Signature.suffix] using free

end Image
end Linkage
