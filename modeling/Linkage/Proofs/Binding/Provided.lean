import Linkage.Proofs.Binding.Descriptor
import Linkage.Proofs.Bridge.Stages
import Linkage.Proofs.Pool.Origins

/-!
# What is bound is what the library gives

A bound function was looked up once and is called ever after.  The library itself does not
change: it keeps the functions it was opened with, and only a watch can make a lookup in it
come out otherwise.  So as long as no watch interferes, a lookup that is made later finds
what was found at the binding.

`Provided watch p r` says this of a bound function, for libraries that were opened under one
watch, and `Remembers watch p` says it of all bridges.  It is kept by requests and calls
(`Remembers.call`) and by every run of threads (`Pool.Run.remembers`).
-/

namespace Linkage

/-- A library gives what is bound: its functions hold the function under the name, and no
descriptor that reads as another signature. -/
def Library.Gives (lib : Library) (name : String) (f : Function) : Prop :=
  lib.table.find? name = some f ∧ ∀ g, lib.table.find? (name ++ Signature.suffix) = some g →
    Signature.parse? (descriptorText g) = some .callable

namespace Process

variable {p q : Process} {watch : Option WatchId} {h : Handle} {b : BridgeId}
  {r : SymbolReference}

/-- What is bound is given by the library it comes from, if this was opened under the watch. -/
def Provided (watch : Option WatchId) (p : Process) (r : SymbolReference) : Prop :=
  ∃ lib, p.libraries[r.handle]? = some lib ∧
    (lib.watch = watch → lib.Gives r.name r.function)

/-- Opened libraries stay what they are. -/
theorem Provided.extends (provided : Provided watch p r) (libraries : p.libraries <+: q.libraries) :
    Provided watch q r := by
  obtain ⟨lib, opened, gives⟩ := provided
  exact ⟨lib, opened_of_extends libraries opened, gives⟩

/-- What is looked up is found in an opened library. -/
theorem opened_of_resolve {name : String} {declared : Signature}
    (resolved : p.resolve h name declared = (.ok r, q)) : ∃ lib, p.libraries[h]? = some lib := by
  rcases opened : p.libraries[h]? with _ | lib
  · simp [Process.resolve, Process.findSymbol, opened] at resolved
  · exact ⟨lib, rfl⟩

/-- A lookup that succeeds while lookups pass gives what the library gives. -/
theorem provided_of_resolve {name : String} {declared : Signature} (passing : Passing watch p)
    (resolved : p.resolve h name declared = (.ok r, q)) : Provided watch p r := by
  obtain ⟨rfl, rfl, rfl, callable⟩ := resolve_ok resolved
  obtain ⟨lib, opened⟩ := opened_of_resolve resolved
  refine ⟨lib, opened, ?_⟩
  rintro rfl
  have answering : p.Answering r.handle lib := ⟨opened, passing⟩
  obtain ⟨found, -, described⟩ := (answering.resolve r.name r.signature).mp
    (congrArg Prod.fst resolved)
  exact ⟨found, callable ▸ described⟩

theorem provided_of_bind (passing : Passing watch p) (bound : p.bind b h = (.ok r, q)) :
    Provided watch p r := by
  unfold Process.bind at bound
  split at bound <;> rename_i resolved
  · exact absurd bound (by simp)
  · exact absurd bound (by simp)
  · obtain rfl := Outcome.ok.inj (Prod.mk.inj bound).1
    exact provided_of_resolve passing resolved

/-- **What is bound is found again.** -/
theorem Provided.resolve {lib : Library} (provided : Provided lib.watch p r)
    (opened : p.libraries[r.handle]? = some lib) (signature : r.signature = .callable)
    (passing : Passing lib.watch p) : (p.resolve r.handle r.name .callable).1 = .ok r := by
  obtain ⟨lib', opened', gives⟩ := provided
  obtain rfl := Option.some.inj (opened.symm.trans opened')
  obtain ⟨found, described⟩ := gives rfl
  have answering : p.Answering r.handle lib := ⟨opened, passing⟩
  have again := (answering.resolve r.name .callable).mpr ⟨found, rfl, described⟩
  rwa [← signature] at again ⊢

/-! ## All bridges -/

/-- What the bridges have bound is given by the libraries opened under the watch. -/
def Remembers (watch : Option WatchId) (p : Process) : Prop :=
  ∀ b r, (p.bridge b).bound = some r → Provided watch p r

/-- Bridges that bind nothing new. -/
theorem Remembers.extends (h : Remembers watch p) (libraries : p.libraries <+: q.libraries)
    (bound : ∀ b r, (q.bridge b).bound = some r → (p.bridge b).bound = some r) :
    Remembers watch q :=
  fun b r hr => (h b r (bound b r hr)).extends libraries

theorem Remembers.of_eq (h : Remembers watch p) (libraries : p.libraries <+: q.libraries)
    (bridges : q.bridges = p.bridges) : Remembers watch q :=
  h.extends libraries fun b r hr => by rwa [bridge, bridges, ← bridge] at hr

theorem Remembers.heard (h : Remembers watch p) (heard : Heard p q) : Remembers watch q :=
  h.of_eq (heard.libraries ▸ List.prefix_refl _) heard.bridges

/-- Storing what the library gives. -/
theorem Remembers.storeSymbol (h : Remembers watch p) (provided : Provided watch p r) :
    Remembers watch (p.storeSymbol b r) := by
  intro c f hf
  rw [bound_storeSymbol] at hf
  suffices old : (p.bridge c).bound = some f ∨ f = r by
    rcases old with old | rfl
    · exact h c f old
    · exact provided
  split at hf
  · rcases old : (p.bridge c).bound with _ | g
    · rw [old, Option.none_or] at hf
      exact Or.inr (Option.some.inj hf).symm
    · rw [old, Option.some_or] at hf
      exact Or.inl hf
  · exact Or.inl hf

/-! ## Requests and calls -/

theorem Remembers.ensureLoaded (h : Remembers watch p) (l : LoaderId) :
    Remembers watch (p.ensureLoaded l).2 :=
  h.of_eq (stays_ensureLoaded p l).libraries (bridges_ensureLoaded p l)

theorem Remembers.binds {o : Outcome SymbolReference} (remembers : Remembers watch p)
    (passing : Passing watch p) (binds : Binds p b h o q) : Remembers watch q := by
  have heard := heard_resolve p h (p.bridge b).symbol .callable
  cases binds with
  | cached => exact remembers
  | panics _ resolved =>
    rw [resolved] at heard
    exact remembers.heard heard
  | fails _ resolved =>
    rw [resolved] at heard
    exact (remembers.heard heard).heard (heard_note ..)
  | binds _ resolved =>
    have provided := provided_of_resolve passing resolved
    rw [resolved] at heard
    refine ((remembers.heard heard).heard (heard_note ..)).storeSymbol ?_
    exact provided.extends (heard.libraries ▸ List.prefix_refl _)

/-- **A call keeps what the bridges have bound given by their libraries.** -/
theorem Remembers.call (remembers : Remembers watch p) (passing : Passing watch p)
    (bounds : BridgesBound p) (b : BridgeId) (text : String) :
    Remembers watch (p.call b text).2 := by
  have loaded := remembers.ensureLoaded (p.bridge b).loader
  have passes := passing.dwindles (dwindles_ensureLoaded p (p.bridge b).loader)
  have calls : Calls p b text (p.call b text).1 (p.call b text).2 := (call_iff_calls bounds).mp rfl
  generalize (p.call b text).1 = o, (p.call b text).2 = q at calls ⊢
  cases calls with
  | loadPanics load | notLoaded load => rwa [load.eq_ensureLoaded] at loaded
  | bindPanics load bind | notBound load bind =>
    rw [load.eq_ensureLoaded] at loaded passes
    exact loaded.binds passes bind
  | called load bind answer =>
    rw [load.eq_ensureLoaded] at loaded passes
    exact (loaded.binds passes bind).heard answer.heard

end Process
end Linkage
