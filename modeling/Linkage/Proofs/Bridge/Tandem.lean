import Linkage.Proofs.Loading.Attempt
import Linkage.Proofs.Process.Tandem

/-!
# Loading, binding and calling in two processes

A request for the handle of a loader, and what a bridge does with it, keeps to a footprint: the
source of the loader, the place at which this has the library, and the library that the loader
comes to have.  So it comes out alike in a process and in one that mirrors it there
(`Mirrors.ensureLoaded`, `Mirrors.call`), whatever other loaders and bridges have done.
-/

namespace Linkage

/-- A load, its library under another number. -/
def Load.rename (ρ : Handle → Handle) (a : Load) : Load := { a with handle := ρ a.handle }

namespace Process

variable {F : Footprint} {n d : Nat} {p q p' q' : Process}

/-! ## Loading -/

theorem load_eq (p : Process) (l : LoaderId) : p.load l =
    andThen (p.locate (p.loader l).source (p.loader l).library (some l)) fun path q =>
      match q.registered? (q.host.registryKey path) with
      | some h => (.ok ⟨path, q.host.registryKey path, h, false⟩, q.note (.reusing path))
      | none => andThen (q.openLibrary (p.loader l).source path (some l)) fun h r =>
          (.ok ⟨path, q.host.registryKey path, h, true⟩,
            r.register (q.host.registryKey path) h) := by
  rw [load]
  rcases p.locate (p.loader l).source (p.loader l).library (some l) with ⟨path | e | _, q⟩
  · dsimp only [andThen]
    cases q.registered? (q.host.registryKey path) with
    | some h => rfl
    | none =>
      dsimp only
      rcases q.openLibrary (p.loader l).source path (some l) with ⟨_ | _ | _, r⟩ <;> rfl
  · rfl
  · rfl

/-- Where a source has a library does not depend on the state of the loader that asks. -/
theorem locate_setState (p : Process) (l : LoaderId) (state : LoadState) (s : Source)
    (library : String) (owner : Option LoaderId) :
    ((p.setState l state).locate s library owner).1 = (p.locate s library owner).1 := by
  rw [(locate_spec (p.setState l state) s library owner).1, (locate_spec p s library owner).1]
  exact locateUnder_congr (p := p) (q := p.setState l state) rfl rfl ..

/-- A footprint has what a request for the handle of its loader touches: the source, and the
place at which this has the library, if the loader has no handle yet. -/
structure Covers (F : Footprint) (p : Process) : Prop where
  source : (p.loader F.loader).source.watch = F.source
  key : (p.loader F.loader).handle = none →
    ∀ path, (p.locate (p.loader F.loader).source (p.loader F.loader).library
      (some F.loader)).1 = .ok path → F.key = some (p.host.registryKey path)

/-- A footprint has the watch on the library that its loader comes to have. -/
def Reads (F : Footprint) (p : Process) : Prop :=
  ∀ h p', p.ensureLoaded F.loader = (.ok h, p') →
    ∀ lib, p'.libraries[h]? = some lib → lib.watch = F.library

namespace Mirrors

/-- An attempt to load comes out alike in both, if its source and the place that this has the
library at are in the footprint. -/
theorem load (m : Mirrors F n d p q) (source : (p.loader F.loader).source.watch = F.source)
    (key : ∀ path, (p.locate (p.loader F.loader).source (p.loader F.loader).library
      (some F.loader)).1 = .ok path → F.key = some (p.host.registryKey path)) :
    Tandem F n d (Load.rename (shifted n d)) p q (p.load F.loader) (q.load F.loader) := by
  have loader := m.loader_eq
  have same : (q.loader F.loader).source = (p.loader F.loader).source := by rw [loader]; rfl
  have library : (q.loader F.loader).library = (p.loader F.loader).library := by rw [loader]; rfl
  rw [load_eq, load_eq, same, library]
  refine (m.locate source _).andThen fun path p' q' located along => ?_
  have m' := m.along along
  have here : F.key = some (p'.host.registryKey path) := by
    rw [host_of_located located]
    exact key path (congrArg Prod.fst located)
  dsimp only [id]
  rw [m'.registryKey, m'.registered _ here]
  cases p'.registered? (p'.host.registryKey path) with
  | some h => exact .done (along_note _) (.ok ⟨path, _, h, false⟩) (Load.rename (shifted n d))
  | none =>
    refine (m'.openLibrary source path).andThen fun h p'' q'' _ _ => ?_
    have within : (Edit.register (p'.host.registryKey path) h).Within F := here
    exact ⟨rfl, .edit within⟩

theorem along_setState (s : LoadState) :
    Along F n d p q (p.setState F.loader s) (q.setState F.loader s) := by
  have within : (Edit.state F.loader s).Within F := rfl
  exact .edit within

theorem finishFailed (m : Mirrors F n d p q) (e : BridgeError) (f : Handle → Handle) :
    Tandem F n d f p q (p.finishFailed F.loader e) (q.finishFailed F.loader e) := by
  have library : (q.loader F.loader).library = (p.loader F.loader).library := by
    rw [m.loader_eq]
    rfl
  refine ⟨rfl, (along_setState .failed).trans ?_⟩
  show Along F n d _ _ (note _ _) (note _ _)
  rw [library]
  exact along_note _

/-- A loader keeps the handle of its attempt in both. -/
theorem finishLoaded (m : Mirrors F n d p q) (a : Load) :
    Tandem F n d (shifted n d) p q (p.finishLoaded F.loader a)
      (q.finishLoaded F.loader (a.rename (shifted n d))) := by
  have within : (Edit.handle F.loader a.handle).Within F := rfl
  have stored : Along F n d p q (p.storeHandle F.loader a.handle)
    (q.storeHandle F.loader (shifted n d a.handle)) := .edit within
  have m' := m.along stored
  unfold Process.finishLoaded
  extract_lets p₁ h q₁ h'
  have loader : q₁.loader F.loader = (p₁.loader F.loader).rename (shifted n d) := m'.loader_eq
  have handle : h' = shifted n d h := by
    show (q₁.loader F.loader).handle.getD (shifted n d a.handle) =
      shifted n d ((p₁.loader F.loader).handle.getD a.handle)
    rw [loader, Loader.rename]
    cases (p₁.loader F.loader).handle <;> rfl
  have path : q₁.pathOf h' = p₁.pathOf h := by
    rw [handle]
    exact m'.pathOf h
  have library : (q₁.loader F.loader).library = (p₁.loader F.loader).library := by
    rw [loader]
    rfl
  refine ⟨congrArg Outcome.ok handle, stored.trans ((along_setState .loaded).trans ?_)⟩
  rw [library, path]
  exact along_note _

/-- **A request for a handle comes out alike in both.** -/
theorem ensureLoaded (m : Mirrors F n d p q) (covers : Covers F p) :
    Tandem F n d (shifted n d) p q (p.ensureLoaded F.loader) (q.ensureLoaded F.loader) := by
  have handle : (q.loader F.loader).handle = (p.loader F.loader).handle.map (shifted n d) := by
    rw [m.loader_eq]
    rfl
  rw [Process.ensureLoaded, Process.ensureLoaded, handle]
  cases none : (p.loader F.loader).handle with
  | some h => exact .done (.refl ..) _ _
  | none =>
    have begun : Along F n d p q (p.setState F.loader .loading) (q.setState F.loader .loading) :=
      along_setState .loading
    have m' := m.along begun
    have tried := m'.load (by rw [source_setState, covers.source]) fun path located => by
      rw [source_setState, library_setState, locate_setState] at located
      exact covers.key none path located
    rcases hp : (p.setState F.loader .loading).load F.loader with ⟨o, p'⟩
    rcases hq : (q.setState F.loader .loading).load F.loader with ⟨o', q'⟩
    rw [hp, hq] at tried
    obtain ⟨rfl, along⟩ := tried
    have m'' := m'.along along
    cases o with
    | panic => exact .done (begun.trans along) _ _
    | error e => exact (m''.finishFailed e _).behind (begun.trans along)
    | ok a => exact (m''.finishLoaded a).behind (begun.trans along)

/-! ## Binding and calling -/

/-- A bridge binds its name in a library in both. -/
theorem bind (m : Mirrors F n d p q) {b : BridgeId} (hb : F.bridge = some b) {h : Handle}
    (looked : ∀ lib, p.libraries[h]? = some lib → lib.watch = F.library) :
    Tandem F n d (SymbolReference.rename (shifted n d)) p q (p.bind b h)
      (q.bind b (shifted n d h)) := by
  have symbol : (q.bridge b).symbol = (p.bridge b).symbol := by
    rw [m.bridge_eq hb]
    rfl
  have resolved := m.resolve looked (p.bridge b).symbol .callable
  rw [Process.bind, Process.bind, symbol]
  rcases hp : p.resolve h (p.bridge b).symbol .callable with ⟨o, p'⟩
  rcases hq : q.resolve (shifted n d h) (p.bridge b).symbol .callable with ⟨o', q'⟩
  rw [hp, hq] at resolved
  obtain ⟨rfl, along⟩ := resolved
  have symbol' : (q'.bridge b).symbol = (p'.bridge b).symbol := by
    rw [(m.along along).bridge_eq hb]
    rfl
  cases o with
  | panic => exact .done along _ _
  | error e =>
    dsimp only [Outcome.map]
    rw [symbol']
    exact .done (along.trans (along_note _)) (.error e) _
  | ok r => exact .done (along.trans (along_note _)) (.ok r) _

theorem classify (r : SymbolReference) (text : String) (answer : Int64) :
    Tandem F n d id p q (p.classify r text answer)
      (q.classify (r.rename (shifted n d)) text answer) := by
  unfold Process.classify
  split <;> exact .done (along_note _) _ id

theorem invoke (r : SymbolReference) (text : String) :
    Tandem F n d id p q (p.invoke r text) (q.invoke (r.rename (shifted n d)) text) := by
  unfold Process.invoke
  split
  · exact .done (.refl ..) _ id
  · exact classify ..

end Mirrors

theorem resolved_eq (p : Process) (b : BridgeId) : p.resolved b =
    match (p.bridge b).bound with
    | some r => (.ok r, p)
    | none => andThen (p.ensureLoaded (p.bridge b).loader) fun h p =>
        andThen (p.bind b h) fun r p =>
          (.ok (((p.storeSymbol b r).bridge b).bound.getD r), p.storeSymbol b r) := by
  rw [resolved]
  cases (p.bridge b).bound with
  | some r => rfl
  | none =>
    dsimp only
    rcases p.ensureLoaded (p.bridge b).loader with ⟨h | e | _, q⟩
    · dsimp only [andThen]
      rcases q.bind b h with ⟨_ | _ | _, r⟩ <;> rfl
    · rfl
    · rfl

theorem call_eq_andThen (p : Process) (b : BridgeId) (text : String) :
    p.call b text = andThen (p.resolved b) fun r q => q.invoke r text := by
  rw [call]
  rcases p.resolved b with ⟨_ | _ | _, q⟩ <;> rfl

namespace Mirrors

/-- A bridge comes to its function in both. -/
theorem resolved (m : Mirrors F n d p q) {b : BridgeId} (hb : F.bridge = some b)
    (owner : (p.bridge b).loader = F.loader) (covers : Covers F p)
    (reads : (p.bridge b).bound = none → Reads F p) :
    Tandem F n d (SymbolReference.rename (shifted n d)) p q (p.resolved b) (q.resolved b) := by
  have bridge := m.bridge_eq hb
  have owner' : (q.bridge b).loader = F.loader := by
    rw [bridge]
    exact owner
  have bound : (q.bridge b).bound =
      (p.bridge b).bound.map (SymbolReference.rename (shifted n d)) := by
    rw [bridge]
    rfl
  rw [resolved_eq, resolved_eq, bound, owner, owner']
  cases none : (p.bridge b).bound with
  | some r => exact .done (.refl ..) _ _
  | none =>
    refine (m.ensureLoaded covers).andThen fun h p' q' loaded along => ?_
    have m' := m.along along
    refine (m'.bind hb (reads none h p' loaded)).andThen fun r p'' q'' _ along' => ?_
    have within : (Edit.bound b r).Within F := hb
    have stored : Along F n d p'' q'' (p''.storeSymbol b r)
      (q''.storeSymbol b (r.rename (shifted n d))) := .edit within
    refine ⟨congrArg Outcome.ok ?_, stored⟩
    rw [((m'.along along').along stored).bridge_eq hb, Bridge.rename]
    cases ((p''.storeSymbol b r).bridge b).bound <;> rfl

/-- **A call comes out alike in both.** -/
theorem call (m : Mirrors F n d p q) {b : BridgeId} (hb : F.bridge = some b)
    (owner : (p.bridge b).loader = F.loader) (covers : Covers F p)
    (reads : (p.bridge b).bound = none → Reads F p) (text : String) :
    Tandem F n d id p q (p.call b text) (q.call b text) := by
  rw [call_eq_andThen, call_eq_andThen]
  exact (m.resolved hb owner covers reads).andThen fun r p' q' _ _ => invoke r text

end Mirrors
end Process
end Linkage
