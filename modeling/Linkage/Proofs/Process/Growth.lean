import Linkage.Proofs.Process.Frame
import Linkage.Thread

/-!
# Nothing is taken away

Libraries and registry are extended at the end only, loaders and bridges keep what
they were made with, and a cell that has been filled keeps what it holds.  `Grows`
says this of two states of a process, and `Stays` adds what loading and calling leave
as they are: the disk, the working directory, and the number of loaders and bridges.
-/

namespace Linkage
namespace Process

variable {p q r : Process}

/-- What is there in `p` is there in `q`. -/
structure Grows (p q : Process) : Prop where
  libraries : p.libraries <+: q.libraries
  registry : p.registry <+: q.registry
  loaders : p.loaders.length ≤ q.loaders.length
  bridges : p.bridges.length ≤ q.bridges.length
  library : ∀ l < p.loaders.length, (q.loader l).library = (p.loader l).library
  source : ∀ l < p.loaders.length, (q.loader l).source = (p.loader l).source
  handle : ∀ l h, (p.loader l).handle = some h → (q.loader l).handle = some h
  owner : ∀ b < p.bridges.length, (q.bridge b).loader = (p.bridge b).loader
  symbol : ∀ b < p.bridges.length, (q.bridge b).symbol = (p.bridge b).symbol
  bound : ∀ b f, (p.bridge b).bound = some f → (q.bridge b).bound = some f

/-- What a stage of a thread leaves as it is, beside taking nothing away. -/
structure Stays (p q : Process) : Prop extends Grows p q where
  files : q.host.files = p.host.files
  cwd : q.host.cwd = p.host.cwd
  loaders_eq : q.loaders.length = p.loaders.length
  bridges_eq : q.bridges.length = p.bridges.length

theorem Grows.refl (p : Process) : Grows p p where
  libraries := List.prefix_refl _
  registry := List.prefix_refl _
  loaders := Nat.le_refl _
  bridges := Nat.le_refl _
  library := fun _ _ => rfl
  source := fun _ _ => rfl
  handle := fun _ _ h => h
  owner := fun _ _ => rfl
  symbol := fun _ _ => rfl
  bound := fun _ _ h => h

theorem Grows.trans (h : Grows p q) (h' : Grows q r) : Grows p r where
  libraries := h.libraries.trans h'.libraries
  registry := h.registry.trans h'.registry
  loaders := Nat.le_trans h.loaders h'.loaders
  bridges := Nat.le_trans h.bridges h'.bridges
  library := fun l hl => (h'.library l (Nat.lt_of_lt_of_le hl h.loaders)).trans (h.library l hl)
  source := fun l hl => (h'.source l (Nat.lt_of_lt_of_le hl h.loaders)).trans (h.source l hl)
  handle := fun l i hi => h'.handle l i (h.handle l i hi)
  owner := fun b hb => (h'.owner b (Nat.lt_of_lt_of_le hb h.bridges)).trans (h.owner b hb)
  symbol := fun b hb => (h'.symbol b (Nat.lt_of_lt_of_le hb h.bridges)).trans (h.symbol b hb)
  bound := fun b f hf => h'.bound b f (h.bound b f hf)

theorem Stays.refl (p : Process) : Stays p p := ⟨Grows.refl p, rfl, rfl, rfl, rfl⟩

theorem Stays.trans (h : Stays p q) (h' : Stays q r) : Stays p r :=
  ⟨h.toGrows.trans h'.toGrows, h'.files.trans h.files, h'.cwd.trans h.cwd,
    h'.loaders_eq.trans h.loaders_eq, h'.bridges_eq.trans h.bridges_eq⟩

/-! ## Reading through a growth -/

/-- A place that is registered stays registered with its handle. -/
theorem Grows.registered? (h : Grows p q) {key : Path} {i : Handle}
    (hi : p.registered? key = some i) : q.registered? key = some i := by
  obtain ⟨e, he, rfl⟩ := Option.map_eq_some_iff.mp hi
  obtain ⟨rest, hrest⟩ := h.registry
  rw [Process.registered?, ← hrest, List.find?_append, he]
  rfl

/-- An opened library stays what it is. -/
theorem opened_of_extends {h : Handle} {lib : Library} (libraries : p.libraries <+: q.libraries)
    (opened : p.libraries[h]? = some lib) : q.libraries[h]? = some lib := by
  obtain ⟨rest, extended⟩ := libraries
  have lt := (List.getElem?_eq_some_iff.mp opened).1
  rw [← extended, List.getElem?_append_left lt, opened]

/-- An opened library keeps its path. -/
theorem pathOf_eq_of_extends (h : p.libraries <+: q.libraries) {i : Handle}
    (hi : i < p.libraries.length) : q.pathOf i = p.pathOf i := by
  have here := List.getElem?_eq_getElem hi
  rw [Process.pathOf, opened_of_extends h here, Process.pathOf, here]

/-- A loader that is not there reads as one that has not been used. -/
theorem loader_of_le {l : LoaderId} (hl : p.loaders.length ≤ l) : p.loader l = default := by
  simp [loader, hl]

theorem bridge_of_le {b : BridgeId} (hb : p.bridges.length ≤ b) : p.bridge b = default := by
  simp [bridge, hb]

theorem Stays.owner_eq (h : Stays p q) (b : BridgeId) :
    (q.bridge b).loader = (p.bridge b).loader := by
  rcases Nat.lt_or_ge b p.bridges.length with hb | hb
  · exact h.owner b hb
  · rw [bridge_of_le hb, bridge_of_le (h.bridges_eq ▸ hb)]

theorem Stays.symbol_eq (h : Stays p q) (b : BridgeId) :
    (q.bridge b).symbol = (p.bridge b).symbol := by
  rcases Nat.lt_or_ge b p.bridges.length with hb | hb
  · exact h.symbol b hb
  · rw [bridge_of_le hb, bridge_of_le (h.bridges_eq ▸ hb)]

theorem Stays.loaderOf (h : Stays p q) (goal : Goal) :
    Task.loaderOf q goal = Task.loaderOf p goal := by
  cases goal with
  | load l => rfl
  | call b text => exact h.owner_eq b

theorem Stays.registryKey (h : Stays p q) (path : Path) :
    q.host.registryKey path = p.host.registryKey path := by
  rw [Host.registryKey, h.files, h.cwd, Host.registryKey]

/-! ## The operations -/

/-- Where no loader and no bridge is touched, two prefixes are all there is to say. -/
theorem Grows.of_cells (libraries : p.libraries <+: q.libraries)
    (registry : p.registry <+: q.registry) (loaders : q.loaders = p.loaders)
    (bridges : q.bridges = p.bridges) : Grows p q := by
  have loader : ∀ l, q.loader l = p.loader l := fun l => by
    rw [Process.loader, loaders, Process.loader]
  have bridge : ∀ b, q.bridge b = p.bridge b := fun b => by
    rw [Process.bridge, bridges, Process.bridge]
  refine ⟨libraries, registry, Nat.le_of_eq (by rw [loaders]), Nat.le_of_eq (by rw [bridges]),
    ?_, ?_, ?_, ?_, ?_, ?_⟩
  · exact fun l _ => by rw [loader]
  · exact fun l _ => by rw [loader]
  · exact fun l i hi => by rw [loader, hi]
  · exact fun b _ => by rw [bridge]
  · exact fun b _ => by rw [bridge]
  · exact fun b f hf => by rw [bridge, hf]

theorem Stays.of_cells (libraries : p.libraries <+: q.libraries)
    (registry : p.registry <+: q.registry) (loaders : q.loaders = p.loaders)
    (bridges : q.bridges = p.bridges) (files : q.host.files = p.host.files)
    (cwd : q.host.cwd = p.host.cwd) : Stays p q :=
  ⟨.of_cells libraries registry loaders bridges, files, cwd, by rw [loaders], by rw [bridges]⟩

theorem Asked.stays (h : Asked p q) (libraries : p.libraries <+: q.libraries) : Stays p q :=
  .of_cells libraries (h.registry ▸ List.prefix_refl _) h.loaders h.bridges (by rw [h.host])
    (by rw [h.host])

theorem Heard.stays (h : Heard p q) : Stays p q :=
  h.asked.stays (h.libraries ▸ List.prefix_refl _)

theorem stays_openLibrary (p : Process) (s : Source) (path : Path) (owner : Option LoaderId) :
    Stays p (p.openLibrary s path owner).2 := by
  obtain ⟨asked, ⟨table, -, added⟩ | ⟨-, same⟩⟩ := openLibrary_spec p s path owner
  · exact asked.stays (added ▸ List.prefix_append ..)
  · exact asked.stays (same ▸ List.prefix_refl _)

theorem stays_setState (p : Process) (l : LoaderId) (s : LoadState) :
    Stays p (p.setState l s) := by
  refine ⟨⟨List.prefix_refl _, List.prefix_refl _, ?_, Nat.le_refl _, ?_, ?_, ?_,
    fun _ _ => rfl, fun _ _ => rfl, fun _ _ h => h⟩, rfl, rfl, ?_, rfl⟩
  · simp [setState, updateLoader]
  · exact fun k _ => library_setState ..
  · exact fun k _ => source_setState ..
  · exact fun k i hi => (handle_setState ..).trans hi
  · simp [setState, updateLoader]

theorem stays_storeHandle (p : Process) (l : LoaderId) (h : Handle) :
    Stays p (p.storeHandle l h) := by
  refine ⟨⟨List.prefix_refl _, List.prefix_refl _, ?_, Nat.le_refl _, ?_, ?_, ?_,
    fun _ _ => rfl, fun _ _ => rfl, fun _ _ h => h⟩, rfl, rfl, ?_, rfl⟩
  · simp [storeHandle, updateLoader]
  · exact fun k _ => library_storeHandle ..
  · exact fun k _ => source_storeHandle ..
  · intro k i hi
    rw [handle_storeHandle, hi]
    split <;> rfl
  · simp [storeHandle, updateLoader]

theorem stays_storeSymbol (p : Process) (b : BridgeId) (f : SymbolReference) :
    Stays p (p.storeSymbol b f) := by
  refine ⟨⟨List.prefix_refl _, List.prefix_refl _, Nat.le_refl _, ?_,
    fun _ _ => rfl, fun _ _ => rfl, fun _ _ h => h, ?_, ?_, ?_⟩, rfl, rfl, rfl, ?_⟩
  · simp [storeSymbol, updateBridge]
  · exact fun c _ => owner_storeSymbol ..
  · exact fun c _ => symbol_storeSymbol ..
  · intro c g hg
    rw [bound_storeSymbol, hg]
    split <;> rfl
  · simp [storeSymbol, updateBridge]

theorem stays_register (p : Process) (key : Path) (h : Handle) : Stays p (p.register key h) :=
  .of_cells (List.prefix_refl _) (List.prefix_append ..) rfl rfl rfl rfl

theorem stays_held (p : Process) (held : List (Lock × ThreadId)) :
    Stays p { p with held := held } :=
  .of_cells (List.prefix_refl _) (List.prefix_refl _) rfl rfl rfl rfl

/-! ## New objects -/

theorem loader_newLoader_of_lt (library : String) (source : Source) {l : LoaderId}
    (hl : l < p.loaders.length) : (p.newLoader library source).2.loader l = p.loader l := by
  simp [newLoader, loader, List.getElem?_append_left hl]

/-- A new loader has no handle, and neither has one that is not there. -/
theorem handle_newLoader (p : Process) (library : String) (source : Source) (l : LoaderId) :
    ((p.newLoader library source).2.loader l).handle = (p.loader l).handle := by
  rcases Nat.lt_trichotomy l p.loaders.length with hl | rfl | hl
  · rw [loader_newLoader_of_lt library source hl]
  · rw [loader_of_le (Nat.le_refl _)]
    simp [newLoader, loader, Loader.fresh, default]
  · rw [loader_of_le (Nat.le_of_lt hl), loader_of_le]
    simp only [newLoader, List.length_append, List.length_singleton]
    omega

theorem grows_newLoader (p : Process) (library : String) (source : Source) :
    Grows p (p.newLoader library source).2 where
  libraries := List.prefix_refl _
  registry := List.prefix_refl _
  loaders := by simp [newLoader]
  bridges := Nat.le_refl _
  library := fun l hl => by rw [loader_newLoader_of_lt library source hl]
  source := fun l hl => by rw [loader_newLoader_of_lt library source hl]
  handle := fun l h hl => (handle_newLoader p library source l).trans hl
  owner := fun _ _ => rfl
  symbol := fun _ _ => rfl
  bound := fun _ _ h => h

theorem bridge_append_of_lt (c : Bridge) {b : BridgeId} (hb : b < p.bridges.length) :
    { p with bridges := p.bridges ++ [c] }.bridge b = p.bridge b := by
  simp [bridge, List.getElem?_append_left hb]

theorem bridge_append_length (p : Process) (c : Bridge) :
    { p with bridges := p.bridges ++ [c] }.bridge p.bridges.length = c := by
  simp [bridge]

/-- A bridge that is added without a bound function brings none. -/
theorem bound_of_append {c : Bridge} (unbound : c.bound = none) {b : BridgeId}
    {r : SymbolReference}
    (bound : ({ p with bridges := p.bridges ++ [c] }.bridge b).bound = some r) :
    (p.bridge b).bound = some r := by
  rcases Nat.lt_trichotomy b p.bridges.length with hb | rfl | hb
  · rwa [bridge_append_of_lt c hb] at bound
  · rw [bridge_append_length, unbound] at bound
    exact absurd bound (by simp)
  · rw [bridge_of_le (by simp only [List.length_append, List.length_singleton]; omega)] at bound
    exact absurd bound (by simp [default])

theorem grows_appendBridge (p : Process) (c : Bridge) :
    Grows p { p with bridges := p.bridges ++ [c] } where
  libraries := List.prefix_refl _
  registry := List.prefix_refl _
  loaders := Nat.le_refl _
  bridges := by simp
  library := fun _ _ => rfl
  source := fun _ _ => rfl
  handle := fun _ _ h => h
  owner := fun b hb => by rw [bridge_append_of_lt c hb]
  symbol := fun b hb => by rw [bridge_append_of_lt c hb]
  bound := fun b f hf => by
    have hb : b < p.bridges.length := by
      refine Nat.lt_of_not_le fun hb => ?_
      rw [bridge_of_le hb] at hf
      exact absurd hf (by simp [default])
    rw [bridge_append_of_lt c hb, hf]

end Process

end Linkage
