import Linkage.Proofs.Binding.Bound
import Linkage.Proofs.Process.Verdicts

/-!
# The first use of a bridge

Whoever calls an unused bridge adds to one history: its source fails to open the library
some number of times, then the library is opened, registered and stored, and then a
function is resolved in it and bound.  `Progress` is how far that history has come.  It is
not a part of the process; `Reached` says what the process is at a progress, and there is
one lemma for each step of it (`Reached.notOpened`, `Reached.opened`, ...).

What the source will do is said beforehand (`Follows`), of the process in which the bridge
is unused.  That it does so later is what `Reached` carries along: as long as nothing is
opened, the host is as it was and every failure has taken one verdict, and as long as
nothing is resolved, no verdict has been taken on a look into the library.
-/

namespace Linkage

/-! ## What is known beforehand -/

/-- What the source of a bridge has in store for it. -/
structure Plan where
  /-- Where the source says the library is. -/
  path : Path
  /-- How often it fails to open the library at first. -/
  failures : Nat
  /-- Its failures in order. -/
  error : Nat → BridgeError
  /-- What it opens then. -/
  table : SymbolTable
  /-- What the bridge binds in that. -/
  reference : SymbolReference

namespace Process

variable {p q : Process} {b : BridgeId} {plan : Plan}

/-- The loader of a bridge. -/
def ownerOf (p : Process) (b : BridgeId) : Loader := p.loader (p.bridge b).loader

/-- A bridge that has neither loaded nor bound anything. -/
structure Unused (p : Process) (b : BridgeId) : Prop where
  bridge : b < p.bridges.length
  loader : (p.bridge b).loader < p.loaders.length
  unloaded : (p.ownerOf b).handle = none
  unbound : (p.bridge b).bound = none

/-- The source of a bridge follows a plan: it says that the library is at one path, where
nothing is registered, fails to open it at first and opens it then, and what it has
opened exports a function that the bridge can bind. -/
structure Follows (p : Process) (b : BridgeId) (plan : Plan) : Prop where
  locates : ∀ n, (p.locateUnder (p.ownerOf b).source (p.ownerOf b).library
    (p.verdict (p.ownerOf b).source.watch .locate n)).1 = .ok plan.path
  unregistered : p.registered? (p.host.registryKey plan.path) = none
  fails : ∀ n < plan.failures, (p.tableUnder (p.ownerOf b).source plan.path
    (p.verdict (p.ownerOf b).source.watch .opening n)).1 = .error (plan.error n)
  opens : (p.tableUnder (p.ownerOf b).source plan.path
    (p.verdict (p.ownerOf b).source.watch .opening plan.failures)).1 = .ok plan.table
  binds : ((p.addLibrary ⟨plan.path, plan.table, (p.ownerOf b).source.watch⟩).2.bind b
    p.libraries.length).1 = .ok plan.reference

/-- A new bridge is unused. -/
theorem unused_newBridge (p : Process) (library symbol : String) (source : Source) :
    Unused (p.newBridge library symbol source).2 (p.newBridge library symbol source).1 := by
  constructor <;> simp [newBridge, newLoader, ownerOf, loader, Process.bridge, Loader.fresh]

end Process

/-! ## How far the first calls have come -/

/-- How far the first calls through a bridge have come. -/
structure Progress where
  /-- How often the source has failed to open the library. -/
  failed : Nat
  opened : Bool
  registered : Bool
  stored : Bool
  resolved : Bool
  bound : Bool
  /-- What stands in the loader. -/
  state : LoadState

namespace Progress

/-- What comes later has what comes before it behind it. -/
structure Ordered (failures : Nat) (φ : Progress) : Prop where
  failed : φ.failed ≤ failures
  opened : φ.opened → φ.failed = failures
  registered : φ.registered → φ.opened
  stored : φ.stored → φ.registered
  resolved : φ.resolved → φ.stored
  bound : φ.bound → φ.resolved

/-- No load is under way: the library has been loaded, or nothing has come of any load,
and the state says which. -/
structure Settled (φ : Progress) : Prop where
  loaded : φ.opened → φ.stored ∧ φ.state = .loaded
  failed : φ.opened = false → 0 < φ.failed → φ.state = .failed

variable {φ : Progress} {failures : Nat}

theorem Ordered.not_registered (h : φ.Ordered failures) (early : φ.opened = false) :
    φ.registered = false :=
  Bool.eq_false_iff.mpr fun registered => Bool.eq_false_iff.mp early (h.registered registered)

theorem Ordered.not_stored (h : φ.Ordered failures) (early : φ.registered = false) :
    φ.stored = false :=
  Bool.eq_false_iff.mpr fun stored => Bool.eq_false_iff.mp early (h.stored stored)

theorem Ordered.not_resolved (h : φ.Ordered failures) (early : φ.stored = false) :
    φ.resolved = false :=
  Bool.eq_false_iff.mpr fun resolved => Bool.eq_false_iff.mp early (h.resolved resolved)

theorem Ordered.not_bound (h : φ.Ordered failures) (early : φ.resolved = false) :
    φ.bound = false :=
  Bool.eq_false_iff.mpr fun bound => Bool.eq_false_iff.mp early (h.bound bound)

theorem Ordered.resolved_eq_bound (h : φ.Ordered failures) (bound : φ.bound) :
    φ.resolved = φ.bound :=
  (h.bound bound).trans bound.symm

theorem Settled.not_opened (h : φ.Settled) (early : φ.stored = false) : φ.opened = false :=
  Bool.eq_false_iff.mpr fun opened => Bool.eq_false_iff.mp early (h.loaded opened).1

end Progress

/-! ## What the process is -/

namespace Process

variable {p q : Process} {b : BridgeId} {plan : Plan} {φ : Progress}

/-- What the process is when the first calls have come so far: `p` is where they began. -/
structure Reached (p : Process) (b : BridgeId) (plan : Plan) (φ : Progress) (q : Process) :
    Prop where
  stays : p.Stays q
  ordered : φ.Ordered plan.failures
  state : (q.ownerOf b).state = φ.state
  handle : (q.ownerOf b).handle = if φ.stored then some plan.reference.handle else none
  bound : (q.bridge b).bound = if φ.bound then some plan.reference else none
  registry : q.registry = if φ.registered then
    p.registry ++ [(p.host.registryKey plan.path, plan.reference.handle)] else p.registry
  libraries : q.libraries = if φ.opened then
    p.libraries ++ [⟨plan.path, plan.table, (p.ownerOf b).source.watch⟩] else p.libraries
  host : φ.opened = false → q.host = p.host
  locate : φ.opened = false → ∃ n, q.coming (p.ownerOf b).source.watch .locate =
    (p.coming (p.ownerOf b).source.watch .locate).drop n
  opening : φ.opened = false → q.coming (p.ownerOf b).source.watch .opening =
    (p.coming (p.ownerOf b).source.watch .opening).drop φ.failed
  symbol : φ.resolved = false → q.coming (p.ownerOf b).source.watch .symbol =
    p.coming (p.ownerOf b).source.watch .symbol

/-- Where the first calls begin. -/
theorem Unused.reached (unused : p.Unused b) (plan : Plan) :
    Reached p b plan ⟨0, false, false, false, false, false, (p.ownerOf b).state⟩ p where
  stays := .refl p
  ordered := ⟨Nat.zero_le _, by simp, by simp, by simp, by simp, by simp⟩
  state := rfl
  handle := unused.unloaded
  bound := unused.unbound
  registry := rfl
  libraries := rfl
  host := fun _ => rfl
  locate := fun _ => ⟨0, rfl⟩
  opening := fun _ => rfl
  symbol := fun _ => rfl

/-- What is bound is a function of the library that is opened. -/
theorem Follows.handle (follows : p.Follows b plan) : plan.reference.handle = p.libraries.length :=
  (bind_ok (Prod.ext follows.binds rfl)).1

namespace Reached

/-- The loader is there. -/
theorem valid (unused : p.Unused b) (h : Reached p b plan φ q) :
    (q.bridge b).loader < q.loaders.length := by
  rw [h.stays.owner_eq, h.stays.loaders_eq]
  exact unused.loader

theorem source (unused : p.Unused b) (h : Reached p b plan φ q) :
    (q.ownerOf b).source = (p.ownerOf b).source := by
  rw [ownerOf, h.stays.owner_eq]
  exact h.stays.source _ unused.loader

theorem library (unused : p.Unused b) (h : Reached p b plan φ q) :
    (q.ownerOf b).library = (p.ownerOf b).library := by
  rw [ownerOf, h.stays.owner_eq]
  exact h.stays.library _ unused.loader

/-- Before it is registered, nothing is registered for the place. -/
theorem registered?_eq_none (follows : p.Follows b plan) (h : Reached p b plan φ q)
    (early : φ.registered = false) : q.registered? (p.host.registryKey plan.path) = none := by
  rw [registered?, h.registry, if_neg (by simp [early]), ← registered?, follows.unregistered]

/-- What only reports, and takes verdicts on where the library is. -/
theorem frame {r : Process} (h : Reached p b plan φ q) (host : r.host = q.host)
    (libraries : r.libraries = q.libraries) (registry : r.registry = q.registry)
    (loaders : r.loaders = q.loaders) (bridges : r.bridges = q.bridges)
    (locate : ∃ n, r.coming (p.ownerOf b).source.watch .locate =
      (q.coming (p.ownerOf b).source.watch .locate).drop n)
    (others : ∀ k ≠ .locate, r.coming (p.ownerOf b).source.watch k =
      q.coming (p.ownerOf b).source.watch k) : Reached p b plan φ r where
  stays := h.stays.trans (.of_cells (libraries ▸ List.prefix_refl _) (registry ▸ List.prefix_refl _)
    loaders bridges (by rw [host]) (by rw [host]))
  ordered := h.ordered
  state := by rw [ownerOf, bridge, bridges, loader, loaders]; exact h.state
  handle := by rw [ownerOf, bridge, bridges, loader, loaders]; exact h.handle
  bound := by rw [bridge, bridges]; exact h.bound
  registry := registry.trans h.registry
  libraries := libraries.trans h.libraries
  host := fun early => host.trans (h.host early)
  locate := fun early => by
    obtain ⟨m, hm⟩ := h.locate early
    obtain ⟨n, hn⟩ := locate
    exact ⟨m + n, by rw [hn, hm, List.drop_drop]⟩
  opening := fun early => (others _ (by simp)).trans (h.opening early)
  symbol := fun early => (others _ (by simp)).trans (h.symbol early)

/-- A notice changes nothing, and neither do the locks. -/
theorem note (h : Reached p b plan φ q) (n : Notice) : Reached p b plan φ (q.note n) :=
  h.frame rfl rfl rfl rfl rfl ⟨0, rfl⟩ fun _ _ => rfl

theorem locks (h : Reached p b plan φ q) (held : List (Lock × ThreadId)) :
    Reached p b plan φ { q with held := held } :=
  h.frame rfl rfl rfl rfl rfl ⟨0, rfl⟩ fun _ _ => rfl

/-! ### The steps of a load -/

theorem setState (unused : p.Unused b) (h : Reached p b plan φ q) (state : LoadState) :
    Reached p b plan { φ with state := state } (q.setState (q.bridge b).loader state) where
  stays := h.stays.trans (stays_setState ..)
  ordered := ⟨h.ordered.failed, h.ordered.opened, h.ordered.registered, h.ordered.stored,
    h.ordered.resolved, h.ordered.bound⟩
  state := by
    show ((q.setState (q.bridge b).loader state).loader (q.bridge b).loader).state = state
    rw [loader_setState, if_pos ⟨rfl, h.valid unused⟩]
  handle := (handle_setState ..).trans h.handle
  bound := h.bound
  registry := h.registry
  libraries := h.libraries
  host := h.host
  locate := h.locate
  opening := h.opening
  symbol := h.symbol

/-- The source says where the library is. -/
theorem located (unused : p.Unused b) (follows : p.Follows b plan) (h : Reached p b plan φ q)
    (early : φ.opened = false) (owner : Option LoaderId) :
    (q.locate (q.ownerOf b).source (q.ownerOf b).library owner).1 = .ok plan.path ∧
      Reached p b plan φ (q.locate (q.ownerOf b).source (q.ownerOf b).library owner).2 := by
  rw [h.source unused, h.library unused]
  obtain ⟨answer, behind⟩ := locate_spec q (p.ownerOf b).source (p.ownerOf b).library owner
  have heard := heard_locate q (p.ownerOf b).source (p.ownerOf b).library owner
  obtain ⟨n, hn⟩ := h.locate early
  constructor
  · have next : q.verdict (p.ownerOf b).source.watch .locate 0 =
        p.verdict (p.ownerOf b).source.watch .locate n := by simp [verdict, hn]
    rw [answer, next, locateUnder_congr h.stays.files h.stays.cwd, follows.locates]
  · refine h.frame heard.host heard.libraries heard.registry heard.loaders heard.bridges
      ⟨1, ?_⟩ fun k hk => ?_
    · rw [behind, if_pos rfl]
    · rw [behind, if_neg hk]

theorem verdict_opening (h : Reached p b plan φ q) (early : φ.opened = false) :
    q.verdict (p.ownerOf b).source.watch .opening 0 =
      p.verdict (p.ownerOf b).source.watch .opening φ.failed := by
  simp [verdict, h.opening early]

/-- The source fails to open the library as often as planned. -/
theorem notOpened (unused : p.Unused b) (follows : p.Follows b plan) (h : Reached p b plan φ q)
    (early : φ.opened = false) (more : φ.failed < plan.failures) (owner : Option LoaderId) :
    (q.openLibrary (q.ownerOf b).source plan.path owner).1 = .error (plan.error φ.failed) ∧
      Reached p b plan { φ with failed := φ.failed + 1 }
        (q.openLibrary (q.ownerOf b).source plan.path owner).2 := by
  rw [h.source unused]
  have fails := follows.fails φ.failed more
  rw [← h.verdict_opening early, ← tableUnder_congr (h.host early)] at fails
  obtain ⟨failed, host⟩ := openLibrary_of_error fails owner
  obtain ⟨asked, ⟨_, ok, -⟩ | ⟨-, libraries⟩⟩ :=
    openLibrary_spec q (p.ownerOf b).source plan.path owner
  · exact absurd (failed.symm.trans ok) (by simp)
  have coming := coming_openLibrary q (p.ownerOf b).source plan.path owner
  have same := asked.stays (libraries ▸ List.prefix_refl _)
  refine ⟨failed, ?_⟩
  constructor
  case stays => exact h.stays.trans same
  case ordered =>
    exact ⟨more, fun opened => absurd (early.symm.trans opened) (by simp), h.ordered.registered,
      h.ordered.stored, h.ordered.resolved, h.ordered.bound⟩
  case state => rw [ownerOf, bridge, asked.bridges, loader, asked.loaders]; exact h.state
  case handle => rw [ownerOf, bridge, asked.bridges, loader, asked.loaders]; exact h.handle
  case bound => rw [bridge, asked.bridges]; exact h.bound
  case registry => exact asked.registry.trans h.registry
  case libraries => exact libraries.trans h.libraries
  case host => exact fun early => host.trans (h.host early)
  case locate => exact fun early => by rw [coming, if_neg (by simp)]; exact h.locate early
  case opening =>
    exact fun early => by rw [coming, if_pos rfl, h.opening early, List.drop_drop]
  case symbol => exact fun early => by rw [coming, if_neg (by simp)]; exact h.symbol early

/-- Then it opens the library. -/
theorem opened (unused : p.Unused b) (follows : p.Follows b plan) (h : Reached p b plan φ q)
    (early : φ.opened = false) (last : φ.failed = plan.failures) (owner : Option LoaderId) :
    (q.openLibrary (q.ownerOf b).source plan.path owner).1 = .ok plan.reference.handle ∧
      Reached p b plan { φ with opened := true }
        (q.openLibrary (q.ownerOf b).source plan.path owner).2 := by
  rw [h.source unused]
  have opens := follows.opens
  rw [← last, ← h.verdict_opening early, ← tableUnder_congr (h.host early)] at opens
  obtain ⟨ok, libraries⟩ := openLibrary_of_ok opens owner
  have same : q.libraries = p.libraries := by rw [h.libraries, if_neg (by simp [early])]
  have coming := coming_openLibrary q (p.ownerOf b).source plan.path owner
  have asked := (openLibrary_spec q (p.ownerOf b).source plan.path owner).1
  refine ⟨by rw [ok, same, follows.handle], ?_⟩
  constructor
  case stays => exact h.stays.trans (stays_openLibrary ..)
  case ordered =>
    exact ⟨h.ordered.failed, fun _ => last, fun _ => rfl, h.ordered.stored, h.ordered.resolved,
      h.ordered.bound⟩
  case state => rw [ownerOf, bridge, asked.bridges, loader, asked.loaders]; exact h.state
  case handle => rw [ownerOf, bridge, asked.bridges, loader, asked.loaders]; exact h.handle
  case bound => rw [bridge, asked.bridges]; exact h.bound
  case registry => exact asked.registry.trans h.registry
  case libraries => rw [libraries, same]; rfl
  case symbol => exact fun early => by rw [coming, if_neg (by simp)]; exact h.symbol early
  case host | locate | opening => exact fun early => absurd early (by simp)

theorem register (h : Reached p b plan φ q) (opened : φ.opened) (new : φ.registered = false) :
    Reached p b plan { φ with registered := true }
      (q.register (p.host.registryKey plan.path) plan.reference.handle) where
  stays := h.stays.trans (stays_register ..)
  ordered := ⟨h.ordered.failed, h.ordered.opened, fun _ => opened, fun _ => rfl,
    h.ordered.resolved, h.ordered.bound⟩
  state := h.state
  handle := h.handle
  bound := h.bound
  registry := by rw [Process.register, h.registry, if_neg (by simp [new])]; rfl
  libraries := h.libraries
  host := h.host
  locate := h.locate
  opening := h.opening
  symbol := h.symbol

theorem storeHandle (unused : p.Unused b) (h : Reached p b plan φ q) (registered : φ.registered)
    (new : φ.stored = false) : Reached p b plan { φ with stored := true }
      (q.storeHandle (q.bridge b).loader plan.reference.handle) where
  stays := h.stays.trans (stays_storeHandle ..)
  ordered := ⟨h.ordered.failed, h.ordered.opened, h.ordered.registered, fun _ => registered,
    fun _ => rfl, h.ordered.bound⟩
  state := by
    show ((q.storeHandle (q.bridge b).loader plan.reference.handle).loader
      (q.bridge b).loader).state = φ.state
    rw [loader_storeHandle, if_pos ⟨rfl, h.valid unused⟩]
    exact h.state
  handle := by
    have none : (q.loader (q.bridge b).loader).handle = none :=
      h.handle.trans (if_neg (by simp [new]))
    show ((q.storeHandle (q.bridge b).loader plan.reference.handle).loader
      (q.bridge b).loader).handle = _
    rw [handle_storeHandle, if_pos ⟨rfl, h.valid unused⟩, none]
    rfl
  bound := h.bound
  registry := h.registry
  libraries := h.libraries
  host := h.host
  locate := h.locate
  opening := h.opening
  symbol := h.symbol

/-! ### The steps of a binding -/

/-- The library that was opened answers as it did where the first calls began. -/
theorem alike (follows : p.Follows b plan) (h : Reached p b plan φ q) (stored : φ.stored)
    (new : φ.resolved = false) :
    Alike (p.addLibrary ⟨plan.path, plan.table, (p.ownerOf b).source.watch⟩).2 q
      plan.reference.handle := by
  have opened := h.ordered.registered (h.ordered.stored stored)
  have libraries := h.libraries.trans (if_pos opened)
  refine ⟨by rw [libraries]; rfl, fun lib hlib => ?_⟩
  have last : p.libraries ++ [⟨plan.path, plan.table, (p.ownerOf b).source.watch⟩] =
      (p.addLibrary ⟨plan.path, plan.table, (p.ownerOf b).source.watch⟩).2.libraries := rfl
  rw [← last, follows.handle, List.getElem?_concat_length] at hlib
  obtain rfl := Option.some.inj hlib
  exact h.symbol new

/-- The function is resolved. -/
theorem resolved (follows : p.Follows b plan) (h : Reached p b plan φ q) (stored : φ.stored)
    (new : φ.resolved = false) : (q.bind b plan.reference.handle).1 = .ok plan.reference ∧
      Reached p b plan { φ with resolved := true } (q.bind b plan.reference.handle).2 := by
  have heard := heard_bind q b plan.reference.handle
  have opened := h.ordered.registered (h.ordered.stored stored)
  constructor
  · rw [(h.alike follows stored new).bind (h.stays.symbol_eq b), follows.handle, follows.binds]
  constructor
  case stays => exact h.stays.trans heard.stays
  case ordered =>
    exact ⟨h.ordered.failed, h.ordered.opened, h.ordered.registered, h.ordered.stored,
      fun _ => stored, fun _ => rfl⟩
  case state => rw [ownerOf, heard.bridge, heard.loader]; exact h.state
  case handle => rw [ownerOf, heard.bridge, heard.loader]; exact h.handle
  case bound => rw [heard.bridge]; exact h.bound
  case registry => exact heard.registry.trans h.registry
  case libraries => exact heard.libraries.trans h.libraries
  case host | locate | opening => exact fun early => absurd (early.symm.trans opened) (by simp)
  case symbol => exact fun early => absurd early (by simp)

theorem storeSymbol (unused : p.Unused b) (h : Reached p b plan φ q) (resolved : φ.resolved)
    (new : φ.bound = false) :
    Reached p b plan { φ with bound := true } (q.storeSymbol b plan.reference) where
  stays := h.stays.trans (stays_storeSymbol ..)
  ordered := ⟨h.ordered.failed, h.ordered.opened, h.ordered.registered, h.ordered.stored,
    h.ordered.resolved, fun _ => resolved⟩
  state := by rw [ownerOf, owner_storeSymbol]; exact h.state
  handle := by rw [ownerOf, owner_storeSymbol]; exact h.handle
  bound := by
    have there : b < q.bridges.length := h.stays.bridges_eq ▸ unused.bridge
    rw [bound_storeSymbol, if_pos ⟨rfl, there⟩, h.bound, if_neg (by simp [new])]
    rfl
  registry := h.registry
  libraries := h.libraries
  host := h.host
  locate := h.locate
  opening := h.opening
  symbol := h.symbol

end Reached
end Process

end Linkage
