import Linkage.Proofs.Binding.Exports
import Linkage.Proofs.Bridge.Stages
import Linkage.Proofs.Loading.Failing
import Linkage.Proofs.Process.FirstUse

/-!
# What a bridge shows of its library

Of a call through a bridge its caller sees how it ended, and on the bridge where its loader
stands and whether a function is bound (`Sighting`).  Over a source without a watch this is
told by three things: the symbol of the bridge, the library that is opened for it, and the
text.  How often the bridge was called before does not matter: the first call loads and the
next ones find the library loaded, but all show what the library says of the symbol
(`Library.sighting`).

`Awaits` is a bridge that has not loaded, and `Linked` is one that has.  A library that cannot
be opened leaves the bridge waiting, so each call fails the same way
(`Awaits.call_of_refused`).  `Meets` is the invariant behind all three: every call shows what
the bridge meets with at the path of its library, and leaves it with that (`Meets.call`); and
so does what is done through other bridges (`Meets.beside`).
-/

namespace Linkage

/-! ## What is seen of a call -/

/-- A failure without the path that it shows. -/
def BridgeError.withoutPath : BridgeError → BridgeError
  | .libraryLoad _ reason => .libraryLoad ⟨""⟩ reason
  | .symbolNotFound symbol _ => .symbolNotFound symbol ⟨""⟩
  | e => e

/-- How an operation ended, but for the path in its failure. -/
def Outcome.withoutPath {α : Type} : Outcome α → Outcome α
  | .error e => .error e.withoutPath
  | o => o

/-- What is seen of a call: how it ended, and how it left its bridge. -/
structure Sighting where
  outcome : Outcome Int64
  state : LoadState
  bound : Bool
  deriving DecidableEq, Repr

namespace Library

variable {lib lib' : Library} {symbol : String}

/-- What a call of the function bound for a symbol comes to. -/
def answer (lib : Library) (symbol text : String) : Outcome Int64 :=
  match lib.binding symbol .callable with
  | .ok f => f.outcome symbol text
  | .error e => .error e

/-- What is seen of a call through a bridge that has loaded this library. -/
def sighting (lib : Library) (symbol text : String) : Sighting :=
  ⟨(lib.answer symbol text).withoutPath, .loaded, (lib.binding symbol .callable).isOk⟩

/-- Libraries in which a symbol and its descriptor are found alike are not told apart. -/
theorem sighting_congr (function : lib'.table.find? symbol = lib.table.find? symbol)
    (descriptor : lib'.table.find? (symbol ++ Signature.suffix) =
      lib.table.find? (symbol ++ Signature.suffix)) (text : String) :
    lib'.sighting symbol text = lib.sighting symbol text := by
  simp only [sighting, answer, binding, function, descriptor]
  rcases lib.table.find? symbol with _ | f
  · rfl
  · rfl

end Library

/-- What is seen of a call through a bridge that meets with this at a path: with a library, or
with one that cannot be opened. -/
def Sighting.met (path : Path) (symbol text : String) : Option SymbolTable → Sighting
  | some table => Library.sighting ⟨path, table, none⟩ symbol text
  | none => ⟨.error (BridgeError.libraryLoad path .refused).withoutPath, .failed, false⟩

namespace Process

variable {p q r : Process} {b c : BridgeId} {i : Handle} {lib : Library} {origin : Origin}
  {path : Path} {table : SymbolTable}

/-- What is seen of the next call through a bridge. -/
def sighting (p : Process) (b : BridgeId) (text : String) : Sighting :=
  let (o, q) := p.call b text
  ⟨o.withoutPath, (q.ownerOf b).state, (q.bridge b).bound.isSome⟩

/-! ## What a call leaves alone -/

/-- `q` is `p` but for one bridge, its loader, and what is opened and registered. -/
structure Beside (b : BridgeId) (p q : Process) : Prop where
  stays : Stays p q
  loader : ∀ k ≠ (p.bridge b).loader, q.loader k = p.loader k
  bridge : ∀ c ≠ b, q.bridge c = p.bridge c

theorem Beside.refl (b : BridgeId) (p : Process) : Beside b p p :=
  ⟨.refl p, fun _ _ => rfl, fun _ _ => rfl⟩

theorem Beside.heard (h : Beside b p q) (heard : Heard q r) : Beside b p r where
  stays := h.stays.trans heard.stays
  loader := fun k other => (heard.loader k).trans (h.loader k other)
  bridge := fun c other => (heard.bridge c).trans (h.bridge c other)

theorem Beside.storeSymbol (h : Beside b p q) (f : SymbolReference) :
    Beside b p (q.storeSymbol b f) where
  stays := h.stays.trans (stays_storeSymbol ..)
  loader := h.loader
  bridge := fun c other => by
    rw [bridge_storeSymbol, if_neg fun own => other own.1.symm, h.bridge c other]

theorem beside_ensureLoaded (p : Process) (b : BridgeId) :
    Beside b p (p.ensureLoaded (p.bridge b).loader).2 where
  stays := stays_ensureLoaded ..
  loader := fun _ other => loader_ensureLoaded_of_ne (Ne.symm other)
  bridge := fun c _ => by rw [Process.bridge, bridges_ensureLoaded, ← Process.bridge]

/-- **A call leaves other bridges and other loaders alone.** -/
theorem beside_call (p : Process) (b : BridgeId) (text : String) :
    Beside b p (p.call b text).2 := by
  have resolved : Beside b p (p.resolved b).2 := by
    rw [Process.resolved]
    split
    · exact .refl b p
    · have loaded := beside_ensureLoaded p b
      split <;> rename_i load <;> rw [load] at loaded
      · exact loaded
      · exact loaded
      · rename_i i q
        have bound := loaded.heard (heard_bind q b i)
        split <;> rename_i bind <;> rw [bind] at bound
        · exact bound
        · exact bound
        · exact bound.storeSymbol _
  rw [Process.call]
  split <;> rename_i resolve <;> rw [resolve] at resolved
  · exact resolved
  · exact resolved
  · exact resolved.heard (heard_invoke ..)

/-! ## A bridge that has loaded -/

theorem outcome_bind (p : Process) (b : BridgeId) (i : Handle) :
    (p.bind b i).1 = (p.resolve i (p.bridge b).symbol .callable).1 := by
  rw [bind]
  rcases p.resolve i (p.bridge b).symbol .callable with ⟨_ | _ | _, q⟩ <;> rfl

/-- A bridge whose loader has its handle, on a library that no watch is on. -/
structure Linked (p : Process) (b : BridgeId) (i : Handle) (lib : Library) : Prop where
  made : b < p.bridges.length
  handle : (p.ownerOf b).handle = some i
  state : (p.ownerOf b).state = .loaded
  opened : p.libraries[i]? = some lib
  unwatched : lib.watch = none
  bound : ∀ r, (p.bridge b).bound = some r → ∃ f,
    lib.binding (p.bridge b).symbol .callable = .ok f ∧
      r = ⟨i, (p.bridge b).symbol, .callable, f⟩

namespace Linked

theorem candid (h : p.Linked b i lib) : p.Candid i lib :=
  ⟨h.opened, by rw [h.unwatched]; rfl⟩

/-- What is done elsewhere leaves a bridge linked. -/
theorem frame (h : p.Linked b i lib) (stays : Stays p q) (owner : q.ownerOf b = p.ownerOf b)
    (bridge : q.bridge b = p.bridge b) : q.Linked b i lib where
  made := stays.bridges_eq ▸ h.made
  handle := owner ▸ h.handle
  state := owner ▸ h.state
  opened := opened_of_extends stays.libraries h.opened
  unwatched := h.unwatched
  bound := bridge ▸ h.bound

theorem heard (h : p.Linked b i lib) (heard : Heard p q) : q.Linked b i lib :=
  h.frame heard.stays (by rw [ownerOf, heard.bridge, heard.loader, ← ownerOf]) (heard.bridge b)

/-- What is stored for a bridge is what its library has for the symbol. -/
theorem storeSymbol (h : p.Linked b i lib) {f : Function}
    (binding : lib.binding (p.bridge b).symbol .callable = .ok f) :
    (p.storeSymbol b ⟨i, (p.bridge b).symbol, .callable, f⟩).Linked b i lib where
  made := (stays_storeSymbol p b _).bridges_eq ▸ h.made
  handle := by rw [ownerOf, owner_storeSymbol, loader_storeSymbol, ← ownerOf, h.handle]
  state := by rw [ownerOf, owner_storeSymbol, loader_storeSymbol, ← ownerOf, h.state]
  opened := h.opened
  unwatched := h.unwatched
  bound := by
    rw [symbol_storeSymbol, bound_storeSymbol, if_pos ⟨rfl, h.made⟩]
    rcases before : (p.bridge b).bound with _ | r
    · rintro r same
      exact ⟨f, binding, (Option.some.inj same).symm⟩
    · rintro r same
      exact h.bound r (before.trans same)

/-- A bridge that has loaded binds what its library says. -/
theorem resolved (h : p.Linked b i lib) :
    (p.resolved b).1 = (match lib.binding (p.bridge b).symbol .callable with
      | .ok f => .ok ⟨i, (p.bridge b).symbol, .callable, f⟩
      | .error e => .error e) ∧
    ((p.resolved b).2.bridge b).bound.isSome =
      (lib.binding (p.bridge b).symbol .callable).isOk ∧
    (p.resolved b).2.Linked b i lib ∧
    (p.resolved b).2.host = p.host ∧ (p.resolved b).2.registry = p.registry := by
  rcases bound : (p.bridge b).bound with _ | r
  swap
  · obtain ⟨f, binding, rfl⟩ := h.bound r bound
    simp only [Process.resolved, bound, binding]
    exact ⟨trivial, rfl, h, trivial, trivial⟩
  have answer := h.candid.answering.resolve_eq (p.bridge b).symbol .callable
  rw [← outcome_bind] at answer
  have heard := heard_bind p b i
  simp only [Process.resolved, bound, ensureLoaded_of_handle h.handle]
  rcases bind : p.bind b i with ⟨o, q⟩
  rw [bind] at answer heard
  have linked := h.heard heard
  have unbound : (q.bridge b).bound = none := by rw [heard.bridge, bound]
  obtain rfl : o = _ := answer
  rcases binding : lib.binding (p.bridge b).symbol .callable with e | f
  · dsimp only
    rw [unbound]
    exact ⟨rfl, rfl, linked, heard.host, heard.registry⟩
  · dsimp only
    rw [bound_getD_storeSymbol unbound, bound_storeSymbol, if_pos ⟨rfl, linked.made⟩, unbound]
    have stored := linked.storeSymbol (f := f) (by rw [heard.bridge, binding])
    rw [heard.bridge] at stored
    exact ⟨rfl, rfl, stored, heard.host, heard.registry⟩

/-- **Every call through a bridge that has loaded shows what its library says**, and leaves it
as it was but for what it has bound. -/
theorem call (h : p.Linked b i lib) (text : String) :
    p.sighting b text = lib.sighting (p.bridge b).symbol text ∧
      (p.call b text).2.Linked b i lib ∧ (p.call b text).2.host = p.host ∧
      (p.call b text).2.registry = p.registry := by
  obtain ⟨outcome, bound, linked, host, registry⟩ := h.resolved
  simp only [sighting, Library.sighting, Library.answer, Process.call]
  rcases resolved : p.resolved b with ⟨o, q⟩
  rw [resolved] at outcome bound linked host registry
  obtain rfl : o = _ := outcome
  rcases binding : lib.binding (p.bridge b).symbol .callable with e | f
  · rw [binding] at bound
    dsimp only at bound ⊢
    rw [bound, linked.state]
    exact ⟨rfl, linked, host, registry⟩
  · rw [binding] at bound
    dsimp only at bound ⊢
    have heard := heard_invoke q ⟨i, (p.bridge b).symbol, .callable, f⟩ text
    have behind := linked.heard heard
    rw [outcome_invoke, heard.bridge, bound, behind.state]
    exact ⟨rfl, behind, heard.host.trans host, heard.registry.trans registry⟩

end Linked

/-! ## A bridge that has not loaded -/

/-- What is opened at a path depends on the host. -/
theorem tableAt_congr (host : q.host = p.host) (origin : Origin) (path : Path) :
    (q.tableAt origin path).1 = (p.tableAt origin path).1 ∧
      (q.tableAt origin path).2.host = (p.tableAt origin path).2.host := by
  cases origin with
  | inProcess s => exact ⟨rfl, host⟩
  | system dirs =>
    simp only [tableAt, host]
    exact ⟨trivial, trivial⟩

/-- A source that no watch is on opens what its origin opens. -/
theorem openLibrary_unwatched (p : Process) (origin : Origin) (path : Path)
    (owner : Option LoaderId) : p.openLibrary ⟨origin, none, none⟩ path owner =
      match (p.tableAt origin path).1 with
      | some table => (.ok p.libraries.length, { p with
          host := (p.tableAt origin path).2.host
          libraries := p.libraries ++ [⟨path, table, none⟩] })
      | none => (.error (.libraryLoad path .refused), { p with
          host := (p.tableAt origin path).2.host }) := by
  cases origin with
  | inProcess s => rfl
  | system dirs =>
    simp only [openLibrary, ask, record, takeVerdict, tableUnder, Option.bind_none, tableAt]
    rcases p.host.mapLibrary path with ⟨_ | image, host⟩ <;> rfl

/-- An unused bridge over an origin that no watch is on, which has the library at a path where
nothing is registered. -/
structure Awaits (p : Process) (b : BridgeId) (origin : Origin) (path : Path) : Prop
    extends Unused p b where
  source : (p.ownerOf b).source = ⟨origin, none, none⟩
  located : (p.locateAt origin (p.ownerOf b).library).1 = .ok path
  unregistered : p.registered? (p.host.registryKey path) = none

namespace Awaits

/-- What is done elsewhere leaves a bridge waiting, unless it registers the place. -/
theorem frame (h : p.Awaits b origin path) (stays : Stays p q)
    (bridge : q.bridge b = p.bridge b) (unloaded : (q.ownerOf b).handle = none)
    (unregistered : q.registered? (p.host.registryKey path) = none) :
    q.Awaits b origin path where
  bridge := stays.bridges_eq ▸ h.bridge
  loader := by rw [bridge, stays.loaders_eq]; exact h.loader
  unloaded := unloaded
  unbound := bridge ▸ h.unbound
  source := by rw [ownerOf, bridge, stays.source _ h.loader, ← ownerOf, h.source]
  located := by
    rw [ownerOf, bridge, stays.library _ h.loader, ← ownerOf]
    exact (locateUnder_congr stays.files stays.cwd ⟨origin, none, none⟩ _ .pass).trans h.located
  unregistered := by rwa [stays.registryKey]

/-- The attempt that is made next: the origin says where the library is, nothing is registered
there, and the origin is asked to open it. -/
theorem attempt (h : p.Awaits b origin path) :
    let l := (p.bridge b).loader
    let begun := p.setState l .loading
    ∃ q, begun.locate (begun.loader l).source (begun.loader l).library (some l) = (.ok path, q) ∧
      q.registered? (q.host.registryKey path) = none ∧ Heard begun q ∧
      q.openLibrary (begun.loader l).source path (some l) =
        match (p.tableAt origin path).1 with
        | some table => (.ok p.libraries.length, { q with
            host := (p.tableAt origin path).2.host
            libraries := p.libraries ++ [⟨path, table, none⟩] })
        | none => (.error (.libraryLoad path .refused), { q with
            host := (p.tableAt origin path).2.host }) := by
  intro l begun
  have source : (begun.loader l).source = ⟨origin, none, none⟩ :=
    (source_setState ..).trans h.source
  have library : (begun.loader l).library = (p.ownerOf b).library := library_setState ..
  have heard := heard_locate begun ⟨origin, none, none⟩ (p.ownerOf b).library (some l)
  have located : (begun.locate ⟨origin, none, none⟩ (p.ownerOf b).library (some l)).1 = .ok path :=
    (locateUnder_congr (p := p) (q := begun) rfl rfl ⟨origin, none, none⟩ _ .pass).trans h.located
  rw [source, library]
  rcases asked : begun.locate ⟨origin, none, none⟩ (p.ownerOf b).library (some l) with ⟨o, q⟩
  rw [asked] at heard located
  obtain rfl : o = _ := located
  obtain ⟨table, host⟩ := tableAt_congr (p := p) (q := q) heard.host origin path
  have libraries : q.libraries = p.libraries := heard.libraries
  refine ⟨q, rfl, ?_, heard, ?_⟩
  · rw [heard.registered?, heard.host]
    exact h.unregistered
  · rw [openLibrary_unwatched, table, host, libraries]

/-- **The library is opened** by the next request, and the bridge has loaded it then. -/
theorem opened (h : p.Awaits b origin path) (opens : (p.tableAt origin path).1 = some table) :
    ∃ q, p.ensureLoaded (p.bridge b).loader = (.ok p.libraries.length, q) ∧
      q.Linked b p.libraries.length ⟨path, table, none⟩ ∧
      q.host = (p.tableAt origin path).2.host ∧
      q.registry = p.registry ++ [(p.host.registryKey path, p.libraries.length)] := by
  obtain ⟨q, asked, unregistered, heard, opening⟩ := h.attempt
  rw [opens] at opening
  have loads := (Loads.loads h.unloaded (.opened asked unregistered opening)).eq_ensureLoaded
  have rests : ((p.ensureLoaded (p.bridge b).loader).2.loader (p.bridge b).loader).Rests
      ([] ++ [(p.ensureLoaded (p.bridge b).loader).1]) := rests_attempt h.unloaded h.loader
  have beside := beside_ensureLoaded p b
  have bridges := bridges_ensureLoaded p (p.bridge b).loader
  rw [loads] at rests beside bridges
  refine ⟨_, loads, ?_, rfl, ?_⟩
  · constructor
    case made => exact bridges ▸ h.bridge
    case handle =>
      rw [ownerOf, beside.stays.owner_eq]
      exact rests.handle
    case state =>
      rw [ownerOf, beside.stays.owner_eq]
      exact rests.state
    case opened => exact List.getElem?_concat_length
    case unwatched => rfl
    case bound =>
      intro r bound
      rw [Process.bridge, bridges, ← Process.bridge, h.unbound] at bound
      exact absurd bound (by simp)
  · show q.registry ++ [(q.host.registryKey path, p.libraries.length)] = _
    rw [heard.registry, heard.host]
    rfl

/-- A call goes on from where its request for the handle has come to. -/
theorem call_eq {q : Process} (h : p.Awaits b origin path)
    (load : p.ensureLoaded (p.bridge b).loader = (.ok i, q)) (linked : q.Linked b i lib)
    (text : String) : p.call b text = q.call b text := by
  have bridge : q.bridge b = p.bridge b := by
    have bridges := bridges_ensureLoaded p (p.bridge b).loader
    rw [load] at bridges
    rw [Process.bridge, bridges, ← Process.bridge]
  have again := ensureLoaded_of_handle linked.handle
  rw [bridge] at again
  simp only [Process.call, Process.resolved, bridge, h.unbound, load, again]

/-- **The library cannot be opened**: the request fails, and leaves a state behind. -/
theorem notOpened (h : p.Awaits b origin path) (refuses : (p.tableAt origin path).1 = none) :
    ∃ q, p.ensureLoaded (p.bridge b).loader = (.error (.libraryLoad path .refused), q) ∧
      Heard (p.setState (p.bridge b).loader .failed) q := by
  obtain ⟨q, asked, unregistered, heard, opening⟩ := h.attempt
  rw [refuses] at opening
  have loads := (Loads.fails h.unloaded (.notOpened asked unregistered opening)).eq_ensureLoaded
  have left := heard_ensureLoaded h.unloaded (by rw [loads]; simp)
  rw [loads] at left
  exact ⟨_, loads, left⟩

/-- What is left behind is a bridge that waits as before, so each call fails the same way. -/
theorem call_of_refused (h : p.Awaits b origin path) (refuses : (p.tableAt origin path).1 = none)
    (text : String) :
    p.sighting b text = Sighting.met path (p.bridge b).symbol text none ∧
      (p.call b text).2.Awaits b origin path ∧ (p.call b text).2.host = p.host ∧
      (p.call b text).2.registry = p.registry := by
  obtain ⟨q, load, heard⟩ := h.notOpened refuses
  have call : p.call b text = (.error (.libraryLoad path .refused), q) := by
    simp only [Process.call, Process.resolved, h.unbound, load]
  have bridge : q.bridge b = p.bridge b := heard.bridge b
  have owner : q.ownerOf b = { p.ownerOf b with state := .failed } := by
    rw [ownerOf, bridge, heard.loader, loader_setState, if_pos ⟨rfl, h.loader⟩, ← ownerOf]
  have awaits : q.Awaits b origin path := by
    refine h.frame ((stays_setState ..).trans heard.stays) bridge (owner ▸ h.unloaded) ?_
    rw [heard.registered?]
    exact h.unregistered
  rw [sighting, call]
  dsimp only
  rw [owner, bridge, h.unbound]
  exact ⟨rfl, awaits, heard.host, heard.registry⟩

end Awaits

/-! ## What a bridge meets with -/

/-- What a bridge meets with at a path: it has loaded a library with these functions, or asks its
origin for it with the next call; `none` is a library that cannot be opened. -/
inductive Meets (p : Process) (b : BridgeId) (origin : Origin) (path : Path) :
    Option SymbolTable → Prop where
  | awaits (awaits : p.Awaits b origin path) : Meets p b origin path (p.tableAt origin path).1
  | linked {i : Handle} {table : SymbolTable} (linked : p.Linked b i ⟨path, table, none⟩) :
    Meets p b origin path (some table)

/-- What is registered for another place is not found. -/
theorem registered?_of_registry {key other : Path} (apart : key.same other = false)
    (registry : q.registry = p.registry ++ [(key, i)]) :
    q.registered? other = p.registered? other := by
  simp [registered?, registry, List.find?_append, apart]

/-- **Every call through a bridge shows what the bridge meets with**, and leaves it meeting with
that.  Nothing is registered but the place of the library, and the host changes only by what is
mapped to open it. -/
theorem Meets.call {table? : Option SymbolTable} (h : p.Meets b origin path table?)
    (text : String) :
    p.sighting b text = Sighting.met path (p.bridge b).symbol text table? ∧
      (p.call b text).2.Meets b origin path table? ∧
      (∀ key, (p.host.registryKey path).same key = false →
        (p.call b text).2.registered? key = p.registered? key) ∧
      ((p.call b text).2.host = p.host ∨
        (p.call b text).2.host = (p.tableAt origin path).2.host) := by
  -- where the registry is as it was, so is what is registered
  have unchanged : ∀ {q : Process}, q.registry = p.registry → ∀ key,
      q.registered? key = p.registered? key := by
    intro q registry key
    rw [registered?, registry, ← registered?]
  cases h with
  | linked linked =>
    obtain ⟨sighting, behind, host, registry⟩ := linked.call text
    exact ⟨sighting, .linked behind, fun key _ => unchanged registry key, Or.inl host⟩
  | awaits awaits =>
    rcases opens : (p.tableAt origin path).1 with _ | table
    · obtain ⟨sighting, behind, host, registry⟩ := awaits.call_of_refused opens text
      have again := Meets.awaits behind
      rw [(tableAt_congr host origin path).1, opens] at again
      exact ⟨sighting, again, fun key _ => unchanged registry key, Or.inl host⟩
    · obtain ⟨q, load, linked, host, registry⟩ := awaits.opened opens
      have call := awaits.call_eq load linked text
      obtain ⟨sighting, behind, host', registry'⟩ := linked.call text
      have symbol : (q.bridge b).symbol = (p.bridge b).symbol := by
        have stays := stays_ensureLoaded p (p.bridge b).loader
        rw [load] at stays
        exact stays.symbol_eq b
      have same : p.sighting b text = q.sighting b text := by
        rw [Process.sighting, Process.sighting, call]
      rw [same, call, sighting, symbol]
      refine ⟨rfl, .linked behind, fun key apart => ?_, Or.inr (host'.trans host)⟩
      exact registered?_of_registry apart (registry'.trans registry)

/-- What is done elsewhere leaves a bridge with what it meets with, unless its place is registered
or something else is opened there. -/
theorem Meets.beside {table? : Option SymbolTable} (h : p.Meets c origin path table?)
    (beside : Beside b p q) (other : c ≠ b) (apart : (p.bridge c).loader ≠ (p.bridge b).loader)
    (registered : q.registered? (p.host.registryKey path) =
      p.registered? (p.host.registryKey path))
    (opened : (q.tableAt origin path).1 = (p.tableAt origin path).1) :
    q.Meets c origin path table? := by
  have bridge := beside.bridge c other
  have owner : q.ownerOf c = p.ownerOf c := by
    rw [ownerOf, bridge, beside.loader _ apart, ← ownerOf]
  cases h with
  | linked linked => exact .linked (linked.frame beside.stays owner bridge)
  | awaits awaits =>
    rw [← opened]
    exact .awaits (awaits.frame beside.stays bridge (owner ▸ awaits.unloaded)
      (registered.trans awaits.unregistered))

end Process
end Linkage
