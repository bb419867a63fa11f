import Linkage.Proofs.Loading.Attempt

/-!
# What a bridge has bound

A function that is bound for a bridge comes from the library of its loader, under the
name that the bridge binds and with the one shape that can be called (`Bound`).  A call
reads the bound function before it reads the handle, so that a bridge with a bound
function also has a handle, the same one, is an invariant of the process
(`BridgesBound`) and not a check of the call.
-/

namespace Linkage
namespace Process

variable {p q : Process} {b : BridgeId} {l : LoaderId} {h : Handle} {r : SymbolReference}

/-! ## Resolving a name -/

/-- What is resolved is what was asked for. -/
theorem resolve_ok {name : String} {declared : Signature}
    (resolved : p.resolve h name declared = (.ok r, q)) :
    r.handle = h ∧ r.name = name ∧ r.signature = declared ∧ declared = .callable := by
  unfold resolve at resolved
  split at resolved
  · simp at resolved
  · simp at resolved
  · simp at resolved
  · split at resolved
    · simp at resolved
    · rename_i callable
      have callable : declared = .callable := by simpa using callable
      split at resolved
      · simp at resolved
      · simp at resolved
      · split at resolved
        · obtain rfl := Outcome.ok.inj (Prod.mk.inj resolved).1
          exact ⟨rfl, rfl, rfl, callable⟩
        · simp at resolved
      · obtain rfl := Outcome.ok.inj (Prod.mk.inj resolved).1
        exact ⟨rfl, rfl, rfl, callable⟩

/-- A function fits a bridge: it is bound for its name, in the library of its loader. -/
structure Bound (p : Process) (b : BridgeId) (r : SymbolReference) : Prop where
  handle : (p.loader (p.bridge b).loader).handle = some r.handle
  name : r.name = (p.bridge b).symbol
  signature : r.signature = .callable

theorem bind_ok (bound : p.bind b h = (.ok r, q)) :
    r.handle = h ∧ r.name = (p.bridge b).symbol ∧ r.signature = .callable := by
  revert bound
  unfold bind
  split
  · simp
  · simp
  · rename_i resolved
    intro bound
    obtain rfl := Outcome.ok.inj (Prod.mk.inj bound).1
    obtain ⟨handle, name, signature, -⟩ := resolve_ok resolved
    exact ⟨handle, name, signature⟩

/-- Binding in the library of its loader gives a function that fits. -/
theorem bound_of_bind (handle : (p.loader (p.bridge b).loader).handle = some h)
    (bound : p.bind b h = (.ok r, q)) : Bound q b r := by
  obtain ⟨rfl, name, signature⟩ := bind_ok bound
  have heard := heard_bind p b r.handle
  rw [bound] at heard
  refine ⟨?_, name.trans (congrArg Bridge.symbol (heard.bridge b)).symm, signature⟩
  rw [heard.bridge, heard.loader, handle]

theorem Bound.stays (bound : Bound p b r) (stays : Stays p q) : Bound q b r where
  handle := by rw [stays.owner_eq]; exact stays.handle _ _ bound.handle
  name := bound.name.trans (stays.symbol_eq b).symm
  signature := bound.signature

/-! ## All bridges -/

/-- Whatever a bridge has bound fits it. -/
def BridgesBound (p : Process) : Prop := ∀ b r, (p.bridge b).bound = some r → Bound p b r

/-- A bridge keeps what fits it as long as nothing is taken away. -/
theorem BridgesBound.grows (h : BridgesBound p) (grows : Grows p q)
    (bound : ∀ b r, (q.bridge b).bound = some r → (p.bridge b).bound = some r) :
    BridgesBound q := by
  intro b r hr
  have old := bound b r hr
  have fits := h b r old
  have hb : b < p.bridges.length := by
    by_contra hb
    rw [bridge_of_le (Nat.le_of_not_lt hb)] at old
    exact absurd old (by simp [default])
  refine ⟨?_, ?_, fits.signature⟩
  · rw [grows.owner b hb]
    exact grows.handle _ _ fits.handle
  · rw [grows.symbol b hb, fits.name]

theorem BridgesBound.of_eq (h : BridgesBound p) (grows : Grows p q)
    (bridges : q.bridges = p.bridges) : BridgesBound q :=
  h.grows grows fun b r hr => by rwa [bridge, bridges, ← bridge] at hr

theorem BridgesBound.heard (h : BridgesBound p) (heard : Heard p q) : BridgesBound q :=
  h.of_eq heard.stays.toGrows heard.bridges

/-- Storing a function that fits. -/
theorem BridgesBound.storeSymbol (h : BridgesBound p) (fits : Bound p b r) :
    BridgesBound (p.storeSymbol b r) := by
  have stays := stays_storeSymbol p b r
  intro c f hf
  rw [bound_storeSymbol] at hf
  split at hf
  · rename_i hbc
    rcases old : (p.bridge c).bound with _ | g
    · rw [old, Option.none_or] at hf
      obtain rfl := Option.some.inj hf
      exact hbc.1 ▸ fits.stays stays
    · rw [old, Option.some_or] at hf
      obtain rfl := Option.some.inj hf
      exact (h c g old).stays stays
  · exact (h c f hf).stays stays

/-! ## A call -/

theorem bridges_ensureLoaded (p : Process) (l : LoaderId) :
    (p.ensureLoaded l).2.bridges = p.bridges := by
  rw [ensureLoaded]
  split
  · rfl
  · have bridges := (load_leaves (p.setState l .loading) l).2.1
    split <;> rename_i load <;> rw [load] at bridges <;> exact bridges

theorem held_ensureLoaded (p : Process) (l : LoaderId) : (p.ensureLoaded l).2.held = p.held := by
  rw [ensureLoaded]
  split
  · rfl
  · have held := (load_leaves (p.setState l .loading) l).2.2
    split <;> rename_i load <;> rw [load] at held <;> exact held

theorem held_call (p : Process) (b : BridgeId) (text : String) :
    (p.call b text).2.held = p.held := by
  have resolved : (p.resolved b).2.held = p.held := by
    rw [Process.resolved]
    split
    · rfl
    · have held := held_ensureLoaded p (p.bridge b).loader
      split <;> rename_i load <;> rw [load] at held
      · exact held
      · exact held
      · rename_i i q
        have heard := heard_bind q b i
        split <;> rename_i bind <;> rw [bind] at heard <;> exact heard.held.trans held
  rw [Process.call]
  split <;> rename_i resolve <;> rw [resolve] at resolved
  · exact resolved
  · exact resolved
  · exact (heard_invoke ..).held.trans resolved

/-- A loader that answers with a handle has it. -/
theorem handle_of_ensureLoaded (hl : l < p.loaders.length) (ok : p.ensureLoaded l = (.ok h, q)) :
    (q.loader l).handle = some h := by
  rw [ensureLoaded] at ok
  split at ok
  · rename_i i hi
    obtain ⟨hh, rfl⟩ := Prod.mk.inj ok
    rw [hi, Outcome.ok.inj hh]
  · have length := (load_leaves (p.setState l .loading) l).1
    split at ok <;> rename_i load <;> rw [load] at length
    · exact absurd (Prod.mk.inj ok).1 (by simp)
    · exact absurd (Prod.mk.inj ok).1 (by simp)
    · rename_i a r
      dsimp only at length
      have hr : l < r.loaders.length := by rwa [length, (stays_setState p l .loading).loaders_eq]
      obtain ⟨hh, rfl⟩ := Prod.mk.inj ok
      obtain rfl := Outcome.ok.inj hh
      rw [(heard_note ..).loader, handle_setState, handle_storeHandle, if_pos ⟨rfl, hr⟩]
      cases (r.loader l).handle <;> rfl

/-- What a bridge answers with fits it, and every bridge keeps what fits it. -/
theorem BridgesBound.resolved (bounds : BridgesBound p)
    (hb : (p.bridge b).loader < p.loaders.length) :
    Stays p (p.resolved b).2 ∧ BridgesBound (p.resolved b).2 ∧
      ∀ r, (p.resolved b).1 = .ok r → Bound (p.resolved b).2 b r := by
  rcases old : (p.bridge b).bound with _ | f
  swap
  · simp only [Process.resolved, old]
    refine ⟨.refl p, bounds, fun r hr => ?_⟩
    obtain rfl := Outcome.ok.inj hr
    exact bounds b f old
  simp only [Process.resolved, old]
  have loads := stays_ensureLoaded p (p.bridge b).loader
  have bridges := bridges_ensureLoaded p (p.bridge b).loader
  rcases load : p.ensureLoaded (p.bridge b).loader with ⟨o, q⟩
  rw [load] at loads bridges
  have loaded := bounds.of_eq loads.toGrows bridges
  cases o with
  | panic => exact ⟨loads, loaded, by simp⟩
  | error e => exact ⟨loads, loaded, by simp⟩
  | ok i =>
    have handle : (q.loader (q.bridge b).loader).handle = some i := by
      rw [loads.owner_eq]
      exact handle_of_ensureLoaded hb load
    have heard := heard_bind q b i
    dsimp only
    rcases bind : q.bind b i with ⟨o, r⟩
    rw [bind] at heard
    have bound := loaded.heard heard
    have stays := loads.trans heard.stays
    cases o with
    | panic => exact ⟨stays, bound, by simp⟩
    | error e => exact ⟨stays, bound, by simp⟩
    | ok f =>
      have fits := bound_of_bind handle bind
      have stored := bound.storeSymbol fits
      refine ⟨stays.trans (stays_storeSymbol ..), stored, fun g hg => ?_⟩
      obtain rfl := Outcome.ok.inj hg
      dsimp only
      -- the cell is read after it was written: it holds what another call has stored
      rcases now : ((r.storeSymbol b f).bridge b).bound with _ | g
      · exact fits.stays (stays_storeSymbol ..)
      · exact stored b g now

/-- A call takes nothing away. -/
theorem BridgesBound.call (bounds : BridgesBound p) (hb : (p.bridge b).loader < p.loaders.length)
    (text : String) : Stays p (p.call b text).2 ∧ BridgesBound (p.call b text).2 := by
  obtain ⟨stays, bounds, -⟩ := bounds.resolved hb
  rw [Process.call]
  rcases resolve : p.resolved b with ⟨o, q⟩
  rw [resolve] at stays bounds
  cases o with
  | panic => exact ⟨stays, bounds⟩
  | error e => exact ⟨stays, bounds⟩
  | ok r =>
    have heard := heard_invoke q r text
    exact ⟨stays.trans heard.stays, bounds.heard heard⟩

end Process
end Linkage
