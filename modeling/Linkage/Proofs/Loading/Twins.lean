import Linkage.Proofs.Binding.Bound
import Linkage.Proofs.Loading.Failing
import Linkage.Proofs.Process.World

/-!
# Twins

Two loaders in one world that hold the same are twins (`Twins`), and so are two bridges over
twins that bind the same name and have bound the same (`TwinBridges`).  Twins cannot be told
apart: a request to one is answered like a request to the other, and leaves twins behind
(`Twins.ensureLoaded`, `TwinBridges.call`), so this goes on however often they are asked.

A loader without a handle is the twin of a new one over the same source up to its state, and
the state is not read.
-/

namespace Linkage
namespace Process

variable {p q p' q' : Process} {l k : LoaderId} {b d : BridgeId}

/-- Loaders of two processes in one world that hold the same. -/
structure Twins (p : Process) (l : LoaderId) (q : Process) (k : LoaderId) : Prop where
  world : SameWorld p q
  left : l < p.loaders.length
  right : k < q.loaders.length
  same : q.loader k = p.loader l

/-- Bridges over twins that bind the same name and have bound the same. -/
structure TwinBridges (p : Process) (b : BridgeId) (q : Process) (d : BridgeId) : Prop where
  owners : Twins p (p.bridge b).loader q (q.bridge d).loader
  left : b < p.bridges.length
  right : d < q.bridges.length
  symbol : (q.bridge d).symbol = (p.bridge b).symbol
  bound : (q.bridge d).bound = (p.bridge b).bound

namespace Twins

theorem of_loaders (h : Twins p l q k) (world : SameWorld p' q') (left : p'.loaders = p.loaders)
    (right : q'.loaders = q.loaders) : Twins p' l q' k where
  world := world
  left := left ▸ h.left
  right := right ▸ h.right
  same := by rw [loader, right, ← loader, h.same, loader, ← left, ← loader]

theorem setState (h : Twins p l q k) (s : LoadState) :
    Twins (p.setState l s) l (q.setState k s) k where
  world := h.world.setState ..
  left := (stays_setState p l s).loaders_eq ▸ h.left
  right := (stays_setState q k s).loaders_eq ▸ h.right
  same := by
    rw [loader_setState, if_pos ⟨rfl, h.right⟩, loader_setState, if_pos ⟨rfl, h.left⟩, h.same]

theorem storeHandle (h : Twins p l q k) (i : Handle) :
    Twins (p.storeHandle l i) l (q.storeHandle k i) k where
  world := h.world.storeHandle ..
  left := (stays_storeHandle p l i).loaders_eq ▸ h.left
  right := (stays_storeHandle q k i).loaders_eq ▸ h.right
  same := by
    rw [loader_storeHandle, if_pos ⟨rfl, h.right⟩, loader_storeHandle, if_pos ⟨rfl, h.left⟩, h.same]

/-- **Twins answer alike and stay twins.** -/
theorem ensureLoaded (h : Twins p l q k) :
    (q.ensureLoaded k).1 = (p.ensureLoaded l).1 ∧
      Twins (p.ensureLoaded l).2 l (q.ensureLoaded k).2 k := by
  simp only [Process.ensureLoaded]
  rw [h.same]
  cases (p.loader l).handle with
  | some i => exact ⟨rfl, h⟩
  | none =>
    have begun := h.setState .loading
    have left := (load_leaves (p.setState l .loading) l).1
    have right := (load_leaves (q.setState k .loading) k).1
    obtain ⟨o, p', q', hp, hq, world⟩ :=
      (begun.world.load (congrArg Loader.library begun.same)
        (congrArg Loader.source begun.same)).split
    rw [hp] at left
    rw [hq] at right
    have tried : Twins p' l q' k := begun.of_loaders world left right
    dsimp only
    rw [hp, hq]
    cases o with
    | panic => exact ⟨rfl, tried⟩
    | error e =>
      have marked := tried.setState .failed
      exact ⟨rfl, marked.of_loaders (marked.world.note ..) rfl rfl⟩
    | ok a =>
      have stored := tried.storeHandle a.handle
      have marked := stored.setState .loaded
      refine ⟨?_, marked.of_loaders (marked.world.note ..) rfl rfl⟩
      simp only [finishLoaded, stored.same]

end Twins

namespace TwinBridges

/-- What leaves loaders and bridges alone leaves twins. -/
theorem of_cells (h : TwinBridges p b q d) (world : SameWorld p' q') (hp : p'.loaders = p.loaders)
    (hq : q'.loaders = q.loaders) (hp' : p'.bridges = p.bridges) (hq' : q'.bridges = q.bridges) :
    TwinBridges p' b q' d := by
  have left : p'.bridge b = p.bridge b := by rw [bridge, hp', ← bridge]
  have right : q'.bridge d = q.bridge d := by rw [bridge, hq', ← bridge]
  refine ⟨?_, hp' ▸ h.left, hq' ▸ h.right, ?_, ?_⟩
  · rw [left, right]
    exact h.owners.of_loaders world hp hq
  · rw [left, right, h.symbol]
  · rw [left, right, h.bound]

theorem heard (h : TwinBridges p b q d) (world : SameWorld p' q') (hp : Heard p p')
    (hq : Heard q q') : TwinBridges p' b q' d :=
  h.of_cells world hp.loaders hq.loaders hp.bridges hq.bridges

theorem storeSymbol (h : TwinBridges p b q d) (f : SymbolReference) :
    TwinBridges (p.storeSymbol b f) b (q.storeSymbol d f) d where
  owners := by
    rw [owner_storeSymbol, owner_storeSymbol]
    exact h.owners.of_loaders (h.owners.world.storeSymbol ..) rfl rfl
  left := (stays_storeSymbol p b f).bridges_eq ▸ h.left
  right := (stays_storeSymbol q d f).bridges_eq ▸ h.right
  symbol := by rw [symbol_storeSymbol, symbol_storeSymbol, h.symbol]
  bound := by
    rw [bound_storeSymbol, if_pos ⟨rfl, h.right⟩, bound_storeSymbol, if_pos ⟨rfl, h.left⟩, h.bound]

theorem resolved (h : TwinBridges p b q d) :
    (q.resolved d).1 = (p.resolved b).1 ∧ TwinBridges (p.resolved b).2 b (q.resolved d).2 d := by
  simp only [Process.resolved]
  rw [h.bound]
  cases (p.bridge b).bound with
  | some f => exact ⟨rfl, h⟩
  | none =>
    obtain ⟨outcome, owners⟩ := h.owners.ensureLoaded
    have left := bridges_ensureLoaded p (p.bridge b).loader
    have right := bridges_ensureLoaded q (q.bridge d).loader
    rcases hp : p.ensureLoaded (p.bridge b).loader with ⟨o, p'⟩
    rcases hq : q.ensureLoaded (q.bridge d).loader with ⟨o', q'⟩
    rw [hp, hq] at outcome owners
    rw [hp] at left
    rw [hq] at right
    obtain rfl : o' = o := outcome
    have here : p'.bridge b = p.bridge b := by rw [bridge, left, ← bridge]
    have there : q'.bridge d = q.bridge d := by rw [bridge, right, ← bridge]
    have loaded : TwinBridges p' b q' d := by
      refine ⟨?_, left ▸ h.left, right ▸ h.right, ?_, ?_⟩
      · rw [here, there]
        exact owners
      · rw [here, there, h.symbol]
      · rw [here, there, h.bound]
    cases o' with
    | panic => exact ⟨rfl, loaded⟩
    | error e => exact ⟨rfl, loaded⟩
    | ok i =>
      have heard := heard_bind p' b i
      have heard' := heard_bind q' d i
      obtain ⟨o, p'', q'', hp, hq, world⟩ := (loaded.owners.world.bind i loaded.symbol).split
      rw [hp] at heard
      rw [hq] at heard'
      have tried : TwinBridges p'' b q'' d := loaded.heard world heard heard'
      dsimp only
      rw [hp, hq]
      cases o with
      | panic => exact ⟨rfl, tried⟩
      | error e => exact ⟨rfl, tried⟩
      | ok f =>
        have stored := tried.storeSymbol f
        exact ⟨congrArg (fun bound => Outcome.ok (Option.getD bound f)) stored.bound, stored⟩

/-- **Calls through twins answer alike and leave twins.** -/
theorem call (h : TwinBridges p b q d) (text : String) :
    (q.call d text).1 = (p.call b text).1 ∧
      TwinBridges (p.call b text).2 b (q.call d text).2 d := by
  obtain ⟨outcome, twins⟩ := h.resolved
  simp only [Process.call]
  rcases hp : p.resolved b with ⟨o, p'⟩
  rcases hq : q.resolved d with ⟨o', q'⟩
  rw [hp, hq] at outcome twins
  obtain rfl : o' = o := outcome
  cases o' with
  | panic => exact ⟨rfl, twins⟩
  | error e => exact ⟨rfl, twins⟩
  | ok f =>
    have answered := twins.owners.world.invoke f text
    exact ⟨answered.outcome, twins.heard answered.world (heard_invoke ..) (heard_invoke ..)⟩

end TwinBridges
end Process
end Linkage
