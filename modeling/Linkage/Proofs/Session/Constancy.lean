import Linkage.Proofs.Bridge.Stages
import Linkage.Proofs.Session.Registry
import Linkage.Proofs.Session.Standing

/-!
# What is set goes together, and stays

Where a loader stands is kept in two places, the handle and the state, and what a bridge
has bound in a third.  Each operation writes only some of them, and a panic may come between
two writes.  Between commands they agree all the same: the state of a loader is `loaded`
exactly if it has a handle (`rests_after`), and a bound function comes from the library
with that handle (`BridgesBound`).

Neither is ever unset.  A handle and a bound function stay in their cells (`Grows`), so the
state stays with the handle, and so does the path, since a library keeps the path at which
it was opened (`Account.loadedPath?_eq`).
-/

namespace Linkage

open Process

namespace Account

variable {p q : Process} {ev : History} {l : LoaderId} {h : Handle}

/-- The path of a loaded library stays what it is. -/
theorem loadedPath?_eq (account : Account p ev) (grows : Grows p q)
    (hh : (p.loader l).handle = some h) : q.loadedPath? l = p.loadedPath? l := by
  have path : q.pathOf h = p.pathOf h :=
    pathOf_eq_of_extends grows.libraries (account.lt_of_handle hh)
  rw [loadedPath?, loadedPath?, hh, grows.handle l h hh, Option.map_some, Option.map_some, path]

end Account

namespace Process

variable {p q r : Process} {b : BridgeId} {h : Handle} {o : Outcome SymbolReference}

/-- A binding that does not succeed leaves the handle of the loader, and nothing is bound. -/
theorem Binds.leaves (binds : Binds p b h o q) (failed : ∀ f, o ≠ .ok f) :
    q.loaders = p.loaders ∧ (q.bridge b).bound = none := by
  have heard := heard_resolve p h (p.bridge b).symbol .callable
  cases binds with
  | cached | binds => exact absurd rfl (failed _)
  | panics bound resolved =>
    rw [resolved] at heard
    exact ⟨heard.loaders, by rw [heard.bridge, bound]⟩
  | fails bound resolved =>
    rw [resolved] at heard
    exact ⟨heard.loaders, by rw [(heard_note ..).bridge, heard.bridge, bound]⟩

/-- A call whose binding does not succeed ends there. -/
theorem call_eq_of_binds (bounds : BridgesBound p) (load : Loads p (p.bridge b).loader (.ok h) q)
    (binds : Binds q b h o r) (failed : ∀ f, o ≠ .ok f) (text : String) :
    (p.call b text).2 = r := by
  cases o with
  | ok f => exact absurd rfl (failed f)
  | error e => rw [(Calls.notBound load binds).eq_call bounds]
  | panic => rw [(Calls.bindPanics load binds).eq_call bounds]

end Process

namespace Session

/-- **State, handle and bound function agree between commands, and none is ever unset.**
Behind any commands, whatever has failed or panicked in them: a loader is `loaded` exactly
if it has a handle, and exactly if it has the path of a library; and a bridge that has bound
a function has a loader that is `loaded`, and the function comes from the library with the
loader's handle, under the name that the bridge binds and with the one shape that can be
called.  Behind any further commands a loader that was `loaded` is so still, with the same
handle and the same path, and a bridge has the function that it had.  A call that comes to
its binding and does not get over it leaves a loader that is `loaded`, with the handle of
that call. -/
theorem set_together_for_good (host : Host) (cs : List Command) :
    let p := ((start host).after cs).process
    (∀ l, ((p.loader l).state = .loaded ↔ (p.loader l).handle.isSome) ∧
      ((p.loader l).state = .loaded ↔ (p.loadedPath? l).isSome)) ∧
    (∀ b r, (p.bridge b).bound = some r →
      (p.loader (p.bridge b).loader).state = .loaded ∧
      (p.loader (p.bridge b).loader).handle = some r.handle ∧
      r.name = (p.bridge b).symbol ∧ r.signature = ⟨[.charPtr], .int64⟩) ∧
    (∀ cs', let q := ((start host).after (cs ++ cs')).process
      (∀ l, (p.loader l).state = .loaded →
        (q.loader l).state = .loaded ∧ (q.loader l).handle = (p.loader l).handle ∧
        q.loadedPath? l = p.loadedPath? l) ∧
      (∀ b r, (p.bridge b).bound = some r → (q.bridge b).bound = some r) ∧
      ∀ b < p.bridges.length, (q.bridge b).symbol = (p.bridge b).symbol ∧
        (q.bridge b).loader = (p.bridge b).loader) ∧
    ∀ b < p.bridges.length, ∀ h q o r text, Loads p (p.bridge b).loader (.ok h) q →
      Binds q b h o r → (∀ f, o ≠ .ok f) →
      (p.call b text).2 = r ∧ (r.loader (p.bridge b).loader).state = .loaded ∧
      (r.loader (p.bridge b).loader).handle = some h ∧ (r.bridge b).bound = none := by
  intro p
  have rests := rests_after host cs
  have kept := kept_after host cs
  have account : Account p _ := kept.rest.toAccount
  have bounds : BridgesBound p := kept.rest.bounds
  have loaded : ∀ l, (p.loader l).state = .loaded ↔ (p.loader l).handle.isSome :=
    fun l => (rests l).isSome_handle.symm
  refine ⟨?_, ?_, ?_, ?_⟩
  · intro l
    refine ⟨loaded l, ?_⟩
    rw [loaded, loadedPath?, Option.isSome_map]
  · intro b r bound
    have fits := bounds b r bound
    exact ⟨(loaded _).mpr (by rw [fits.handle]; rfl), fits.handle, fits.name, fits.signature⟩
  · intro cs' q
    have grows : Grows p ((start host).after (cs ++ cs')).process := by
      rw [after_append]
      exact (kept.after cs').2
    refine ⟨?_, grows.bound, fun b hb => ⟨grows.symbol b hb, grows.owner b hb⟩⟩
    intro l state
    obtain ⟨h, hh⟩ := Option.isSome_iff_exists.mp ((loaded l).mp state)
    have later := grows.handle l h hh
    refine ⟨?_, by rw [later, hh], account.loadedPath?_eq grows hh⟩
    exact (rests_after host (cs ++ cs') l).isSome_handle.mp (by rw [later]; rfl)
  · intro b hb h q o r text load binds failed
    have valid := kept.rest.owners b hb
    obtain ⟨loaders, unbound⟩ := binds.leaves failed
    have behind := call_eq_of_binds bounds load binds failed text
    have handle : (r.loader (p.bridge b).loader).handle = some h := by
      rw [loader, loaders, ← loader]
      exact handle_of_ensureLoaded valid load.eq_ensureLoaded
    refine ⟨behind, ?_, handle, unbound⟩
    have settled := (rests_call (rests (p.bridge b).loader) valid text).isSome_handle
    exact behind ▸ settled.mp (by rw [behind, handle]; rfl)

end Session
end Linkage
