import Linkage.Proofs.Loading.Twins
import Linkage.Proofs.Pool.Waiting
import Linkage.Proofs.Session.Reach

/-!
# Failures leave no trace

A failure is not kept: the next request starts over.  `failures_leave_no_trace` says what this
comes to for a loader without a handle, behind any commands.  Of all attempts that have failed
or panicked one state is left, and what their own source has in store; so the next attempt, or
the next call, comes out as it would through a new loader, or bridge, in a process in which
these attempts have never been made.  They may differ in nothing but the numbers of the loaders
and bridges; an opened library even gets the same number.

Locks are given back on the way of a panic too, wherever it comes from, so no lock is lost
with it.
-/

namespace Linkage

open Process

namespace Process

variable {p q r : Process} {l k : LoaderId} {b d : BridgeId}

/-- A loader whose attempts have failed is the twin of a new one, up to its state. -/
theorem Failures.twins (failures : Failures l p q) (made : l < p.loaders.length)
    (unloaded : (p.loader l).handle = none) (world : SameWorld q r) (made' : k < r.loaders.length)
    (fresh : r.loader k = .fresh (p.loader l).library (p.loader l).source) :
    Twins (q.setState l .unloaded) l r k := by
  obtain ⟨state, heard⟩ := failures.heard unloaded
  have reset : (q.setState l .unloaded).loader l = { p.loader l with state := .unloaded } := by
    have heard := (heard.setState l .unloaded).loader l
    rw [heard, setState_setState, loader_setState, if_pos ⟨rfl, made⟩]
  refine ⟨⟨world.host, world.watches, world.libraries, world.registry⟩, ?_, made', ?_⟩
  · rw [(stays_setState ..).loaders_eq, heard.loaders, (stays_setState ..).loaders_eq]
    exact made
  · simp only [fresh, reset, Loader.fresh, unloaded]

end Process

namespace Session

/-- **Failures leave no trace.**  Let a loader behind some commands have no handle, and let
attempts on it have failed or panicked.  They have left a state of the loader behind; they are
heard of, but nothing else has changed, and nothing is taken from other sources.  A call that
makes such an attempt ends with it, and leaves the same.  The next attempt comes out as it does
on a new loader over the same source, in a process in the world before the attempts where this
source has the same in store; both leave twins behind; and the same holds of a call through a
bridge.  Every lock can be taken.  And whatever threads come to from there, with any panics, a
thread that has ended is under no lock, and each lock that no thread is under can be taken. -/
theorem failures_leave_no_trace (host : Host) (cs : List Command) {l : LoaderId} {q : Process}
    (made : l < ((start host).after cs).process.loaders.length)
    (unloaded : (((start host).after cs).process.loader l).handle = none)
    (failures : Failures l ((start host).after cs).process q) :
    let p := ((start host).after cs).process
    (∃ state, Heard (p.setState l state) q) ∧
    (∀ w, (p.loader l).source.watch ≠ some w → q.watches[w]? = p.watches[w]?) ∧
    (∀ b, (p.bridge b).loader = l → ∀ text,
      (∀ e, (q.ensureLoaded l).1 = .error e → q.call b text = (.error e, (q.ensureLoaded l).2)) ∧
      ((q.ensureLoaded l).1 = .panic → q.call b text = (.panic, (q.ensureLoaded l).2))) ∧
    (∀ (r : Process) (k : LoaderId), r.host = p.host → r.libraries = p.libraries →
      r.registry = p.registry → r.watches = q.watches → k < r.loaders.length →
      r.loader k = .fresh (p.loader l).library (p.loader l).source →
      ((r.ensureLoaded k).1 = (q.ensureLoaded l).1 ∧
        Twins (q.ensureLoaded l).2 l (r.ensureLoaded k).2 k) ∧
      ∀ b d, b < p.bridges.length → (p.bridge b).loader = l → d < r.bridges.length →
        r.bridge d = ⟨k, (p.bridge b).symbol, none⟩ → ∀ text,
        (r.call d text).1 = (q.call b text).1 ∧
          TwinBridges (q.call b text).2 b (r.call d text).2 d) ∧
    (∀ k t, (q.acquire? k t).isSome) ∧
    ∀ (goals : List Goal) (pool : Pool), Pool.Reaches ⟨q, goals.map Task.ofGoal⟩ pool →
      (∀ (t : ThreadId) (goal : Goal) (o : Outcome Answer),
        pool.tasks[t]? = some ⟨goal, .done o⟩ → ∀ k, ¬ pool.Under t k) ∧
      ∀ k t, (pool.process.acquire? k t).isSome ↔ ∀ u, ¬ pool.Under u k := by
  intro p
  have rest := (kept_after host cs).rest
  obtain ⟨state, heard⟩ := failures.heard unloaded
  have held : q.held = [] := heard.held.trans rest.held
  have without : (q.loader l).handle = none := by rw [heard.loader, handle_setState, unloaded]
  -- a bridge of a loader without a handle has bound nothing
  have unbound : ∀ b, (p.bridge b).loader = l → q.bridge b = p.bridge b ∧
      (q.bridge b).bound = none := by
    intro b own
    have same : q.bridge b = p.bridge b := heard.bridge b
    refine ⟨same, Option.eq_none_iff_forall_ne_some.mpr fun f bound => ?_⟩
    have handle := (rest.bounds b f (same ▸ bound)).handle
    rw [own, unloaded] at handle
    exact absurd handle (by simp)
  refine ⟨⟨state, heard⟩, fun w other => failures.watches unloaded other, ?_, ?_, ?_, ?_⟩
  · intro b own text
    obtain ⟨same, none⟩ := unbound b own
    have owner : (q.bridge b).loader = l := by rw [same, own]
    constructor
    · intro e failed
      rw [call, resolved, none, owner, ← Prod.eta (q.ensureLoaded l), failed]
    · intro panicked
      rw [call, resolved, none, owner, ← Prod.eta (q.ensureLoaded l), panicked]
  · intro r k around libraries registry watches made' fresh
    have world : SameWorld q r := ⟨around.trans heard.host.symm, watches,
      libraries.trans heard.libraries.symm, registry.trans heard.registry.symm⟩
    have twins := failures.twins made unloaded world made' fresh
    refine ⟨by simpa only [ensureLoaded_setState without] using twins.ensureLoaded, ?_⟩
    intro b d hb own hd new text
    obtain ⟨same, none⟩ := unbound b own
    have owner : (q.bridge b).loader = l := by rw [same, own]
    have bridges : TwinBridges (q.setState l .unloaded) b r d := by
      refine ⟨?_, ?_, hd, ?_, ?_⟩
      · rw [new]
        exact owner.symm ▸ twins
      · exact heard.bridges.symm ▸ hb
      · rw [new]
        exact (congrArg Bridge.symbol same).symm
      · rw [new]
        exact none.symm
    have calls := bridges.call text
    subst owner
    rwa [call_setState without none] at calls
  · intro k t
    simp [Process.acquire?, held]
  · intro goals pool reaches
    have starting : ∀ task ∈ goals.map Task.ofGoal, Pool.Starting task := by
      intro task mem
      obtain ⟨goal, -, rfl⟩ := List.mem_map.mp mem
      exact Task.starting_ofGoal goal
    have locked := (Pool.Locked.of_starting (a := ⟨q, goals.map Task.ofGoal⟩) held
      starting).reaches reaches
    exact ⟨fun t goal o ht k => Pool.not_under_of_done ht, locked.isSome_acquire?_iff⟩

/-- A bridge over a source that panics when it is first asked where the library is, and then
fails once to open it. -/
def flaky : List Command :=
  [.source "s" (.linked "l" [("f", .scalarLength)]) none ⟨[.panic], [.fail], []⟩,
    .bridge "b" (.ok { Config.default with library := "l", symbol := "f" }) (some "s")]

/-- The surroundings of these commands: an empty disk. -/
def flaky.host : Host := ⟨.empty, [], none, none, []⟩

/-- Before the attempts. -/
def flaky.process : Process := ((start flaky.host).after flaky).process

/-- Behind two attempts. -/
def flaky.behind : Process := ((flaky.process.ensureLoaded 0).2.ensureLoaded 0).2

/-- A new bridge where the two attempts have not been made, over a source that has in store what
is left behind them. -/
def flaky.fresh : Process :=
  ({ flaky.process with watches := behind.watches }.newBridge "l" "f"
    (flaky.process.loader 0).source).2

/-- The first attempt panics and the second fails; the call behind them is the same as through
the new bridge, and succeeds. -/
theorem failures_leave_no_trace_flaky :
    (flaky.process.ensureLoaded 0).1 = .panic ∧
      ((flaky.process.ensureLoaded 0).2.ensureLoaded 0).1 =
        .error (.libraryLoad ⟨"<in-process:0>/libl.so"⟩ (.given "injected failure")) ∧
      (flaky.fresh.call 1 "a").1 = (flaky.behind.call 0 "a").1 ∧
      TwinBridges (flaky.behind.call 0 "a").2 0 (flaky.fresh.call 1 "a").2 1 ∧
      (flaky.behind.call 0 "a").1 = .ok 1 := by
  have panics : (flaky.process.ensureLoaded 0).1 = .panic := by decide +kernel
  have fails : ((flaky.process.ensureLoaded 0).2.ensureLoaded 0).1 =
      .error (.libraryLoad ⟨"<in-process:0>/libl.so"⟩ (.given "injected failure")) := by
    decide +kernel
  have failures : Failures 0 flaky.process flaky.behind :=
    .again (.again .start (by simp [panics])) (by simp [fails])
  obtain ⟨-, -, -, next, -⟩ := failures_leave_no_trace flaky.host flaky
    (by decide +kernel) (by decide +kernel) failures
  obtain ⟨-, calls⟩ := next flaky.fresh 1 rfl rfl rfl rfl (by decide +kernel) (by decide +kernel)
  obtain ⟨same, twins⟩ := calls 0 1 (by decide +kernel) (by decide +kernel) (by decide +kernel)
    (by decide +kernel) "a"
  exact ⟨panics, fails, same, twins, by decide +kernel⟩

end Session
end Linkage
