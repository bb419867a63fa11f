import Linkage.Proofs.Pool.Waiting
import Linkage.Proofs.Session.Reach

/-!
# Threads do not block each other

Let any threads call bridges and ask loaders for their handles behind any commands, and let
what they call panic wherever it may.  `calls_go_on` says that they always get on: some thread
can make its next step until all have ended, no threads wait for each other in a circle, and
where no call is under way all locks are free.

A thread that makes several calls one after the other is here one thread for each of them,
where the next begins behind the end of the one before.  Who begins when is left open, so this
is among the orders in which the threads may go on.
-/

namespace Linkage
namespace Session

/-- **There is no deadlock.**  Whatever threads have come to that were set on their ways
behind some commands, with panics of what they call: if one of them has not ended, some thread
can go on; no threads wait for each other in a circle; if each of them has not begun or has
ended, no lock is held; and by their own steps they come to where all have ended and no lock
is held. -/
theorem calls_go_on (host : Host) (cs : List Command) (goals : List Goal) {pool : Pool}
    (reached : Pool.Reaches ⟨((start host).after cs).process, goals.map Task.ofGoal⟩ pool) :
    ((∃ task ∈ pool.tasks, ∀ o, task.stage ≠ .done o) → ∃ t next, pool.step? t = some next) ∧
    (∀ t, ¬ Relation.TransGen pool.WaitsFor t t) ∧
    ((∀ task ∈ pool.tasks, task.Idle) → pool.process.held = []) ∧
    ∃ behind, Relation.ReflTransGen Pool.Step pool behind ∧
      (∀ task ∈ behind.tasks, ∃ o, task.stage = .done o) ∧ behind.process.held = [] := by
  have starting : ∀ task ∈ goals.map Task.ofGoal, Pool.Starting task := by
    intro task mem
    obtain ⟨goal, -, rfl⟩ := List.mem_map.mp mem
    exact Task.starting_ofGoal goal
  have locked : pool.Locked :=
    (Pool.Locked.of_starting (kept_after host cs).rest.held starting).reaches reached
  exact ⟨fun ⟨_, mem, unfinished⟩ => locked.exists_step mem unfinished,
    locked.not_waits_in_circle, locked.held_of_idle, locked.exists_ended⟩

/-- A bridge and a loader over the same functions. -/
def contended : List Command :=
  [.source "s" (.linked "l" [("f", .scalarLength)]) none .none,
    .bridge "b" (.ok { Config.default with library := "l", symbol := "f" }) (some "s"),
    .loader "k" "s" "l"]

/-- One thread is to call the bridge, and another to ask the loader for its handle. -/
def contended.pool : Pool :=
  ⟨((start ⟨.empty, ["gone"], none, none, []⟩).after contended).process,
    [.call 0 "a", .load 1].map Task.ofGoal⟩

/-- The first thread goes on until it is to open the library, and the second until it is to
take the lock of the registry. -/
def contended.schedule : List ThreadId := List.replicate 9 0 ++ List.replicate 6 1

/-- What they do in this, and what they come to. -/
def contended.behind : List Moment × Pool := (contended.pool.follow schedule).get (by decide)

theorem contended.follow_schedule : contended.pool.follow schedule = some contended.behind :=
  (Option.some_get _).symm

/-- The opening panics.  The second thread waits for the first, which can go on, and when both
have ended no lock is held. -/
theorem calls_go_on_panicking :
    ∃ pool, contended.pool.Reaches pool ∧ pool.WaitsFor 1 0 ∧
      (∃ t next, pool.step? t = some next) ∧ ¬ Relation.TransGen pool.WaitsFor 1 1 ∧
      ∃ behind, Relation.ReflTransGen Pool.Step pool behind ∧ behind.process.held = [] := by
  have opening : contended.behind.2.tasks[0]? = some ⟨.call 0 "a", .opening
      ⟨"<in-process:0>/libl.so"⟩ ⟨"<in-process:0>/libl.so"⟩⟩ := rfl
  have reached := (Pool.run_of_follow contended.follow_schedule).reaches.tail (.breaks opening rfl)
  obtain ⟨onward, circles, -, behind, steps, -, free⟩ := calls_go_on _ contended _ reached
  refine ⟨_, reached, ⟨.load 1, .enterRegistry _ _, .registry, rfl, rfl, by decide⟩, ?_,
    circles 1, behind, steps, free⟩
  exact onward ⟨⟨.call 0 "a", .leaveRegistry .panic⟩, List.mem_cons_self, fun o => by simp⟩

end Session
end Linkage
