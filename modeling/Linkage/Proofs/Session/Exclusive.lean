import Linkage.Proofs.Pool.Openings
import Linkage.Proofs.Pool.Waiting
import Linkage.Proofs.Session.Onlookers
import Linkage.Proofs.Session.Registry

/-!
# Threads open one library at a time

Any threads may ask any loaders for their handles, behind any commands and in any order, and
the sources may open what they are asked for, fail or panic.  `opens_exclusively` puts together
what the locks are for.  The lock of the registry is one for all loaders: it keeps a second
thread out while a source is opening a library, and it keeps a library from being opened for a
place that another thread is about to register.  The lock of a loader keeps a second handle
from it.  What a thread is given is therefore told by the place that its loader was known by at
its load, whichever thread has loaded it.
-/

namespace Linkage

open Process

namespace Pool

variable {a b : Pool} {moments : List Moment}

/-- **A handle that a thread has been given is that of the loader from then on.** -/
theorem Run.answered (run : Run a moments b) (fitting : a.Fitting) {m : Moment}
    (mem : m ∈ moments) {l : LoaderId} {h : Handle} (answered : m.answered? l = some h) :
    (b.process.loader l).handle = some h := by
  refine (run.induct (motive := fun moments b => b.Fitting ∧ ∀ m ∈ moments, ∀ h,
    m.answered? l = some h → (b.process.loader l).handle = some h) ?_ ?_).2 m mem h answered
  · exact ⟨fitting, fun _ mem => absurd mem List.not_mem_nil⟩
  · intro moments b t goal s p s' before ht ha
    obtain ⟨fitting, given⟩ := before
    have stays := Task.advance_stays ha
    refine ⟨fitting.advance ht ha, fun m mem h answered => stays.handle _ _ ?_⟩
    rcases List.mem_append.mp mem with old | new
    · exact given m old h answered
    · obtain rfl := List.mem_singleton.mp new
      exact handle_of_answered fitting ht answered

end Pool

namespace Session

/-- **Only one thread opens at a time, and only what is new.**  Whatever threads have done that
were set on their ways behind some commands: at most one of them is at the opening of a
library, and nothing is registered for the place then; no two libraries have been opened for
one place, by these threads or before; a loader has been written to once if it has a handle now
and had none, and else not at all; and the handles that threads have been given by two loaders
are the same exactly if the places of the two loads are. -/
theorem opens_exclusively (host : Host) (cs : List Command) {goals : List Goal}
    (valid : ∀ goal ∈ goals, Task.loaderOf ((start host).after cs).process goal <
      ((start host).after cs).process.loaders.length)
    {moments : List Moment} {pool : Pool}
    (run : Pool.Run ⟨((start host).after cs).process, goals.map Task.ofGoal⟩ moments pool) :
    let p := ((start host).after cs).process
    let ev := (start host).history cs ++ historyOf moments
    (∀ (t : ThreadId) (goal : Goal) (path key : Path),
      pool.tasks[t]? = some ⟨goal, .opening path key⟩ →
        key = pool.process.host.registryKey path ∧ pool.process.registered? key = none ∧
        ∀ (u : ThreadId) (goal' : Goal) (path' key' : Path),
          pool.tasks[u]? = some ⟨goal', .opening path' key'⟩ → u = t) ∧
    (p.registry.map (·.1) ++ moments.filterMap Moment.opened?).Pairwise (fun j k => ¬ j.same k) ∧
    (∀ l, (p.loader l).handle.toList ++ moments.filterMap (Moment.stored? l) =
      (pool.process.loader l).handle.toList) ∧
    ∀ l k i j, (∃ m ∈ moments, m.answered? l = some i) → (∃ m ∈ moments, m.answered? k = some j) →
      ∃ around a around' b, .loaded l around a ∈ ev ∧ .loaded k around' b ∈ ev ∧
        a.key = around.registryKey a.path ∧ b.key = around'.registryKey b.path ∧
        a.handle = i ∧ b.handle = j ∧ (i = j ↔ a.key.same b.key) := by
  intro p ev
  have rest := (kept_after host cs).rest
  have starting : ∀ task ∈ goals.map Task.ofGoal, Pool.Starting task := by
    intro task mem
    obtain ⟨goal, -, rfl⟩ := List.mem_map.mp mem
    exact Task.starting_ofGoal goal
  have valid : ∀ task ∈ goals.map Task.ofGoal, Task.loaderOf p task.goal < p.loaders.length := by
    intro task mem
    obtain ⟨goal, hg, rfl⟩ := List.mem_map.mp mem
    cases goal <;> exact valid _ hg
  have begun := Pool.Accounted.of_starting (a := ⟨p, goals.map Task.ofGoal⟩) rest.toBalanced
    rest.held starting valid
  have fitting := Pool.Fitting.of_starting (a := ⟨p, goals.map Task.ofGoal⟩) rest.bounds
    starting valid
  have accounted : pool.Accounted ev := run.accounted begun
  have loads : ∀ l i, (∃ m ∈ moments, m.answered? l = some i) →
      ∃ around a, .loaded l around a ∈ ev ∧ a.key = around.registryKey a.path ∧ a.handle = i := by
    rintro l i ⟨m, mem, answered⟩
    obtain ⟨a, loads, handle⟩ :=
      accounted.account.loads_of_handle (run.answered fitting mem answered)
    obtain ⟨around, ha⟩ := History.mem_loads.mp (loads ▸ List.mem_singleton_self a)
    exact ⟨around, a, ha, (accounted.account.loaded l around a ha).2, handle⟩
  refine ⟨fun t goal path key ht => ?_, (run.openings begun (.of_account begun.account)).apart,
    run.stored begun, ?_⟩
  · obtain ⟨⟨-, found⟩, -, new⟩ := accounted.owes _ (List.mem_of_getElem? ht)
    exact ⟨found.2, new, fun u goal' path' key' hu =>
      accounted.locked.unique (k := .registry) ⟨_, _, hu, rfl⟩ ⟨_, _, ht, rfl⟩⟩
  · intro l k i j given given'
    obtain ⟨around, a, ha, key, rfl⟩ := loads l i given
    obtain ⟨around', b, hb, key', rfl⟩ := loads k j given'
    exact ⟨around, a, around', b, ha, hb, key, key', rfl, rfl, accounted.account.handle_eq_iff
      (History.mem_loads.mpr ⟨_, ha⟩) (History.mem_loads.mpr ⟨_, hb⟩)⟩

/-- Three loaders over one source, which panics when it is first asked to open the library. -/
def rivals : List Command :=
  [.source "s" (.linked "l" [("f", .scalarLength)]) none ⟨[], [.panic], []⟩,
    .loader "a" "s" "l", .loader "b" "s" "l", .loader "c" "s" "l"]

/-- The surroundings of these commands: an empty disk. -/
def rivals.host : Host := ⟨.empty, [], none, none, []⟩

/-- One thread for each of the loaders. -/
def rivals.pool : Pool :=
  ⟨((start host).after rivals).process, [.load 0, .load 1, .load 2].map Task.ofGoal⟩

/-- The third thread goes on until it is to take the lock of the registry, and then the threads
go on to their ends one after the other. -/
def rivals.schedule : List ThreadId :=
  List.replicate 6 2 ++ List.replicate 11 0 ++ List.replicate 14 1 ++ List.replicate 6 2

/-- What they do in this, and what they come to. -/
def rivals.behind : List Moment × Pool := (rivals.pool.follow schedule).get (by decide +kernel)

theorem rivals.run : Pool.Run rivals.pool rivals.behind.1 rivals.behind.2 := by
  have follows : rivals.pool.follow schedule = some (behind.1, behind.2) := by
    rw [Prod.eta]
    exact (Option.some_get _).symm
  exact Pool.run_of_follow follows

/-- The first thread panics at the opening.  The second opens the library; the third is given
the same handle, since the places of the two loads are the same. -/
theorem opens_exclusively_behind_panic :
    rivals.behind.2.outcomes =
        [some .panic, some (.ok (.handle 0)), some (.ok (.handle 0))] ∧
      (rivals.behind.1.filterMap Moment.opened?).Pairwise (fun j k => ¬ j.same k) ∧
      rivals.behind.1.filterMap (Moment.stored? 2) = [0] ∧
      let ev := (start rivals.host).history rivals ++ historyOf rivals.behind.1
      ∃ around a around' b, .loaded 1 around a ∈ ev ∧ .loaded 2 around' b ∈ ev ∧
        a.key.same b.key := by
  have valid : ∀ goal ∈ [Goal.load 0, .load 1, .load 2],
      Task.loaderOf ((start rivals.host).after rivals).process goal <
        ((start rivals.host).after rivals).process.loaders.length := by decide +kernel
  have given : ∀ l ∈ [1, 2], ∃ m ∈ rivals.behind.1, m.answered? l = some 0 := by decide +kernel
  obtain ⟨-, apart, stored, handles⟩ := opens_exclusively rivals.host rivals valid rivals.run
  obtain ⟨around, a, around', b, ha, hb, -, -, -, -, same⟩ :=
    handles 1 2 0 0 (given 1 (by simp)) (given 2 (by simp))
  have before : (((start rivals.host).after rivals).process.loader 2).handle = none := by
    decide +kernel
  have behind : (rivals.behind.2.process.loader 2).handle = some 0 := by decide +kernel
  have once := stored 2
  rw [before, behind, Option.toList_none, List.nil_append, Option.toList_some] at once
  exact ⟨by decide +kernel, (List.pairwise_append.mp apart).2.1, once, around, a, around', b, ha,
    hb, same.mp rfl⟩

end Session
end Linkage
