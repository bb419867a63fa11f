import Linkage.Proofs.Loading.Opened
import Linkage.Proofs.Pool.Origins

/-!
# What threads enter into a history

Between the opening of a library and its entry into the registry a thread carries the new
handle for one stage.  The library holds what the source of the loader has opened, and no
other thread can change this.  Nor can one change the path that a thread carries, so everything
in the history of a run has come from the source of a loader (`Run.entered`).
-/

namespace Linkage

open Process

/-- A thread that is to register a library has opened it from the source of its loader. -/
def Stage.Holds (terms : Terms) (p : Process) (goal : Goal) : Stage → Prop
  | .register a => p.Holds terms (Task.loaderOf p goal) a
  | _ => True

namespace Pool

variable {a b : Pool} {moments : List Moment} {terms : Terms}

/-- Threads keep what the sources of their loaders have answered and opened. -/
theorem threaded_entered :
    Threaded (Within terms) (fun p goal s =>
      Task.loaderOf p goal < p.loaders.length ∧ s.Located terms p goal ∧ s.Holds terms p goal) where
  others := fun {p q goal s} stays ⟨valid, located, holds⟩ => by
    refine ⟨by rwa [stays.loaderOf, stays.loaders_eq], Task.located_of_stays located stays, ?_⟩
    cases s with
    | register a =>
      show q.Holds terms (Task.loaderOf q goal) a
      rw [stays.loaderOf]
      exact Process.Holds.stays holds stays
    | _ => trivial
  next := fun {t p q goal s s'} within ⟨valid, located, _⟩ ha => by
    have stays := Task.advance_stays ha
    refine ⟨within.dwindles (Task.advance_dwindles ha), by rwa [stays.loaderOf, stays.loaders_eq],
      Task.advance_located within located ha, ?_⟩
    cases s' with
    | register a =>
      show q.Holds terms (Task.loaderOf q goal) a
      rw [stays.loaderOf]
      exact holds_of_openLibrary within (Task.advance_handed ha)
    | _ => trivial

/-- **What a run enters into the history has come from the sources of its loaders.** -/
theorem Run.entered (run : Run a moments b) (within : a.process.Within terms)
    (starting : ∀ task ∈ a.tasks, Starting task)
    (valid : ∀ task ∈ a.tasks, Task.loaderOf a.process task.goal < a.process.loaders.length)
    {e : Event} (mem : e ∈ historyOf moments) : b.process.Entered terms e := by
  have past := (run.threaded threaded_entered within fun task mem => by
    refine ⟨valid task mem, ?_⟩
    rcases starting task mem with hs | hs <;> rw [hs] <;> exact ⟨trivial, trivial⟩).2.2
  obtain ⟨m, hm, event⟩ := List.mem_filterMap.mp mem
  obtain ⟨-, ⟨valid, located, holds⟩, stays⟩ := past m hm
  refine Entered.grows ?_ stays.toGrows
  -- a stage that enters something carries it
  obtain ⟨p, t, goal, s⟩ := m
  cases s with
  | findPlace =>
    obtain rfl := Option.some.inj event
    trivial
  | register =>
    obtain rfl := Option.some.inj event
    exact ⟨valid, located, holds⟩
  | storeHandle =>
    obtain rfl := Option.some.inj event
    exact ⟨valid, located⟩
  | _ => exact absurd event (by simp [Moment.event?, Stage.event?])

end Pool
end Linkage
