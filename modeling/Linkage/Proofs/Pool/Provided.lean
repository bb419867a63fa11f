import Linkage.Proofs.Binding.Provided

/-!
# What threads bind is what libraries give

A thread carries a function that it has looked up for one stage, from the lookup to the cell
of its bridge.  This function is given by the library, as long as lookups pass, and so is
whatever the bridges have bound behind every run (`Run.remembers`).
-/

namespace Linkage

open Process

/-- A thread that is to store a function has it from the library. -/
def Stage.Brings (watch : Option WatchId) (p : Process) : Stage → Prop
  | .storeSymbol r => Provided watch p r
  | _ => True

namespace Pool

variable {a b : Pool} {moments : List Moment} {watch : Option WatchId}

/-- While lookups pass, bridges keep bound what their libraries give. -/
theorem threaded_remembers (watch : Option WatchId) :
    Threaded (fun p => Passing watch p ∧ Remembers watch p) (fun p _ s => s.Brings watch p) where
  others := fun {p q goal s} stays brings => by
    cases s with
    | storeSymbol => exact Provided.extends brings stays.libraries
    | _ => trivial
  next := fun {t p q goal s s'} ⟨passing, remembers⟩ brings ha => by
    have stays := Task.advance_stays ha
    refine ⟨⟨passing.dwindles (Task.advance_dwindles ha), ?_⟩, ?_⟩
    · cases Task.advance_effect ha with
      | reports heard => exact remembers.heard heard
      | locks held hq => exact remembers.of_eq stays.libraries (hq ▸ rfl)
      | marks state _ heard => exact remembers.of_eq stays.libraries heard.bridges
      | opens asked => exact remembers.of_eq stays.libraries asked.bridges
      | registers hq => exact remembers.of_eq stays.libraries (hq ▸ rfl)
      | stores hq => exact remembers.of_eq stays.libraries (hq ▸ rfl)
      | binds hq => exact hq ▸ remembers.storeSymbol brings
    · cases s' with
      | storeSymbol r =>
        obtain ⟨i, bound⟩ := Task.advance_handed ha
        exact (provided_of_bind passing bound).extends stays.libraries
      | _ => trivial

/-- **Behind every run bridges have bound what their libraries give**, as long as lookups
pass. -/
theorem Run.remembers (run : Run a moments b) (passing : Passing watch a.process)
    (remembers : Remembers watch a.process) (starting : ∀ task ∈ a.tasks, Starting task) :
    Remembers watch b.process := by
  refine (run.threaded (threaded_remembers watch) ⟨passing, remembers⟩ fun task mem => ?_).1.2
  rcases starting task mem with hs | hs <;> rw [hs] <;> trivial

end Pool
end Linkage
