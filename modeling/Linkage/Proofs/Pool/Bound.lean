import Linkage.Proofs.Binding.Bound
import Linkage.Proofs.Pool.Locks

/-!
# What threads have bound

A thread carries the handle and the bound function it has come to from stage to stage,
and `Stage.Fits` says what they are: the handle is that of its loader, and the function
fits its bridge.  Neither needs a lock --- a cell that has been filled keeps what it
holds --- so what one thread carries is not touched by the stages of another.
-/

namespace Linkage

open Process

/-- What a thread carries from stage to stage. -/
def Stage.Fits (p : Process) (goal : Goal) : Stage → Prop
  | .markLoaded h | .leaveLoading (.ok h) => (p.loader (Task.loaderOf p goal)).handle = some h
  | .enterBinding h | .rereadSymbol h | .bind h =>
    (∃ b text, goal = .call b text) ∧ (p.loader (Task.loaderOf p goal)).handle = some h
  | .storeSymbol r | .leaveBinding (.ok r) | .copy r | .invoke r _ =>
    ∃ b text, goal = .call b text ∧ Bound p b r
  | _ => True

namespace Task

variable {self : ThreadId} {p q : Process} {goal : Goal} {s s' : Stage}

/-- What a thread carries it keeps as long as nothing is taken away. -/
theorem fits_of_stays (h : s.Fits p goal) (stays : p.Stays q) : s.Fits q goal := by
  have handle : ∀ {i}, (p.loader (loaderOf p goal)).handle = some i →
      (q.loader (loaderOf q goal)).handle = some i := fun {i} hi => by
    rw [stays.loaderOf]
    exact stays.handle _ _ hi
  have bound : ∀ {r}, (∃ b text, goal = .call b text ∧ Bound p b r) →
      ∃ b text, goal = .call b text ∧ Bound q b r := fun {r} ⟨b, text, hg, fits⟩ =>
    ⟨b, text, hg, fits.stays stays⟩
  cases s with
  | markLoaded => exact handle h
  | enterBinding | rereadSymbol | bind => exact ⟨h.1, handle h.2⟩
  | storeSymbol | copy | invoke => exact bound h
  | leaveLoading o =>
    cases o with
    | ok i => exact handle h
    | error | panic => trivial
  | leaveBinding o =>
    cases o with
    | ok r => exact bound h
    | error | panic => trivial
  | readSymbol | readHandle | enterLoading | rereadHandle | markLoading | locate | findPlace
  | enterRegistry | lookUp | opening | register | leaveRegistry | storeHandle | markFailed | done =>
    trivial

/-- With the handle of its loader a thread that wants a call goes on to the binding. -/
theorem fits_afterLoading {o : Outcome Handle} (h : (Stage.leaveLoading o).Fits p goal) :
    (afterLoading goal o).Fits p goal := by
  cases o with
  | error | panic => trivial
  | ok i =>
    cases goal with
    | load l => trivial
    | call b text => exact ⟨⟨b, text, rfl⟩, h⟩

theorem fits_afterBinding {o : Outcome SymbolReference} (h : (Stage.leaveBinding o).Fits p goal) :
    (afterBinding o).Fits p goal := by
  cases o with
  | error | panic => trivial
  | ok r => exact h

/-- Every bridge keeps what fits it, and the thread carries what fits its bridge. -/
theorem advance_fits (bounds : BridgesBound p) (valid : loaderOf p goal < p.loaders.length)
    (fits : s.Fits p goal) (h : advance self p goal s = some (q, s')) :
    BridgesBound q ∧ s'.Fits q goal := by
  have stays := advance_stays h
  suffices next : BridgesBound q ∧ (BridgesBound q → s'.Fits q goal) from ⟨next.1, next.2 next.1⟩
  constructor
  · cases advance_effect h with
    | reports heard => exact bounds.heard heard
    | locks held hq => exact bounds.of_eq stays.toGrows (hq ▸ rfl)
    | marks state _ heard => exact bounds.of_eq stays.toGrows heard.bridges
    | opens asked => exact bounds.of_eq stays.toGrows asked.bridges
    | registers hq => exact bounds.of_eq stays.toGrows (hq ▸ rfl)
    | stores hq => exact bounds.of_eq stays.toGrows (hq ▸ rfl)
    | binds hq =>
      obtain ⟨b, text, rfl, fits⟩ := fits
      exact hq ▸ bounds.storeSymbol fits
  intro bounds'
  cases s with
  | readSymbol =>
    simp only [advance] at h
    split at h <;> cases h
    · rename_i b text r hr
      exact ⟨b, text, rfl, bounds b r hr⟩
    · trivial
  | readHandle | rereadHandle =>
    simp only [advance] at h
    split at h <;> cases h
    · first | exact fits_afterLoading ‹_› | assumption
    · trivial
  | storeHandle a =>
    cases h
    have hs : ((p.storeHandle (loaderOf p goal) a.handle).loader (loaderOf p goal)).handle =
        (p.loader (loaderOf p goal)).handle.or (some a.handle) := by
      rw [handle_storeHandle, if_pos ⟨rfl, valid⟩]
    show _ = some _
    rw [stays.loaderOf, hs]
    cases (p.loader (loaderOf p goal)).handle <;> rfl
  | markLoaded i =>
    cases h
    exact fits_of_stays (s := .leaveLoading (.ok i)) fits stays
  | leaveLoading o =>
    cases h
    exact fits_of_stays (fits_afterLoading fits) stays
  | rereadSymbol i =>
    obtain ⟨⟨b, text, rfl⟩, handle⟩ := fits
    simp only [advance] at h
    split at h <;> cases h
    · exact ⟨b, text, rfl, bounds b _ ‹_›⟩
    · exact ⟨⟨b, text, rfl⟩, handle⟩
  | bind i =>
    obtain ⟨⟨b, text, rfl⟩, handle⟩ := fits
    simp only [advance] at h
    split at h <;> rename_i bound <;> cases h
    · exact ⟨b, text, rfl, bound_of_bind handle bound⟩
    · trivial
    · trivial
  | storeSymbol r =>
    obtain ⟨b, text, rfl, fits⟩ := fits
    cases h
    refine ⟨b, text, rfl, ?_⟩
    rcases now : ((p.storeSymbol b r).bridge b).bound with _ | g
    · simpa [callOf, now] using fits.stays stays
    · simpa [callOf, now] using bounds' b g now
  | leaveBinding o =>
    cases h
    exact fits_of_stays (fits_afterBinding fits) stays
  | enterBinding i =>
    simp only [advance, Option.map_eq_some_iff] at h
    obtain ⟨_, _, he⟩ := h
    cases he
    exact fits_of_stays (s := .rereadSymbol i) fits stays
  | copy r =>
    simp only [advance] at h
    split at h <;> cases h
    · trivial
    · exact fits
  | enterLoading | enterRegistry =>
    simp only [advance, Option.map_eq_some_iff] at h
    obtain ⟨_, _, he⟩ := h
    cases he
    trivial
  | markLoading | findPlace | register | markFailed =>
    cases h
    trivial
  | leaveRegistry o => cases o <;> cases h <;> trivial
  | locate | lookUp | opening | invoke =>
    simp only [advance] at h
    split at h <;> cases h <;> trivial
  | done => exact absurd h (by simp [advance])

end Task

namespace Pool

variable {a b : Pool} {t : ThreadId} {moments : List Moment}

/-- Every bridge has bound what fits it, and every thread carries what fits its bridge. -/
structure Fitting (pool : Pool) : Prop where
  bounds : BridgesBound pool.process
  valid : ∀ task ∈ pool.tasks,
    Task.loaderOf pool.process task.goal < pool.process.loaders.length
  fits : ∀ task ∈ pool.tasks, task.stage.Fits pool.process task.goal

theorem Fitting.advance (h : a.Fitting) {p : Process} {goal : Goal} {s s' : Stage}
    (ht : a.tasks[t]? = some ⟨goal, s⟩) (ha : Task.advance t a.process goal s = some (p, s')) :
    Fitting ⟨p, a.tasks.set t ⟨goal, s'⟩⟩ := by
  have stays := Task.advance_stays ha
  have mem := List.mem_of_getElem? ht
  have valid := h.valid _ mem
  obtain ⟨bounds, fits⟩ := Task.advance_fits h.bounds valid (h.fits _ mem) ha
  refine ⟨bounds, valid_set h.valid ht ha, fun task htask => ?_⟩
  · rcases List.mem_or_eq_of_mem_set htask with old | rfl
    · exact Task.fits_of_stays (h.fits task old) stays
    · exact fits

/-- **In every run every bridge has bound what fits it.** -/
theorem Run.fitting (run : Run a moments b) (h : a.Fitting) : b.Fitting :=
  run.induct (motive := fun _ b => b.Fitting) h fun _ _ _ _ _ _ _ ih ht ha => ih.advance ht ha

theorem Fitting.of_starting (bounds : BridgesBound a.process)
    (starting : ∀ task ∈ a.tasks, Starting task)
    (valid : ∀ task ∈ a.tasks,
      Task.loaderOf a.process task.goal < a.process.loaders.length) : a.Fitting where
  bounds := bounds
  valid := valid
  fits := fun task ht => by
    rcases starting task ht with hs | hs <;> rw [hs] <;> trivial

end Pool
end Linkage
