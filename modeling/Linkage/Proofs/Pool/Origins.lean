import Linkage.Proofs.Loading.Origins
import Linkage.Proofs.Pool.Account

/-!
# The paths that threads carry

A thread carries the path that a source has answered from stage to stage, until its loader
has the handle.  That the source may answer this path needs no lock: neither the disk nor the
working directory changes while threads run, a loader keeps its source, and scripts are only
used up (`Task.advance_dwindles`, `Task.advance_located`).
-/

namespace Linkage

open Process

/-- The path that a thread carries is an answer of the source of its loader. -/
def Stage.Located (terms : Terms) (p : Process) (goal : Goal) : Stage → Prop
  | .findPlace path | .enterRegistry path _ | .lookUp path _ | .opening path _ =>
    p.Locates terms (Task.loaderOf p goal) p.host path
  | .register a | .leaveRegistry (.ok a) | .storeHandle a =>
    p.Locates terms (Task.loaderOf p goal) p.host a.path
  | _ => True

namespace Task

variable {self : ThreadId} {p q : Process} {goal : Goal} {s s' : Stage} {terms : Terms}

theorem locates_of_stays {path : Path} (stays : p.Stays q)
    (h : p.Locates terms (loaderOf p goal) p.host path) :
    q.Locates terms (loaderOf q goal) q.host path := by
  rw [stays.loaderOf]
  exact (h.stays stays).of_host stays.files stays.cwd

theorem located_of_stays (h : s.Located terms p goal) (stays : p.Stays q) :
    s.Located terms q goal := by
  cases s with
  | findPlace | enterRegistry | lookUp | opening | register | storeHandle =>
    exact locates_of_stays stays h
  | leaveRegistry o =>
    cases o with
    | ok a => exact locates_of_stays stays h
    | error | panic => trivial
  | _ => trivial

/-- A stage takes at most a verdict from a watch. -/
theorem advance_dwindles (h : advance self p goal s = some (q, s')) : Dwindles p q := by
  cases s with
  | readSymbol | readHandle | rereadHandle | rereadSymbol | copy | lookUp =>
    simp only [advance] at h
    split at h <;> cases h <;> exact .of_watches rfl rfl
  | enterLoading | enterRegistry | enterBinding =>
    simp only [advance, Option.map_eq_some_iff] at h
    obtain ⟨_, taken, he⟩ := h
    cases he
    obtain ⟨-, rfl⟩ := acquire_spec taken
    exact .of_watches rfl rfl
  | markLoading | findPlace | register | storeHandle | markLoaded | markFailed | leaveLoading
  | storeSymbol | leaveBinding =>
    cases h
    exact .of_watches rfl rfl
  | leaveRegistry o => cases o <;> cases h <;> exact .of_watches rfl rfl
  | locate =>
    have asked := dwindles_locate p (p.loader (loaderOf p goal)).source
      (p.loader (loaderOf p goal)).library (some (loaderOf p goal))
    simp only [advance] at h
    split at h <;> rename_i found <;> cases h <;> rw [found] at asked <;> exact asked
  | opening path =>
    have asked := dwindles_openLibrary p (p.loader (loaderOf p goal)).source path
      (some (loaderOf p goal))
    simp only [advance] at h
    split at h <;> rename_i opened <;> cases h <;> rw [opened] at asked <;> exact asked
  | bind i =>
    have bound := dwindles_bind p (callOf goal).1 i
    simp only [advance] at h
    split at h <;> rename_i found <;> cases h <;> rw [found] at bound <;> exact bound
  | invoke r argument =>
    have answered := dwindles_classify p r (callOf goal).2 (r.function.invoke argument.buffer)
    simp only [advance] at h
    split at h <;> rename_i found <;> cases h <;> rw [found] at answered <;> exact answered
  | done => exact absurd h (by simp [advance])

/-- **The path that a thread carries is an answer of the source of its loader.** -/
theorem advance_located (within : p.Within terms) (located : s.Located terms p goal)
    (h : advance self p goal s = some (q, s')) : s'.Located terms q goal := by
  have stays := advance_stays h
  suffices next : s'.Located terms p goal from located_of_stays next stays
  cases s with
  | locate =>
    simp only [advance] at h
    split at h <;> rename_i asked <;> cases h
    · exact locates_of_locate within asked
    · trivial
    · trivial
  | findPlace path =>
    cases h
    exact located
  | enterRegistry path key =>
    simp only [advance, Option.map_eq_some_iff] at h
    obtain ⟨_, _, he⟩ := h
    cases he
    exact located
  | lookUp path key | opening path key =>
    simp only [advance] at h
    split at h <;> cases h <;> first | exact located | trivial
  | register a =>
    cases h
    exact located
  | leaveRegistry o =>
    cases o <;> cases h
    · exact located
    · trivial
    · trivial
  | readHandle =>
    simp only [advance] at h
    split at h <;> cases h
    · cases goal <;> trivial
    · trivial
  | leaveLoading o =>
    cases h
    cases o <;> cases goal <;> trivial
  | leaveBinding o =>
    cases h
    cases o <;> trivial
  | readSymbol | rereadHandle | rereadSymbol | copy | bind | invoke =>
    simp only [advance] at h
    split at h <;> cases h <;> trivial
  | enterLoading | enterBinding =>
    simp only [advance, Option.map_eq_some_iff] at h
    obtain ⟨_, _, he⟩ := h
    cases he
    trivial
  | markLoading | storeHandle | markLoaded | markFailed | storeSymbol =>
    cases h
    trivial
  | done => exact absurd h (by simp [advance])

end Task

namespace Pool

variable {a b : Pool} {moments : List Moment}

theorem Run.dwindles (run : Run a moments b) : Dwindles a.process b.process :=
  run.induct (motive := fun _ b => Dwindles a.process b.process) (.of_watches rfl rfl)
    fun _ _ _ _ _ _ _ ih _ ha => ih.trans (Task.advance_dwindles ha)

end Pool
end Linkage
