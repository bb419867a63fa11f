import Linkage.Proofs.Loading.Standing
import Linkage.Proofs.Thread.Locks

/-!
# Where a loader stands while a thread loads it

Under the lock of its loader a thread finds the loader at rest, makes one attempt, and
leaves the loader at rest again, one attempt further on.  `Stage.Stands` says how the
loader stands in between: from the writing of `loading` to the writing of the handle it is
loading and has no handle, and for one stage it is loading and has one --- the handle is
written before the state is.

`advance_stands` is the step: what a stage needs is what the stage before it has
established.  A thread that panics gives the lock back on the way of every failure, but
past the writing of the state; that the loader is at rest then, in the state `loading`, is
how `Attempts.settled` reads a panic.
-/

namespace Linkage

open Process

/-- How an attempt came out, at the stage that ends it. -/
def Stage.ended? : Stage → Option (Outcome Handle)
  | .markLoaded h => some (.ok h)
  | .markFailed e => some (.error e)
  | .leaveLoading .panic => some .panic
  | _ => none

/-- How its loader stands for a thread that is under the lock of the loader. -/
def Stage.Stands (c : Loader) (attempts : Attempts) : Stage → Prop
  | .rereadHandle | .leaveLoading (.ok _) | .leaveLoading (.error _) => c.Rests attempts
  | .markLoading => c.Rests attempts ∧ c.handle = none
  | .locate | .findPlace _ | .enterRegistry .. | .lookUp .. | .opening .. | .register _
  | .leaveRegistry _ | .storeHandle _ | .markFailed _ | .leaveLoading .panic =>
    c.state = .loading ∧ c.handle = none
  | .markLoaded h => c.state = .loading ∧ c.handle = some h
  | _ => True

namespace Task

variable {self : ThreadId} {p q : Process} {goal : Goal} {s s' : Stage} {attempts : Attempts}

/-- Only under the lock of its loader does a thread end an attempt. -/
theorem ended?_of_not_inLoading (hs : s.inLoading = false) : s.ended? = none := by
  cases s with
  | markLoaded | markFailed | leaveLoading => exact absurd hs (by simp [Stage.inLoading])
  | _ => rfl

/-- A thread comes under the lock of its loader by taking it while it is free, and looks
at the handle first. -/
theorem enters_loading (h : advance self p goal s = some (q, s')) (hs : s.inLoading = false)
    (hs' : s'.inLoading) :
    s' = .rereadHandle ∧ ∀ u, (Lock.loading (loaderOf p goal), u) ∉ p.held := by
  cases s with
  | enterLoading =>
    simp only [advance, Option.map_eq_some_iff] at h
    obtain ⟨_, taken, he⟩ := h
    cases he
    exact ⟨rfl, (acquire_spec taken).1⟩
  | readHandle =>
    simp only [advance] at h
    split at h <;> cases h
    · exact absurd hs' (by simp [(afterLoading_unlocked goal _).2.1])
    · exact absurd hs' (by simp [Stage.inLoading])
  | enterBinding =>
    simp only [advance, Option.map_eq_some_iff] at h
    obtain ⟨_, _, he⟩ := h
    cases he
    exact absurd hs' (by simp [Stage.inLoading])
  | leaveBinding o =>
    cases h
    exact absurd hs' (by simp [(afterBinding_unlocked o).2.1])
  | readSymbol | rereadSymbol | bind | copy | invoke =>
    simp only [advance] at h
    split at h <;> cases h <;> exact absurd hs' (by simp [Stage.inLoading])
  | storeSymbol =>
    cases h
    exact absurd hs' (by simp [Stage.inLoading])
  | done => exact absurd h (by simp [advance])
  | _ => exact absurd hs (by simp [Stage.inLoading])

/-- A stage that leaves its loader as it is, inside an attempt. -/
theorem stands_of_loader_eq (stands : (p.loader (loaderOf p goal)).state = .loading ∧
      (p.loader (loaderOf p goal)).handle = none)
    (same : q.loader (loaderOf p goal) = p.loader (loaderOf p goal)) :
    (q.loader (loaderOf p goal)).state = .loading ∧
      (q.loader (loaderOf p goal)).handle = none := same ▸ stands

/-- **Under the lock of its loader a stage establishes what the next one needs**, and the
stage that gives the lock back leaves the loader at rest. -/
theorem advance_stands (ha : advance self p goal s = some (q, s'))
    (valid : loaderOf p goal < p.loaders.length) (hs : s.inLoading)
    (stands : s.Stands (p.loader (loaderOf p goal)) attempts) :
    (s'.inLoading → s'.Stands (q.loader (loaderOf p goal)) (attempts ++ s.ended?.toList)) ∧
      (s'.inLoading = false →
        (q.loader (loaderOf p goal)).Rests (attempts ++ s.ended?.toList)) := by
  cases s with
  | rereadHandle =>
    simp only [advance] at ha
    split at ha <;> rename_i handle <;> cases ha
    · exact ⟨fun _ => by simpa [Stage.ended?, Stage.Stands] using stands, by simp [Stage.inLoading]⟩
    · refine ⟨fun _ => ?_, by simp [Stage.inLoading]⟩
      rw [show Stage.rereadHandle.ended? = none from rfl, Option.toList_none, List.append_nil]
      exact ⟨stands, handle⟩
  | markLoading =>
    cases ha
    refine ⟨fun _ => ?_, by simp [Stage.inLoading]⟩
    exact ⟨by rw [loader_setState, if_pos ⟨rfl, valid⟩], (handle_setState ..).trans stands.2⟩
  | locate =>
    have heard := heard_locate p (p.loader (loaderOf p goal)).source
      (p.loader (loaderOf p goal)).library (some (loaderOf p goal))
    simp only [advance] at ha
    split at ha <;> rename_i found <;> cases ha <;> rw [found] at heard
    all_goals exact ⟨fun _ => stands_of_loader_eq stands (heard.loader _), by simp [Stage.inLoading]⟩
  | findPlace =>
    cases ha
    exact ⟨fun _ => stands, by simp [Stage.inLoading]⟩
  | enterRegistry =>
    simp only [advance, Option.map_eq_some_iff] at ha
    obtain ⟨_, hr, he⟩ := ha
    cases he
    obtain ⟨-, rfl⟩ := acquire_spec hr
    exact ⟨fun _ => stands, by simp [Stage.inLoading]⟩
  | lookUp =>
    simp only [advance] at ha
    split at ha <;> cases ha
    · exact ⟨fun _ => stands_of_loader_eq stands ((heard_note ..).loader _),
        by simp [Stage.inLoading]⟩
    · exact ⟨fun _ => stands, by simp [Stage.inLoading]⟩
  | opening path =>
    have asked := (openLibrary_spec p (p.loader (loaderOf p goal)).source path
      (some (loaderOf p goal))).1
    simp only [advance] at ha
    split at ha <;> rename_i opened <;> cases ha <;> rw [opened] at asked
    all_goals
      refine ⟨fun _ => stands_of_loader_eq stands ?_, by simp [Stage.inLoading]⟩
      rw [loader, asked.loaders, loader]
  | register a =>
    cases ha
    exact ⟨fun _ => stands, by simp [Stage.inLoading]⟩
  | leaveRegistry o =>
    cases o <;> cases ha <;> exact ⟨fun _ => stands, by simp [Stage.inLoading]⟩
  | storeHandle a =>
    cases ha
    have handle : ((p.storeHandle (loaderOf p goal) a.handle).loader (loaderOf p goal)).handle =
        some a.handle := by
      rw [handle_storeHandle, if_pos ⟨rfl, valid⟩, stands.2, Option.none_or]
    refine ⟨fun _ => ⟨?_, by simp [handle]⟩, by simp [Stage.inLoading]⟩
    rw [loader_storeHandle, if_pos ⟨rfl, valid⟩]
    exact stands.1
  | markLoaded i =>
    cases ha
    refine ⟨fun _ => ?_, by simp [Stage.inLoading]⟩
    rw [(heard_note ..).loader, loader_setState, if_pos ⟨rfl, valid⟩]
    exact ⟨by simp [Stage.ended?], by simp [Stage.ended?, stands.2]⟩
  | markFailed e =>
    cases ha
    refine ⟨fun _ => ?_, by simp [Stage.inLoading]⟩
    rw [(heard_note ..).loader, loader_setState, if_pos ⟨rfl, valid⟩]
    exact ⟨by simp [Stage.ended?], by simp [Stage.ended?, stands.2]⟩
  | leaveLoading o =>
    cases ha
    have same : (p.release (.loading (loaderOf p goal))).loader (loaderOf p goal) =
        p.loader (loaderOf p goal) := rfl
    refine ⟨by simp [(afterLoading_unlocked goal o).2.1], fun _ => ?_⟩
    rw [same]
    cases o with
    | ok | error => simpa [Stage.ended?, Stage.Stands] using stands
    | panic =>
      obtain ⟨state, handle⟩ := stands
      exact ⟨by simpa [Stage.ended?] using state, by simpa [Stage.ended?] using handle⟩
  | _ => exact absurd hs (by simp [Stage.inLoading])

/-- A thread that writes the state of its loader takes a step that is meant, or it begins
an attempt behind one that panicked. -/
theorem leadsTo_of_marked {state : LoadState} (marked : s.marked? = some state)
    (stands : s.Stands (p.loader (loaderOf p goal)) attempts) :
    (p.loader (loaderOf p goal)).state.leadsTo state ∨
      (p.loader (loaderOf p goal)).state = .loading ∧ state = .loading ∧
        attempts.getLast? = some .panic := by
  cases s with
  | markLoading =>
    cases marked
    obtain ⟨rests, none⟩ := stands
    rw [rests.state]
    obtain meant | ⟨loading, last⟩ := Attempts.settled_leadsTo (rests.handle ▸ none)
    · exact Or.inl meant
    · exact Or.inr ⟨loading, rfl, last⟩
  | markLoaded i =>
    cases marked
    rw [stands.1]
    exact Or.inl rfl
  | markFailed e =>
    cases marked
    rw [stands.1]
    exact Or.inl rfl
  | _ => exact absurd marked (by simp [Stage.marked?])

end Task
end Linkage
