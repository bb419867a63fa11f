import Linkage.Proofs.Thread.Effect

/-!
# The locks of a thread

A stage tells which locks a thread is under: from the second look at the handle to the
end of the attempt it is under the lock of its loader, from the look into the registry
to the entry under that of the registry, and from the second look at the bound function
to its binding under that of the bridge.  `Task.holds` says so, and `advance_moves` is
what a stage does to the locks: it keeps them, takes one that is free, or gives back one
that the thread is under.

The rest of the module is what the locks are for.  A stage that is not under a lock
leaves alone what the lock guards: the registry and the opened libraries, the handle of
the loader, the bound function of the bridge.
-/

namespace Linkage

open Process

namespace Task

variable {self : ThreadId} {p q : Process} {goal : Goal} {s s' : Stage}

/-- The locks that a thread is under. -/
def holds (p : Process) (goal : Goal) (s : Stage) : Lock → Prop
  | .registry => s.inRegistry
  | .loading l => s.inLoading ∧ l = loaderOf p goal
  | .binding b => s.inBinding ∧ b = (callOf goal).1

/-- What one stage does to the locks. -/
inductive Moves (self : ThreadId) (p q : Process) (before after : Lock → Prop) : Prop where
  | keep (held : q.held = p.held) (same : ∀ j, after j ↔ before j)
  | take (k : Lock) (free : ∀ t, (k, t) ∉ p.held) (held : q.held = (k, self) :: p.held)
      (now : ∀ j, after j ↔ before j ∨ j = k)
  | give (k : Lock) (had : before k) (held : q.held = p.held.filter fun e => e.1 ≠ k)
      (now : ∀ j, after j ↔ before j ∧ j ≠ k)

theorem holds_of_stays (h : p.Stays q) (k : Lock) : holds q goal s k ↔ holds p goal s k := by
  cases k with
  | registry => rfl
  | loading l => rw [holds, holds, h.loaderOf]
  | binding b => rfl

theorem afterLoading_unlocked (goal : Goal) (o : Outcome Handle) :
    (afterLoading goal o).inRegistry = false ∧ (afterLoading goal o).inLoading = false ∧
      (afterLoading goal o).inBinding = false := by
  cases o <;> cases goal <;> exact ⟨rfl, rfl, rfl⟩

theorem afterBinding_unlocked (o : Outcome SymbolReference) :
    (afterBinding o).inRegistry = false ∧ (afterBinding o).inLoading = false ∧
      (afterBinding o).inBinding = false := by
  cases o <;> exact ⟨rfl, rfl, rfl⟩

/-- A lock that is taken was free. -/
theorem acquire_spec {k : Lock} {t : ThreadId} (h : p.acquire? k t = some q) :
    (∀ u, (k, u) ∉ p.held) ∧ q = { p with held := (k, t) :: p.held } := by
  unfold Process.acquire? at h
  split at h
  · exact absurd h (by simp)
  · rename_i free
    refine ⟨fun u hu => free ?_, (Option.some.inj h).symm⟩
    exact List.any_eq_true.mpr ⟨_, hu, by simp⟩

/-- A stage that stays under the same locks. -/
theorem Moves.of_flags (held : q.held = p.held) (registry : s'.inRegistry = s.inRegistry)
    (loading : s'.inLoading = s.inLoading) (binding : s'.inBinding = s.inBinding) :
    Moves self p q (holds p goal s) (holds p goal s') := by
  refine .keep held fun j => ?_
  cases j with
  | registry => rw [holds, holds, registry]
  | loading l => rw [holds, holds, loading]
  | binding b => rw [holds, holds, binding]

/-- A stage takes a lock only if it is free, and gives back only one that its thread
is under. -/
theorem advance_moves (h : advance self p goal s = some (q, s')) :
    Moves self p q (holds p goal s) (holds q goal s') := by
  have stays := advance_stays h
  suffices moves : Moves self p q (holds p goal s) (holds p goal s') by
    cases moves with
    | keep held same => exact .keep held fun j => (holds_of_stays stays j).trans (same j)
    | take k free held now =>
      exact .take k free held fun j => (holds_of_stays stays j).trans (now j)
    | give k had held now => exact .give k had held fun j => (holds_of_stays stays j).trans (now j)
  cases s with
  | readSymbol =>
    simp only [advance] at h
    split at h <;> cases h <;> exact .of_flags rfl rfl rfl rfl
  | readHandle =>
    simp only [advance] at h
    split at h <;> cases h
    · obtain ⟨hr, hl, hb⟩ := afterLoading_unlocked goal (.ok _)
      exact .of_flags rfl hr hl hb
    · exact .of_flags rfl rfl rfl rfl
  | enterLoading =>
    simp only [advance, Option.map_eq_some_iff] at h
    obtain ⟨_, hp, he⟩ := h
    cases he
    obtain ⟨free, rfl⟩ := acquire_spec hp
    refine .take (.loading (loaderOf p goal)) free rfl fun j => ?_
    cases j <;> simp [holds, Stage.inRegistry, Stage.inLoading, Stage.inBinding]
  | enterRegistry path key =>
    simp only [advance, Option.map_eq_some_iff] at h
    obtain ⟨_, hp, he⟩ := h
    cases he
    obtain ⟨free, rfl⟩ := acquire_spec hp
    refine .take .registry free rfl fun j => ?_
    cases j <;> simp [holds, Stage.inRegistry, Stage.inLoading, Stage.inBinding]
  | enterBinding i =>
    simp only [advance, Option.map_eq_some_iff] at h
    obtain ⟨_, hp, he⟩ := h
    cases he
    obtain ⟨free, rfl⟩ := acquire_spec hp
    refine .take (.binding (callOf goal).1) free rfl fun j => ?_
    cases j <;> simp [holds, Stage.inRegistry, Stage.inLoading, Stage.inBinding]
  | leaveRegistry o =>
    cases o <;> cases h
    all_goals
      refine .give .registry rfl rfl fun j => ?_
      cases j <;> simp [holds, Stage.inRegistry, Stage.inLoading, Stage.inBinding]
  | leaveLoading o =>
    cases h
    obtain ⟨hr, hl, hb⟩ := afterLoading_unlocked goal o
    refine .give (.loading (loaderOf p goal)) ⟨rfl, rfl⟩ rfl fun j => ?_
    cases j <;> simp only [holds, hr, hl, hb] <;>
      simp [Stage.inRegistry, Stage.inLoading, Stage.inBinding]
  | leaveBinding o =>
    cases h
    obtain ⟨hr, hl, hb⟩ := afterBinding_unlocked o
    refine .give (.binding (callOf goal).1) ⟨rfl, rfl⟩ rfl fun j => ?_
    cases j <;> simp only [holds, hr, hl, hb] <;>
      simp [Stage.inRegistry, Stage.inLoading, Stage.inBinding]
  | markLoading | findPlace | register | storeHandle | markLoaded | markFailed | storeSymbol =>
    cases h
    exact .of_flags rfl rfl rfl rfl
  | rereadHandle | lookUp | rereadSymbol | copy =>
    simp only [advance] at h
    split at h <;> cases h <;> exact .of_flags rfl rfl rfl rfl
  | locate =>
    have heard := heard_locate p (p.loader (loaderOf p goal)).source
      (p.loader (loaderOf p goal)).library (some (loaderOf p goal))
    simp only [advance] at h
    split at h <;> rename_i found <;> cases h <;> rw [found] at heard <;>
      exact .of_flags heard.held rfl rfl rfl
  | opening path key =>
    have asked := (openLibrary_spec p (p.loader (loaderOf p goal)).source path
      (some (loaderOf p goal))).1
    simp only [advance] at h
    split at h <;> rename_i opened <;> cases h <;> rw [opened] at asked <;>
      exact .of_flags asked.held rfl rfl rfl
  | bind i =>
    have heard := heard_bind p (callOf goal).1 i
    simp only [advance] at h
    split at h <;> rename_i bound <;> cases h <;> rw [bound] at heard <;>
      exact .of_flags heard.held rfl rfl rfl
  | invoke f argument =>
    have heard := heard_classify p f (callOf goal).2 (f.function.invoke argument.buffer)
    simp only [advance] at h
    split at h <;> rename_i answered <;> cases h <;> rw [answered] at heard <;>
      exact .of_flags heard.held rfl rfl rfl
  | done => exact absurd h (by simp [advance])

/-- The lock of the registry is given back at one stage only. -/
theorem leaves_registry (h : advance self p goal s = some (q, s')) (hs : s.inRegistry)
    (hs' : s'.inRegistry = false) : ∃ o, s = .leaveRegistry o := by
  cases s with
  | leaveRegistry o => exact ⟨o, rfl⟩
  | lookUp | opening =>
    simp only [advance] at h
    split at h <;> cases h <;> exact absurd hs' (by simp [Stage.inRegistry])
  | register =>
    cases h
    exact absurd hs' (by simp [Stage.inRegistry])
  | _ => exact absurd hs (by simp [Stage.inRegistry])

/-- The lock of the loader is given back at one stage only. -/
theorem leaves_loading (h : advance self p goal s = some (q, s')) (hs : s.inLoading)
    (hs' : s'.inLoading = false) : ∃ o, s = .leaveLoading o := by
  cases s with
  | leaveLoading o => exact ⟨o, rfl⟩
  | enterRegistry =>
    simp only [advance, Option.map_eq_some_iff] at h
    obtain ⟨_, _, he⟩ := h
    cases he
    exact absurd hs' (by simp [Stage.inLoading])
  | rereadHandle | locate | lookUp | opening =>
    simp only [advance] at h
    split at h <;> cases h <;> exact absurd hs' (by simp [Stage.inLoading])
  | leaveRegistry o => cases o <;> cases h <;> exact absurd hs' (by simp [Stage.inLoading])
  | markLoading | findPlace | register | storeHandle | markLoaded | markFailed =>
    cases h
    exact absurd hs' (by simp [Stage.inLoading])
  | _ => exact absurd hs (by simp [Stage.inLoading])

/-- The lock of the bridge is given back at one stage only. -/
theorem leaves_binding (h : advance self p goal s = some (q, s')) (hs : s.inBinding)
    (hs' : s'.inBinding = false) : ∃ o, s = .leaveBinding o := by
  cases s with
  | leaveBinding o => exact ⟨o, rfl⟩
  | rereadSymbol | bind =>
    simp only [advance] at h
    split at h <;> cases h <;> exact absurd hs' (by simp [Stage.inBinding])
  | storeSymbol =>
    cases h
    exact absurd hs' (by simp [Stage.inBinding])
  | _ => exact absurd hs (by simp [Stage.inBinding])

/-! ## What the locks guard -/

/-- A stage that is not under the lock of the registry leaves the registry and the opened
libraries alone. -/
theorem registry_of_not_holds (h : advance self p goal s = some (q, s'))
    (hs : ¬ holds p goal s .registry) :
    q.registry = p.registry ∧ q.libraries = p.libraries := by
  cases advance_effect h with
  | reports heard => exact ⟨heard.registry, heard.libraries⟩
  | locks _ hq => exact hq ▸ ⟨rfl, rfl⟩
  | marks _ _ heard => exact ⟨heard.registry, heard.libraries⟩
  | opens => exact absurd rfl hs
  | registers => exact absurd rfl hs
  | stores hq => exact hq ▸ ⟨rfl, rfl⟩
  | binds hq => exact hq ▸ ⟨rfl, rfl⟩

/-- A stage that is not under the lock of a loader leaves the loader alone. -/
theorem loader_of_not_holds (h : advance self p goal s = some (q, s')) {l : LoaderId}
    (hs : ¬ holds p goal s (.loading l)) : q.loader l = p.loader l := by
  cases advance_effect h with
  | reports heard => exact heard.loader l
  | locks _ hq => exact hq ▸ rfl
  | marks state marked heard =>
    have other : loaderOf p goal ≠ l :=
      fun hl => hs ⟨Stage.inLoading_of_marked marked, hl.symm⟩
    rw [heard.loader, loader_setState, if_neg fun hl => other hl.1]
  | opens asked => rw [loader, asked.loaders, loader]
  | registers hq => exact hq ▸ rfl
  | stores hq =>
    have other : loaderOf p goal ≠ l := fun hl => hs ⟨rfl, hl.symm⟩
    rw [hq, loader_storeHandle, if_neg fun hl => other hl.1]
  | binds hq => exact hq ▸ rfl

end Task
end Linkage
