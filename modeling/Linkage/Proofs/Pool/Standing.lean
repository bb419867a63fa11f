import Linkage.Proofs.Pool.Locks
import Linkage.Proofs.Thread.Standing

/-!
# Where a loader stands among threads

In a run any number of threads ask for the handle of one loader, directly or by a call.
Only the one that is under the lock of the loader writes to it, so at each pool of a run
one of two things is the case (`Standing`):

* no thread is under the lock, and the loader is as the attempts so far have left it,
* one thread is, and the loader stands as the stage of that thread says.

The invariant gives what can be said of the state between any two stages.  A write takes a
step that is meant, or it begins an attempt behind one that panicked
(`Run.write_leadsTo`); a handle is behind the state `loaded` or in the hands of the thread
that is about to write it (`Standing.published`); and `loaded` is final (`Run.loaded`).
-/

namespace Linkage

open Process

/-- How an attempt on a loader came out, at the moment that ends it. -/
def Moment.ended? (l : LoaderId) (m : Moment) : Option (Outcome Handle) :=
  if Task.loaderOf m.process m.task.goal = l then m.task.stage.ended? else none

/-- The state that a moment finds at a loader and the one that it writes there, if it writes
one. -/
def Moment.write? (l : LoaderId) (m : Moment) : Option (LoadState × LoadState) :=
  if Task.loaderOf m.process m.task.goal = l then
    m.task.stage.marked?.map fun state => ((m.process.loader l).state, state)
  else none

/-- The attempts on a loader that a run has ended. -/
def attemptsIn (l : LoaderId) (moments : List Moment) : Attempts :=
  moments.filterMap (Moment.ended? l)

theorem attemptsIn_concat (l : LoaderId) (moments : List Moment) (m : Moment) :
    attemptsIn l (moments ++ [m]) = attemptsIn l moments ++ (m.ended? l).toList := by
  rw [attemptsIn, List.filterMap_append, attemptsIn, List.filterMap_cons, List.filterMap_nil]
  cases m.ended? l <;> rfl

namespace Pool

variable {a b : Pool} {l : LoaderId} {t : ThreadId} {past attempts : Attempts}
  {moments before after : List Moment}

/-- How a loader stands in a pool, behind the attempts that have ended. -/
structure Standing (pool : Pool) (l : LoaderId) (attempts : Attempts) : Prop where
  locked : pool.Locked
  valid : ∀ task ∈ pool.tasks,
    Task.loaderOf pool.process task.goal < pool.process.loaders.length
  rests : (∀ t, ¬ pool.Under t (.loading l)) → (pool.process.loader l).Rests attempts
  stands : ∀ (t : ThreadId) (goal : Goal) (s : Stage), pool.tasks[t]? = some ⟨goal, s⟩ →
    Task.holds pool.process goal s (.loading l) → s.Stands (pool.process.loader l) attempts

/-- Among threads that have not taken a lock yet. -/
theorem Standing.of_starting (held : a.process.held = [])
    (starting : ∀ task ∈ a.tasks, Starting task)
    (valid : ∀ task ∈ a.tasks, Task.loaderOf a.process task.goal < a.process.loaders.length)
    (rests : (a.process.loader l).Rests past) : a.Standing l past where
  locked := .of_starting held starting
  valid := valid
  rests := fun _ => rests
  stands := fun _ _ _ ht hs =>
    absurd hs (not_holds_of_starting (starting _ (List.mem_of_getElem? ht)))

/-! ## One stage -/

variable {p : Process} {goal : Goal} {s s' : Stage}

namespace Standing

/-- The thread that is under the lock of the loader goes on. -/
theorem advance_of_holds (h : a.Standing l attempts) (ht : a.tasks[t]? = some ⟨goal, s⟩)
    (ha : Task.advance t a.process goal s = some (p, s'))
    (hs : Task.holds a.process goal s (.loading l)) :
    Standing ⟨p, a.tasks.set t ⟨goal, s'⟩⟩ l (attempts ++ s.ended?.toList) := by
  have stays := Task.advance_stays ha
  have locked := h.locked.advance ht ha
  have here := h.stands t goal s ht hs
  obtain ⟨inLoading, rfl⟩ := hs
  obtain ⟨stands, rests⟩ :=
    Task.advance_stands ha (h.valid _ (List.mem_of_getElem? ht)) inLoading here
  refine ⟨locked, valid_set h.valid ht ha, fun free => ?_, fun u goal' s'' hu hs'' => ?_⟩
  · refine rests (Bool.eq_false_iff.mpr fun inLoading' => free t ?_)
    rw [under_set ht ha, if_pos rfl]
    exact ⟨inLoading', (stays.loaderOf goal).symm⟩
  · -- no other thread is under the lock, before or behind the stage
    have own : t = u := by
      by_contra other
      have old : a.Under u (.loading (Task.loaderOf a.process goal)) := by
        have now := (under_set ht ha u _).mp ⟨goal', s'', hu, hs''⟩
        rwa [if_neg (Ne.symm other)] at now
      have self : a.Under t (.loading (Task.loaderOf a.process goal)) :=
        (under_iff ht _).mpr ⟨inLoading, rfl⟩
      exact other (h.locked.unique self old)
    subst own
    rw [List.getElem?_set_self (List.getElem?_eq_some_iff.mp ht).1] at hu
    cases hu
    exact stands hs''.1

/-- A thread that is not under the lock of the loader goes on. -/
theorem advance_of_not_holds (h : a.Standing l attempts) (ht : a.tasks[t]? = some ⟨goal, s⟩)
    (ha : Task.advance t a.process goal s = some (p, s'))
    (hs : ¬ Task.holds a.process goal s (.loading l)) :
    Standing ⟨p, a.tasks.set t ⟨goal, s'⟩⟩ l attempts := by
  have stays := Task.advance_stays ha
  have same := Task.loader_of_not_holds ha hs
  refine ⟨h.locked.advance ht ha, valid_set h.valid ht ha, fun free => ?_,
    fun u goal' s'' hu hs'' => ?_⟩
  · refine (h.rests fun u under => free u ?_).congr (by rw [same]) (by rw [same])
    rw [under_set ht ha]
    split
    · rename_i hu
      subst hu
      exact absurd ((under_iff ht _).mp under) hs
    · exact under
  · dsimp only
    rw [same]
    rcases eq_or_ne u t with rfl | other
    · rw [List.getElem?_set_self (List.getElem?_eq_some_iff.mp ht).1] at hu
      cases hu
      -- it has just taken the lock, so no thread was under it
      obtain ⟨inLoading', rfl⟩ := (Task.holds_of_stays stays _).mp hs''
      have outside : s.inLoading = false := Bool.eq_false_iff.mpr fun inLoading =>
        hs ⟨inLoading, rfl⟩
      obtain ⟨rfl, free⟩ := Task.enters_loading ha outside inLoading'
      exact h.rests fun u under => free u ((h.locked.held _ u).mpr under)
    · rw [List.getElem?_set_ne (Ne.symm other)] at hu
      exact h.stands u goal' s'' hu ((Task.holds_of_stays stays _).mp hs'')

theorem advance (h : a.Standing l attempts) (ht : a.tasks[t]? = some ⟨goal, s⟩)
    (ha : Task.advance t a.process goal s = some (p, s')) :
    Standing ⟨p, a.tasks.set t ⟨goal, s'⟩⟩ l
      (attempts ++ (Moment.ended? l ⟨a.process, t, ⟨goal, s⟩⟩).toList) := by
  by_cases hs : Task.holds a.process goal s (.loading l)
  · rw [Moment.ended?, if_pos hs.2.symm]
    exact h.advance_of_holds ht ha hs
  · have none : Moment.ended? l ⟨a.process, t, ⟨goal, s⟩⟩ = none := by
      rw [Moment.ended?]
      split
      · rename_i own
        exact Task.ended?_of_not_inLoading (Bool.eq_false_iff.mpr fun inLoading =>
          hs ⟨inLoading, own.symm⟩)
      · rfl
    rw [none, Option.toList_none, List.append_nil]
    exact h.advance_of_not_holds ht ha hs

/-- A thread that writes the state of the loader takes a step that is meant, or it begins an
attempt behind one that panicked. -/
theorem leadsTo_of_write (h : a.Standing l attempts) (ht : a.tasks[t]? = some ⟨goal, s⟩)
    {state : LoadState} (own : Task.loaderOf a.process goal = l)
    (marked : s.marked? = some state) :
    (a.process.loader l).state.leadsTo state ∨
      (a.process.loader l).state = .loading ∧ state = .loading ∧
        attempts.getLast? = some .panic := by
  subst own
  exact Task.leadsTo_of_marked marked
    (h.stands t goal s ht ⟨Stage.inLoading_of_marked marked, rfl⟩)

/-- **A handle is behind the state `loaded`, or in the hands of the thread that is about to
write this state.** -/
theorem published (h : a.Standing l attempts) {i : Handle}
    (handle : (a.process.loader l).handle = some i) :
    (a.process.loader l).state = .loaded ∨
      (a.process.loader l).state = .loading ∧
        ∃ (t : ThreadId) (goal : Goal), a.tasks[t]? = some ⟨goal, .markLoaded i⟩ ∧
          Task.loaderOf a.process goal = l := by
  have atRest : (a.process.loader l).Rests attempts → (a.process.loader l).state = .loaded :=
    fun rests => rests.isSome_handle.mp (by simp [handle])
  by_cases free : ∀ t, ¬ a.Under t (.loading l)
  · exact Or.inl (atRest (h.rests free))
  · push Not at free
    obtain ⟨t, goal, s, ht, hs⟩ := free
    have stands := h.stands t goal s ht hs
    have unpublished : ¬ ((a.process.loader l).state = .loading ∧
        (a.process.loader l).handle = none) := fun c => by simp [handle] at c
    cases s with
    | rereadHandle => exact Or.inl (atRest stands)
    | markLoading => exact absurd stands.2 (by simp [handle])
    | leaveLoading o =>
      cases o with
      | ok | error => exact Or.inl (atRest stands)
      | panic => exact absurd stands unpublished
    | markLoaded j =>
      obtain ⟨loading, published⟩ := stands
      obtain rfl : i = j := Option.some.inj (handle.symm.trans published)
      exact Or.inr ⟨loading, t, goal, ht, hs.2.symm⟩
    | locate | findPlace | enterRegistry | lookUp | opening | register | leaveRegistry
    | storeHandle | markFailed => exact absurd stands unpublished
    | _ => exact absurd hs.1 (by simp [Stage.inLoading])

/-- No stage leads out of the state `loaded`. -/
theorem loaded_advance (h : a.Standing l attempts) (ht : a.tasks[t]? = some ⟨goal, s⟩)
    (ha : Task.advance t a.process goal s = some (p, s'))
    (loaded : (a.process.loader l).state = .loaded) : (p.loader l).state = .loaded := by
  cases Task.advance_effect ha with
  | reports heard => rw [heard.loader, loaded]
  | locks held hq => exact hq ▸ loaded
  | marks state marked heard =>
    rw [heard.loader, loader_setState]
    split
    · rename_i own
      have meant := h.leadsTo_of_write ht own.1 marked
      rw [loaded] at meant
      cases state <;> simp [LoadState.leadsTo] at meant
    · exact loaded
  | opens asked => rw [loader, asked.loaders, ← loader, loaded]
  | registers hq => exact hq ▸ loaded
  | stores hq =>
    rw [hq, loader_storeHandle]
    split <;> exact loaded
  | binds hq => exact hq ▸ loaded

end Standing

/-! ## Runs -/

/-- **In every run a loader stands as its attempts and the thread under its lock say.** -/
theorem Run.standing (run : Run a moments b) (h : a.Standing l past) :
    b.Standing l (past ++ attemptsIn l moments) := by
  refine run.induct (motive := fun moments b => b.Standing l (past ++ attemptsIn l moments))
    (by simpa [attemptsIn] using h) fun moments b t goal s p s' ih ht ha => ?_
  rw [attemptsIn_concat, ← List.append_assoc]
  exact ih.advance ht ha

/-- **Every write of a run takes a step that is meant, or it begins an attempt behind one
that panicked.** -/
theorem Run.write_leadsTo {m : Moment} {found written : LoadState}
    (run : Run a (before ++ m :: after) b) (h : a.Standing l past)
    (write : m.write? l = some (found, written)) :
    found.leadsTo written ∨
      found = .loading ∧ written = .loading ∧
        (past ++ attemptsIn l before).getLast? = some .panic := by
  obtain ⟨c, first, process, ht⟩ := run.moment
  obtain ⟨p, t, goal, s⟩ := m
  obtain rfl : c.process = p := process
  rw [Moment.write?] at write
  split at write
  · rename_i own
    obtain ⟨state, marked, he⟩ := Option.map_eq_some_iff.mp write
    cases he
    exact (first.standing h).leadsTo_of_write ht own marked
  · exact absurd write (by simp)

/-- **The state `loaded` is final.** -/
theorem Run.loaded (run : Run a moments b) (h : a.Standing l past)
    (loaded : (a.process.loader l).state = .loaded) : (b.process.loader l).state = .loaded := by
  have both : b.Standing l (past ++ attemptsIn l moments) ∧
      (b.process.loader l).state = .loaded := by
    refine run.induct (motive := fun moments b => b.Standing l (past ++ attemptsIn l moments) ∧
      (b.process.loader l).state = .loaded) ⟨by simpa [attemptsIn] using h, loaded⟩
      fun moments b t goal s p s' ih ht ha => ⟨?_, ih.1.loaded_advance ht ha ih.2⟩
    rw [attemptsIn_concat, ← List.append_assoc]
    exact ih.1.advance ht ha
  exact both.2

end Pool
end Linkage
