import Linkage.Proofs.Pool.Locks
import Mathlib.Logic.Relation

/-!
# Waiting for locks

A thread waits for another if its next stage takes a lock that the other holds
(`Pool.WaitsFor`).  The locks are taken in one order, and the rank of a stage is how much of
that order may still be ahead of it: a thread that waits for the lock of a loader or of a
bridge is under no lock, one that waits for the registry is under the lock of its loader, and
one that is under the lock of the registry or of a bridge waits for nothing.  So the rank falls
from a thread to the one that it waits for (`Locked.rank_lt`), and no threads wait for each
other in a circle.

What a thread calls may also panic: a source that is asked for a library or to open it, a
lookup in a library, a native function.  Scripts have sources and lookups panic, but not
functions; here whatever a stage calls may panic, at any time (`Stage.broken?`), and `Onward`
has this beside the stages.  A thread that is broken off so is under the same locks at the
stage where it goes on, and gives them back from there.
-/

namespace Linkage

/-- Where a thread goes on if what its stage calls panics; there is no such place for a stage
that calls nothing. -/
def Stage.broken? : Stage → Option Stage
  | .locate => some (.leaveLoading .panic)
  | .opening _ _ => some (.leaveRegistry .panic)
  | .bind _ => some (.leaveBinding .panic)
  | .invoke _ _ => some (.done .panic)
  | _ => none

/-- How much of the order of the locks may be ahead of a stage that takes one. -/
def Stage.rank : Stage → Nat
  | .enterLoading | .enterBinding _ => 2
  | .enterRegistry _ _ => 1
  | _ => 0

namespace Task

/-- A thread that has not begun. -/
def ofGoal : Goal → Task
  | .load l => .load l
  | .call b text => .call b text

/-- The lock that a stage takes. -/
def wants? (p : Process) (goal : Goal) : Stage → Option Lock
  | .enterLoading => some (.loading (loaderOf p goal))
  | .enterRegistry _ _ => some .registry
  | .enterBinding _ => some (.binding (callOf goal).1)
  | _ => none

/-- A thread whose call is not under way: it has not begun, or it has ended. -/
def Idle (task : Task) : Prop := Pool.Starting task ∨ ∃ o, task.stage = .done o

theorem starting_ofGoal (goal : Goal) : Pool.Starting (ofGoal goal) := by
  cases goal with
  | load l => exact Or.inr rfl
  | call b text => exact Or.inl rfl

variable {p : Process} {goal : Goal} {s s' : Stage} {k : Lock}

/-- A thread that is broken off stays under its locks. -/
theorem holds_of_broken (h : s.broken? = some s') : holds p goal s' k ↔ holds p goal s k := by
  cases s <;> cases h <;> cases k <;> simp [holds, Stage.inRegistry, Stage.inLoading,
    Stage.inBinding]

/-- Who is under a lock is further in the order than who waits for it. -/
theorem rank_lt_of_wants (task : Task) (wants : wants? p goal s = some k)
    (holds : holds p task.goal task.stage k) : task.stage.rank < s.rank := by
  obtain ⟨goal', s'⟩ := task
  dsimp only at holds ⊢
  cases s with
  | enterLoading =>
    cases wants
    have inside := holds.1
    cases s' <;> simp_all [Stage.rank, Stage.inLoading]
  | enterRegistry path key =>
    cases wants
    have inside : s'.inRegistry = true := holds
    cases s' <;> simp_all [Stage.rank, Stage.inRegistry]
  | enterBinding i =>
    cases wants
    have inside := holds.1
    cases s' <;> simp_all [Stage.rank, Stage.inBinding]
  | _ => exact absurd wants (by simp [wants?])

theorem not_holds_of_idle (idle : Idle ⟨goal, s⟩) : ¬ holds p goal s k := by
  rcases idle with starting | ⟨o, done⟩
  · exact Pool.not_holds_of_starting starting
  · obtain rfl : s = .done o := done
    cases k <;> simp [holds, Stage.inRegistry, Stage.inLoading, Stage.inBinding]

end Task

namespace Pool

variable {a b : Pool} {t u : ThreadId} {k : Lock} {moments : List Moment}

/-- A thread goes on by a stage, or what its stage calls panics. -/
inductive Onward (a : Pool) : Pool → Prop where
  | step {b : Pool} (h : a.Step b) : Onward a b
  | breaks {t : ThreadId} {goal : Goal} {s s' : Stage} (ht : a.tasks[t]? = some ⟨goal, s⟩)
      (h : s.broken? = some s') : Onward a ⟨a.process, a.tasks.set t ⟨goal, s'⟩⟩

/-- What threads come to. -/
abbrev Reaches : Pool → Pool → Prop := Relation.ReflTransGen Onward

/-- A run is one step after the other. -/
theorem Run.steps (run : Run a moments b) : Relation.ReflTransGen Step a b := by
  induction run with
  | start => exact .refl
  | step _ _ h ih => exact ih.tail ⟨_, h⟩

/-- Threads come to what a run comes to. -/
theorem Run.reaches (run : Run a moments b) : a.Reaches b :=
  Relation.ReflTransGen.mono (fun _ _ => .step) _ _ run.steps

/-- A thread waits for another: it is about to take a lock that the other holds. -/
def WaitsFor (pool : Pool) (t u : ThreadId) : Prop :=
  ∃ goal s k, pool.tasks[t]? = some ⟨goal, s⟩ ∧ Task.wants? pool.process goal s = some k ∧
    (k, u) ∈ pool.process.held

/-- The rank of the stage of a thread. -/
def rankOf (pool : Pool) (t : ThreadId) : Nat :=
  ((pool.tasks[t]?).map fun task => task.stage.rank).getD 0

/-- A thread that has ended is under no lock. -/
theorem not_under_of_done {goal : Goal} {o : Outcome Answer}
    (ht : a.tasks[t]? = some ⟨goal, .done o⟩) : ¬ a.Under t k := by
  rw [under_iff ht]
  exact Task.not_holds_of_idle (Or.inr ⟨o, rfl⟩)

namespace Locked

/-- The locks are those of the threads still if one of them is broken off. -/
theorem breaks (h : a.Locked) {goal : Goal} {s s' : Stage} (ht : a.tasks[t]? = some ⟨goal, s⟩)
    (broken : s.broken? = some s') : Locked ⟨a.process, a.tasks.set t ⟨goal, s'⟩⟩ where
  nodup := h.nodup
  held := fun k u => by
    have hlt := (List.getElem?_eq_some_iff.mp ht).1
    rw [h.held]
    by_cases hu : u = t
    · subst hu
      rw [under_iff ht, ← Task.holds_of_broken broken]
      simp [Under, List.getElem?_set_self hlt]
    · simp only [Under, List.getElem?_set_ne (Ne.symm hu)]

theorem onward (h : a.Locked) (next : a.Onward b) : b.Locked := by
  cases next with
  | step h' =>
    obtain ⟨t, h'⟩ := h'
    obtain ⟨goal, s, p, s', ht, ha, rfl⟩ := step?_eq_some.mp h'
    exact h.advance ht ha
  | breaks ht broken => exact h.breaks ht broken

/-- **Whatever panics, the locks that are held are those that the threads are under.** -/
theorem reaches (h : a.Locked) (reaches : a.Reaches b) : b.Locked := by
  induction reaches with
  | refl => exact h
  | tail _ next ih => exact ih.onward next

/-- Who is waited for is further in the order of the locks. -/
theorem rank_lt (h : a.Locked) (waits : a.WaitsFor t u) : a.rankOf u < a.rankOf t := by
  obtain ⟨goal, s, k, ht, wants, held⟩ := waits
  obtain ⟨goal', s', hu, holds⟩ := (h.held k u).mp held
  rw [rankOf, rankOf, ht, hu]
  exact Task.rank_lt_of_wants ⟨goal', s'⟩ wants holds

/-- **No threads wait for each other in a circle.** -/
theorem not_waits_in_circle (h : a.Locked) (t : ThreadId) :
    ¬ Relation.TransGen a.WaitsFor t t := by
  have falls : ∀ {u}, Relation.TransGen a.WaitsFor t u → a.rankOf u < a.rankOf t := by
    intro u waits
    induction waits with
    | single waits => exact h.rank_lt waits
    | tail _ waits ih => exact Nat.lt_trans (h.rank_lt waits) ih
  exact fun circle => Nat.lt_irrefl _ (falls circle)

/-- As long as a thread has not ended, some thread can go on. -/
theorem exists_step (h : a.Locked) {task : Task} (ht : task ∈ a.tasks)
    (unfinished : ∀ o, task.stage ≠ .done o) : ∃ t b, a.step? t = some b := by
  by_contra none
  have stuck : a.Stuck := fun t => Option.eq_none_iff_forall_ne_some.mpr
    fun b hb => none ⟨t, b, hb⟩
  obtain ⟨o, done⟩ := h.done_of_stuck stuck ht
  exact unfinished o done

/-- While no call is under way no lock is held. -/
theorem held_of_idle (h : a.Locked) (idle : ∀ task ∈ a.tasks, task.Idle) :
    a.process.held = [] := by
  rw [List.eq_nil_iff_forall_not_mem]
  rintro ⟨k, t⟩ mem
  obtain ⟨goal, s, ht, holds⟩ := (h.held k t).mp mem
  exact Task.not_holds_of_idle (idle _ (List.mem_of_getElem? ht)) holds

/-- A lock is to be had exactly if no thread is under it. -/
theorem isSome_acquire?_iff (h : a.Locked) (k : Lock) (t : ThreadId) :
    (a.process.acquire? k t).isSome ↔ ∀ u, ¬ a.Under u k := by
  simp only [← h.held]
  unfold Process.acquire?
  split
  · rename_i taken
    obtain ⟨⟨j, u⟩, mem, same⟩ := List.any_eq_true.mp taken
    obtain rfl : j = k := by simpa using same
    simpa using ⟨u, mem⟩
  · rename_i free
    simpa using free

/-- Whatever has come of it, the threads can be let go on until all have ended. -/
theorem exists_ended (h : a.Locked) : ∃ b, Relation.ReflTransGen Step a b ∧
    (∀ task ∈ b.tasks, ∃ o, task.stage = .done o) ∧ b.process.held = [] := by
  have run := a.run_moments 0
  have locked := run.locked h
  exact ⟨a.run 0, run.steps, fun _ => locked.done_of_stuck (a.stuck_run 0),
    locked.held_of_stuck (a.stuck_run 0)⟩

end Locked

end Pool
end Linkage
