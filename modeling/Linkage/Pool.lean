import Linkage.Thread

/-!
# Threads over one process

A pool is a process with threads on their way.  One step of a pool is one stage of
one of its threads; which thread is next is left open, so a run of a pool is any
interleaving of its threads.

Every step leaves fewer stages than there were, so a pool can always be run until
no thread can go on.  The run here lets the threads take turns: behind each step
the thread after the one that made it is asked first, and a thread that waits for
a lock is passed over.
-/

namespace Linkage

/-- A process and the threads that run in it. -/
structure Pool where
  process : Process
  tasks : List Task

namespace Pool

/-- One stage of one thread, if the thread can go on. -/
def step? (pool : Pool) (t : ThreadId) : Option Pool :=
  match pool.tasks[t]? with
  | none => none
  | some task => (task.step? t pool.process).map fun (p, task) => ⟨p, pool.tasks.set t task⟩

/-- One stage of some thread. -/
def Step (a b : Pool) : Prop := ∃ t, a.step? t = some b

/-- The number of stages that at most remain in a pool. -/
def remaining (pool : Pool) : Nat := (pool.tasks.map fun task => task.stage.remaining).foldr Nat.add 0

/-- The outcomes of the threads; a thread that has not ended has none. -/
def outcomes (pool : Pool) : List (Option (Outcome Answer)) := pool.tasks.map Task.outcome?

/-! ## Running to the end -/

/-- The threads in the order of their turns, from one on. -/
def turns (pool : Pool) (turn : ThreadId) : List ThreadId :=
  (List.range pool.tasks.length).rotateLeft turn

/-- The next thread that can go on, and the pool behind its step. -/
def next? (pool : Pool) (turn : ThreadId) : Option (ThreadId × Pool) :=
  (pool.turns turn).findSome? fun t => (pool.step? t).map fun q => (t, q)

theorem sum_set_lt {f : Task → Nat} {tasks : List Task} {t : Nat} {a b : Task}
    (h : tasks[t]? = some a) (hb : f b < f a) :
    ((tasks.set t b).map f).foldr Nat.add 0 < (tasks.map f).foldr Nat.add 0 := by
  induction tasks generalizing t with
  | nil => simp at h
  | cons c rest ih =>
    cases t with
    | zero =>
      obtain rfl : c = a := by simpa using h
      exact Nat.add_lt_add_right hb _
    | succ t => exact Nat.add_lt_add_left (ih (by simpa using h)) _

/-- Every step leaves fewer stages. -/
theorem remaining_lt_of_step {a b : Pool} {t : ThreadId} (h : a.step? t = some b) :
    b.remaining < a.remaining := by
  unfold step? at h
  split at h
  · simp at h
  · rename_i task ht
    obtain ⟨⟨p, task'⟩, hs, rfl⟩ := Option.map_eq_some_iff.mp h
    obtain ⟨⟨q, stage⟩, ha, hq⟩ := Option.map_eq_some_iff.mp hs
    obtain ⟨rfl, rfl⟩ := Prod.mk.injEq .. ▸ hq
    exact sum_set_lt ht (Task.advance_remaining ha)

theorem step_of_next {a b : Pool} {turn t : ThreadId} (h : a.next? turn = some (t, b)) :
    a.step? t = some b := by
  obtain ⟨u, -, hu⟩ := List.exists_of_findSome?_eq_some h
  obtain ⟨q, hq, he⟩ := Option.map_eq_some_iff.mp hu
  obtain ⟨rfl, rfl⟩ := Prod.mk.injEq .. ▸ he
  exact hq

/-- Lets the threads take turns until none can go on. -/
def run (pool : Pool) (turn : ThreadId) : Pool :=
  match h : pool.next? turn with
  | none => pool
  | some (t, q) => q.run (t + 1)
  termination_by pool.remaining
  decreasing_by exact remaining_lt_of_step (step_of_next h)

/-- Several threads that make the same call at once. -/
def ofCall (p : Process) (b : BridgeId) (text : String) (threads : Nat) : Pool :=
  ⟨p, List.replicate threads (.call b text)⟩

end Pool
end Linkage
