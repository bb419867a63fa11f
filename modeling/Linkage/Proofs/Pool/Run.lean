import Linkage.Pool

/-!
# Runs of a pool

A run is any interleaving: behind each stage any thread that can go on may be next.
What it has done is kept as a list of *moments*, each the process before a stage and the
thread that ran it, so that a property of a run (how often a library was opened, in
which order the handles were stored) is a property of that list.

`Run.induct` is the principle by which all invariants are proved: what holds at the
start and is kept by one stage of one thread holds behind every run.  A schedule that the
threads can follow is a run (`run_of_follow`).  The turns that `Pool.run` gives are another,
and behind it no thread can go on (`stuck_run`).
-/

namespace Linkage

/-- A stage that was run: the process before it, and the thread. -/
structure Moment where
  process : Process
  thread : ThreadId
  task : Task

namespace Pool

variable {a b c : Pool} {t : ThreadId}

/-! ## One step -/

/-- One step of a pool is one stage of one of its threads. -/
theorem step?_eq_some : a.step? t = some b ↔
    ∃ goal s p s', a.tasks[t]? = some ⟨goal, s⟩ ∧
      Task.advance t a.process goal s = some (p, s') ∧ b = ⟨p, a.tasks.set t ⟨goal, s'⟩⟩ := by
  constructor
  · intro h
    unfold step? at h
    split at h
    · exact absurd h (by simp)
    · rename_i task ht
      obtain ⟨⟨p, task'⟩, hs, rfl⟩ := Option.map_eq_some_iff.mp h
      obtain ⟨⟨q, s'⟩, ha, hq⟩ := Option.map_eq_some_iff.mp hs
      obtain ⟨rfl, rfl⟩ := Prod.mk.injEq .. ▸ hq
      exact ⟨task.goal, task.stage, q, s', ht, ha, rfl⟩
  · rintro ⟨goal, s, p, s', ht, ha, rfl⟩
    rw [step?, ht]
    simp [Task.step?, ha]

/-- A thread can go on if its stage can. -/
theorem step?_eq_none {task : Task} (ht : a.tasks[t]? = some task) :
    a.step? t = none ↔ Task.advance t a.process task.goal task.stage = none := by
  simp [step?, ht, Task.step?]

/-! ## Runs -/

/-- What a run from `a` did, and the pool behind it. -/
inductive Run (a : Pool) : List Moment → Pool → Prop where
  | start : Run a [] a
  | step {moments : List Moment} {b c : Pool} {t : ThreadId} {task : Task}
      (before : Run a moments b) (ht : b.tasks[t]? = some task) (h : b.step? t = some c) :
      Run a (moments ++ [⟨b.process, t, task⟩]) c

/-- A step and a run behind it. -/
theorem Run.cons {task : Task} {moments : List Moment} (ht : a.tasks[t]? = some task)
    (h : a.step? t = some b) (run : Run b moments c) :
    Run a (⟨a.process, t, task⟩ :: moments) c := by
  induction run with
  | start => exact Run.step .start ht h
  | step _ ht' h' ih => exact ih.step ht' h'

/-- **What holds at the start and is kept by every stage of every thread holds behind
every run.** -/
theorem Run.induct {motive : List Moment → Pool → Prop} {moments : List Moment}
    (run : Run a moments b) (start : motive [] a)
    (step : ∀ moments (b : Pool) t goal s p s', motive moments b →
      b.tasks[t]? = some ⟨goal, s⟩ → Task.advance t b.process goal s = some (p, s') →
      motive (moments ++ [⟨b.process, t, ⟨goal, s⟩⟩]) ⟨p, b.tasks.set t ⟨goal, s'⟩⟩) :
    motive moments b := by
  induction run with
  | start => exact start
  | step _ ht h ih =>
    obtain ⟨goal, s, p, s', ht', ha, rfl⟩ := step?_eq_some.mp h
    obtain rfl := Option.some.inj (ht.symm.trans ht')
    exact step _ _ _ goal s p s' ih ht' ha

/-- A run passes, at each of its moments, a pool in which the thread of the moment is next. -/
theorem Run.moment {before after : List Moment} {m : Moment}
    (run : Run a (before ++ m :: after) b) :
    ∃ c, Run a before c ∧ c.process = m.process ∧ c.tasks[m.thread]? = some m.task := by
  generalize hm : before ++ m :: after = moments at run
  induction run generalizing after with
  | start => exact absurd hm (by simp)
  | @step moments c d t task run ht _ ih =>
    rcases List.eq_nil_or_concat after with rfl | ⟨after, n, rfl⟩
    · obtain ⟨rfl, rfl⟩ : before = moments ∧ m = ⟨c.process, t, task⟩ := by simpa using hm
      exact ⟨c, run, rfl, ht⟩
    · have split : (before ++ m :: after) ++ [n] = moments ++ [⟨c.process, t, task⟩] := by
        simpa using hm
      exact ih (List.append_inj' split rfl).1

/-- **Every run ends**: it is no longer than the number of stages that remain. -/
theorem Run.length_le {moments : List Moment} (run : Run a moments b) :
    moments.length + b.remaining ≤ a.remaining := by
  induction run with
  | start => exact Nat.le_of_eq (Nat.zero_add _)
  | step _ _ h ih =>
    have fewer := remaining_lt_of_step h
    rw [List.length_append, List.length_singleton]
    omega

/-! ## Schedules -/

/-- What threads do that go on in the order of a schedule, and the pool behind it; there is
none if one of them cannot. -/
def follow (pool : Pool) : List ThreadId → Option (List Moment × Pool)
  | [] => some ([], pool)
  | t :: schedule =>
    match pool.tasks[t]?, pool.step? t with
    | some task, some next =>
      (next.follow schedule).map fun (moments, behind) =>
        (⟨pool.process, t, task⟩ :: moments, behind)
    | _, _ => none

/-- Following a schedule is a run. -/
theorem run_of_follow {schedule : List ThreadId} {moments : List Moment}
    (h : a.follow schedule = some (moments, b)) : Run a moments b := by
  induction schedule generalizing a moments with
  | nil =>
    cases h
    exact .start
  | cons t schedule ih =>
    simp only [follow] at h
    split at h
    · rename_i task next ht hstep
      obtain ⟨⟨rest, behind⟩, hrest, he⟩ := Option.map_eq_some_iff.mp h
      cases he
      exact .cons ht hstep (ih hrest)
    · exact absurd h (by simp)

/-- Whatever is found behind a schedule there is a run to. -/
theorem exists_run (schedule : List ThreadId) (P : List Moment → Pool → Prop)
    [∀ moments b, Decidable (P moments b)]
    (found : (a.follow schedule).any (fun r => decide (P r.1 r.2)) = true) :
    ∃ moments b, Run a moments b ∧ P moments b := by
  rcases follows : a.follow schedule with _ | ⟨moments, b⟩
  · rw [follows] at found
    exact absurd found (by simp)
  · rw [follows] at found
    exact ⟨moments, b, run_of_follow follows, of_decide_eq_true found⟩

/-! ## The run in turns -/

/-- No thread can go on. -/
def Stuck (pool : Pool) : Prop := ∀ t, pool.step? t = none

/-- What the threads do while they take turns. -/
def moments (pool : Pool) (turn : ThreadId) : List Moment :=
  match h : pool.next? turn with
  | none => []
  | some (t, q) =>
    (pool.tasks[t]?.toList.map fun task => ⟨pool.process, t, task⟩) ++ q.moments (t + 1)
  termination_by pool.remaining
  decreasing_by exact remaining_lt_of_step (step_of_next h)

/-- Taking turns is a run. -/
theorem run_moments (pool : Pool) (turn : ThreadId) :
    Run pool (pool.moments turn) (pool.run turn) := by
  fun_induction run pool turn with
  | case1 pool turn h =>
    rw [moments]
    split
    · exact .start
    · simp_all
  | case2 pool turn t q h ih =>
    have hstep := step_of_next h
    obtain ⟨goal, s, _, _, ht, -, -⟩ := step?_eq_some.mp hstep
    rw [moments]
    split
    · simp_all
    · rename_i t' q' h'
      obtain ⟨rfl, rfl⟩ : t = t' ∧ q = q' := by simpa [h] using h'
      simpa [ht] using Run.cons ht hstep ih

/-- Every thread has a turn. -/
theorem mem_turns {pool : Pool} {turn t : ThreadId} (ht : t < pool.tasks.length) :
    t ∈ pool.turns turn := by
  have mem : t ∈ List.range pool.tasks.length := List.mem_range.mpr ht
  unfold turns List.rotateLeft
  dsimp only
  split
  · exact mem
  · rw [List.mem_append, or_comm, ← List.mem_append, List.take_append_drop]
    exact mem

/-- Whoever is next is found: where the turns find no one, no thread can go on. -/
theorem stuck_of_next {pool : Pool} {turn : ThreadId} (h : pool.next? turn = none) :
    pool.Stuck := by
  intro t
  rcases ht : pool.tasks[t]? with _ | task
  · rw [step?, ht]
  · have mem : t ∈ pool.turns turn := mem_turns (List.getElem?_eq_some_iff.mp ht).1
    simpa using List.findSome?_eq_none_iff.mp h t mem

/-- When the turns end, no thread can go on. -/
theorem stuck_run (pool : Pool) (turn : ThreadId) : (pool.run turn).Stuck := by
  fun_induction run pool turn with
  | case1 pool turn h => exact stuck_of_next h
  | case2 pool turn t q h ih => exact ih

end Pool
end Linkage
