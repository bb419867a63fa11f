import Linkage.Proofs.Pool.Run
import Linkage.Proofs.Thread.Locks
import Mathlib.Data.List.Nodup

/-!
# The locks of a pool

In a pool that started without locks, the locks that are held are exactly those that
the threads are under, and each is held once (`Locked`).  Two consequences carry
everything that is said about threads later: no two threads are under one lock
(`Locked.unique`), and where no thread can go on, all have ended (`Locked.done_of_stuck`).

The second is the absence of deadlock.  The locks are taken in one order --- the lock of
a loader before that of the registry, and the lock of a bridge behind both --- so a
thread that waits for a lock waits for one that does not wait itself, or waits for the
registry only.
-/

namespace Linkage
namespace Pool

variable {a b : Pool} {t u : ThreadId} {k : Lock} {moments : List Moment}

/-- A thread of a pool is under a lock. -/
def Under (pool : Pool) (t : ThreadId) (k : Lock) : Prop :=
  ∃ goal s, pool.tasks[t]? = some ⟨goal, s⟩ ∧ Task.holds pool.process goal s k

/-- The locks that are held are those that the threads are under. -/
structure Locked (pool : Pool) : Prop where
  nodup : (pool.process.held.map (·.1)).Nodup
  held : ∀ k t, (k, t) ∈ pool.process.held ↔ pool.Under t k

/-- A thread that has not taken a lock yet. -/
def Starting (task : Task) : Prop := task.stage = .readSymbol ∨ task.stage = .readHandle

/-- Threads that make the same call start, at a loader that is there. -/
theorem starting_ofCall {p : Process} {b : BridgeId} {text : String} {threads : Nat} :
    ∀ task ∈ (ofCall p b text threads).tasks, Starting task :=
  fun _ mem => (List.mem_replicate.mp mem).2 ▸ Or.inl rfl

theorem valid_ofCall {p : Process} {b : BridgeId} {text : String} {threads : Nat}
    (hb : (p.bridge b).loader < p.loaders.length) :
    ∀ task ∈ (ofCall p b text threads).tasks, Task.loaderOf p task.goal < p.loaders.length :=
  fun _ mem => (List.mem_replicate.mp mem).2 ▸ hb

theorem not_holds_of_starting {p : Process} {goal : Goal} {s : Stage} (h : Starting ⟨goal, s⟩) :
    ¬ Task.holds p goal s k := by
  rcases h with h | h <;> cases h <;> cases k <;> simp [Task.holds, Stage.inRegistry,
    Stage.inLoading, Stage.inBinding]

/-- Without locks, and with threads that have none yet. -/
theorem Locked.of_starting (held : a.process.held = [])
    (starting : ∀ task ∈ a.tasks, Starting task) : a.Locked where
  nodup := by rw [held]; exact List.nodup_nil
  held := fun k t => by
    rw [held]
    refine ⟨fun h => absurd h (List.not_mem_nil), ?_⟩
    rintro ⟨goal, s, ht, hk⟩
    exact absurd hk (not_holds_of_starting (starting _ (List.mem_of_getElem? ht)))

/-! ## One stage -/

theorem under_set {p : Process} {goal : Goal} {s s' : Stage} (ht : a.tasks[t]? = some ⟨goal, s⟩)
    (h : Task.advance t a.process goal s = some (p, s')) (u : ThreadId) (k : Lock) :
    Under ⟨p, a.tasks.set t ⟨goal, s'⟩⟩ u k ↔
      if u = t then Task.holds p goal s' k else a.Under u k := by
  have hlt := (List.getElem?_eq_some_iff.mp ht).1
  split
  · rename_i hu
    subst hu
    simp [Under, List.getElem?_set_self hlt]
  · rename_i hu
    simp only [Under, List.getElem?_set_ne (Ne.symm hu)]
    exact exists_congr fun goal => exists_congr fun s =>
      and_congr_right fun _ => Task.holds_of_stays (Task.advance_stays h) k

theorem under_iff {goal : Goal} {s : Stage} (ht : a.tasks[t]? = some ⟨goal, s⟩) (k : Lock) :
    a.Under t k ↔ Task.holds a.process goal s k := by
  simp [Under, ht]

/-- The threads of a pool stay with loaders that are there. -/
theorem valid_set {p : Process} {goal : Goal} {s s' : Stage}
    (valid : ∀ task ∈ a.tasks, Task.loaderOf a.process task.goal < a.process.loaders.length)
    (ht : a.tasks[t]? = some ⟨goal, s⟩) (ha : Task.advance t a.process goal s = some (p, s')) :
    ∀ task ∈ a.tasks.set t ⟨goal, s'⟩, Task.loaderOf p task.goal < p.loaders.length := by
  have stays := Task.advance_stays ha
  intro task mem
  rw [stays.loaderOf, stays.loaders_eq]
  rcases List.mem_or_eq_of_mem_set mem with old | rfl
  · exact valid task old
  · exact valid ⟨goal, s⟩ (List.mem_of_getElem? ht)

/-- A lock is held by one thread only. -/
theorem Locked.unique (h : a.Locked) (ht : a.Under t k) (hu : a.Under u k) : t = u := by
  have mem := (h.held k t).mpr ht
  have mem' := (h.held k u).mpr hu
  exact congrArg Prod.snd (List.inj_on_of_nodup_map h.nodup mem mem' rfl)

/-- What one thread is under, no other is. -/
theorem Locked.not_holds_of_other (h : a.Locked) {goal : Goal} {s : Stage} {task : Task}
    (ht : a.tasks[t]? = some ⟨goal, s⟩) (hu : a.tasks[u]? = some task) (other : u ≠ t)
    (hk : Task.holds a.process task.goal task.stage k) : ¬ Task.holds a.process goal s k :=
  fun hs => other (h.unique ⟨_, _, hu, hk⟩ ((under_iff ht k).mpr hs))

theorem Locked.advance (h : a.Locked) {p : Process} {goal : Goal} {s s' : Stage}
    (ht : a.tasks[t]? = some ⟨goal, s⟩) (ha : Task.advance t a.process goal s = some (p, s')) :
    Locked ⟨p, a.tasks.set t ⟨goal, s'⟩⟩ := by
  have self := under_iff ht
  have under := under_set ht ha
  cases Task.advance_moves ha with
  | keep held same =>
    refine ⟨held ▸ h.nodup, fun j u => ?_⟩
    rw [under, held, h.held]
    split
    · rename_i hu
      rw [hu, self, same]
    · rfl
  | take k free held now =>
    refine ⟨?_, fun j u => ?_⟩
    · rw [held, List.map_cons, List.nodup_cons]
      refine ⟨fun hk => ?_, h.nodup⟩
      obtain ⟨⟨_, u⟩, hu, rfl⟩ := List.mem_map.mp hk
      exact free u hu
    · rw [under, held, List.mem_cons, h.held, Prod.mk.injEq]
      split
      · rename_i hu
        subst hu
        rw [self, now]
        simp [or_comm]
      · rename_i hu
        simp [hu]
  | give k had held now =>
    refine ⟨?_, fun j u => ?_⟩
    · rw [held]
      exact h.nodup.sublist (List.filter_sublist.map _)
    · rw [under, held, List.mem_filter, h.held]
      split
      · rename_i hu
        subst hu
        rw [self, now]
        simp
      · rename_i hu
        refine ⟨fun hj => hj.1, fun hj => ⟨hj, ?_⟩⟩
        -- the lock that is given back is under no other thread
        simp only [ne_eq, decide_eq_true_eq]
        rintro rfl
        exact hu (h.unique hj ((self j).mpr had))

/-- A lock that is free behind a stage that was not under it was free before. -/
theorem Locked.free_of_free (h : a.Locked) {p : Process} {goal : Goal} {s s' : Stage}
    (ht : a.tasks[t]? = some ⟨goal, s⟩) (ha : Task.advance t a.process goal s = some (p, s'))
    (hs : ¬ Task.holds a.process goal s k) (free : ∀ u, (k, u) ∉ p.held) :
    ∀ u, (k, u) ∉ a.process.held := by
  intro u hu
  have under := (h.held k u).mp hu
  refine free u (((h.advance ht ha).held k u).mpr ((under_set ht ha u k).mpr ?_))
  split
  · rename_i hut
    subst hut
    exact absurd ((under_iff ht k).mp under) hs
  · exact under

/-- A thread is not under a lock that is free behind its stage. -/
theorem Locked.not_holds_of_free_behind (h : a.Locked) {p : Process} {goal : Goal} {s s' : Stage}
    (ht : a.tasks[t]? = some ⟨goal, s⟩) (ha : Task.advance t a.process goal s = some (p, s'))
    (free : ∀ u, (k, u) ∉ p.held) : ¬ Task.holds p goal s' k := by
  intro hs
  refine free t (((h.advance ht ha).held k t).mpr ((under_set ht ha t k).mpr ?_))
  rwa [if_pos rfl]

/-- **In every run the locks that are held are those that the threads are under.** -/
theorem Run.locked (run : Run a moments b) (h : a.Locked) : b.Locked :=
  run.induct (motive := fun _ b => b.Locked) h fun _ _ _ _ _ _ _ ih ht ha => ih.advance ht ha

/-- No run takes anything away. -/
theorem Run.stays (run : Run a moments b) : a.process.Stays b.process :=
  run.induct (motive := fun _ b => a.process.Stays b.process) (.refl _)
    fun _ _ _ _ _ _ _ ih _ ha => ih.trans (Task.advance_stays ha)

/-! ## What threads carry -/

/-- An invariant of the process, and with it what a thread carries from stage to stage: every
stage keeps both, and what one thread carries is not touched by the stages of another. -/
structure Threaded (Inv : Process → Prop) (Carries : Process → Goal → Stage → Prop) : Prop where
  others : ∀ {p q goal s}, p.Stays q → Carries p goal s → Carries q goal s
  next : ∀ {t p q goal s s'}, Inv p → Carries p goal s →
    Task.advance t p goal s = some (q, s') → Inv q ∧ Carries q goal s'

/-- **Every run keeps the invariant, at each of its moments**, and the thread of the moment has
what it carries. -/
theorem Run.threaded {Inv : Process → Prop} {Carries : Process → Goal → Stage → Prop}
    (threaded : Threaded Inv Carries) (run : Run a moments b) (inv : Inv a.process)
    (carries : ∀ task ∈ a.tasks, Carries a.process task.goal task.stage) :
    Inv b.process ∧ (∀ task ∈ b.tasks, Carries b.process task.goal task.stage) ∧
      ∀ m ∈ moments, Inv m.process ∧ Carries m.process m.task.goal m.task.stage ∧
        m.process.Stays b.process := by
  refine run.induct (motive := fun moments b => Inv b.process ∧
    (∀ task ∈ b.tasks, Carries b.process task.goal task.stage) ∧
      ∀ m ∈ moments, Inv m.process ∧ Carries m.process m.task.goal m.task.stage ∧
        m.process.Stays b.process)
    ⟨inv, carries, fun _ mem => absurd mem List.not_mem_nil⟩
    fun moments b t goal s p s' ih ht ha => ?_
  obtain ⟨inv, carries, past⟩ := ih
  have stays := Task.advance_stays ha
  have own := carries _ (List.mem_of_getElem? ht)
  obtain ⟨inv', own'⟩ := threaded.next inv own ha
  refine ⟨inv', fun task mem => ?_, fun m mem => ?_⟩
  · rcases List.mem_or_eq_of_mem_set mem with old | rfl
    · exact threaded.others stays (carries task old)
    · exact own'
  · rcases List.mem_append.mp mem with old | new
    · obtain ⟨before, had, since⟩ := past m old
      exact ⟨before, had, since.trans stays⟩
    · obtain rfl := List.mem_singleton.mp new
      exact ⟨inv, own, stays⟩

/-! ## Waiting -/

/-- A thread that cannot go on has ended, or it waits for a lock that is held. -/
theorem waiting_of_none {goal : Goal} {s : Stage} (ht : a.tasks[t]? = some ⟨goal, s⟩)
    (h : a.step? t = none) :
    (∃ o, s = .done o) ∨ ∃ k u, (k, u) ∈ a.process.held ∧
      ((s = .enterLoading ∧ k = .loading (Task.loaderOf a.process goal)) ∨
        ((∃ path key, s = .enterRegistry path key) ∧ k = .registry) ∨
        ((∃ i, s = .enterBinding i) ∧ k = .binding (Task.callOf goal).1)) := by
  rw [step?_eq_none ht] at h
  have held : ∀ k, a.process.acquire? k t = none → ∃ u, (k, u) ∈ a.process.held := by
    intro k hk
    unfold Process.acquire? at hk
    split at hk
    · rename_i found
      obtain ⟨⟨j, u⟩, mem, hj⟩ := List.any_eq_true.mp found
      obtain rfl : j = k := by simpa using hj
      exact ⟨u, mem⟩
    · exact absurd hk (by simp)
  cases s with
  | done o => exact Or.inl ⟨o, rfl⟩
  | enterLoading =>
    obtain ⟨u, hu⟩ := held _ (Option.map_eq_none_iff.mp h)
    exact Or.inr ⟨_, u, hu, Or.inl ⟨rfl, rfl⟩⟩
  | enterRegistry path key =>
    obtain ⟨u, hu⟩ := held _ (Option.map_eq_none_iff.mp h)
    exact Or.inr ⟨_, u, hu, Or.inr (Or.inl ⟨⟨path, key, rfl⟩, rfl⟩)⟩
  | enterBinding i =>
    obtain ⟨u, hu⟩ := held _ (Option.map_eq_none_iff.mp h)
    exact Or.inr ⟨_, u, hu, Or.inr (Or.inr ⟨⟨i, rfl⟩, rfl⟩)⟩
  | leaveRegistry o => cases o <;> exact absurd h (by simp [Task.advance])
  | findPlace | markLoading | register | storeHandle | markLoaded | markFailed | leaveLoading
  | storeSymbol | leaveBinding => exact absurd h (by simp [Task.advance])
  | readSymbol | readHandle | rereadHandle | locate | lookUp | opening | rereadSymbol | bind | copy
  | invoke =>
    simp only [Task.advance] at h
    split at h <;> exact absurd h (by simp)

/-- In a pool where no thread can go on, no thread is under a lock. -/
theorem Locked.not_under_of_stuck (h : a.Locked) (stuck : a.Stuck) : ¬ a.Under t k := by
  -- the stages under the lock of the registry, or of a bridge, wait for nothing
  have registry : ∀ u, ¬ a.Under u .registry := by
    rintro u ⟨goal, s, hu, hs⟩
    obtain ⟨o, rfl⟩ | ⟨_, _, _, ⟨rfl, -⟩ | ⟨⟨_, _, rfl⟩, -⟩ | ⟨⟨_, rfl⟩, -⟩⟩ :=
      waiting_of_none hu (stuck u) <;>
      exact absurd hs (by simp [Task.holds, Stage.inRegistry])
  rintro ⟨goal, s, ht, hs⟩
  cases k with
  | registry => exact registry t ⟨goal, s, ht, hs⟩
  | binding c =>
    obtain ⟨o, rfl⟩ | ⟨_, _, _, ⟨rfl, -⟩ | ⟨⟨_, _, rfl⟩, -⟩ | ⟨⟨_, rfl⟩, -⟩⟩ :=
      waiting_of_none ht (stuck t) <;>
      exact absurd hs.1 (by simp [Stage.inBinding])
  | loading l =>
    obtain ⟨o, rfl⟩ | ⟨_, u, held, ⟨rfl, -⟩ | ⟨⟨_, _, rfl⟩, rfl⟩ | ⟨⟨_, rfl⟩, -⟩⟩ :=
      waiting_of_none ht (stuck t)
    · exact absurd hs.1 (by simp [Stage.inLoading])
    · exact absurd hs.1 (by simp [Stage.inLoading])
    · exact registry u ((h.held _ _).mp held)
    · exact absurd hs.1 (by simp [Stage.inLoading])

/-- **There is no deadlock: where no thread can go on, all have ended.** -/
theorem Locked.done_of_stuck (h : a.Locked) (stuck : a.Stuck) {task : Task} (ht : task ∈ a.tasks) :
    ∃ o, task.stage = .done o := by
  obtain ⟨t, hlt, rfl⟩ := List.getElem_of_mem ht
  have at_t : a.tasks[t]? = some a.tasks[t] := List.getElem?_eq_getElem hlt
  rcases waiting_of_none at_t (stuck t) with done | ⟨k, u, held, -⟩
  · exact done
  · exact absurd ((h.held k u).mp held) (h.not_under_of_stuck stuck)

/-- Where no thread can go on, no lock is held. -/
theorem Locked.held_of_stuck (h : a.Locked) (stuck : a.Stuck) : a.process.held = [] := by
  rw [List.eq_nil_iff_forall_not_mem]
  rintro ⟨k, t⟩ mem
  exact h.not_under_of_stuck stuck ((h.held k t).mp mem)

end Pool
end Linkage
