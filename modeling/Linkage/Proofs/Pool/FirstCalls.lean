import Linkage.Proofs.Pool.Locks
import Linkage.Proofs.Thread.FirstCall
import Mathlib.Data.List.Perm.Basic

/-!
# The first calls of many threads

Threads make the first calls through a bridge at the same time, while its source fails to
open the library some number of times.  Whatever the order of their stages, each failure
reaches exactly one thread and no thread has two, all others get the answer to their own
text, and the source is asked to open the library once for each failure and once more
(`Pool.first_calls`).

`Underway` is the invariant: the threads share one progress, each presumes of it what its
stage says, and the failures that the threads are on their way out with are those that the
source has had.  One stage keeps it (`Underway.advance`), so every run does.  At the end no
lock is held, so no load and no binding is under way; and a thread that goes on behind the
opening of the library never turns back, so if it was opened, not every thread has failed.
-/

namespace Linkage

open scoped List

/-- In a list of which one entry is changed, what is read off the others stays. -/
theorem perm_filterMap_set {α β : Type} {f : α → Option β} {l : List α} {t : Nat} {a : α}
    (h : l[t]? = some a) (b : α) :
    ((f a).toList ++ (l.set t b).filterMap f).Perm ((f b).toList ++ l.filterMap f) := by
  obtain ⟨hlt, ha⟩ := List.getElem?_eq_some_iff.mp h
  have changed := (List.set_perm_cons_eraseIdx hlt b).filterMap f
  have before := (List.getElem_cons_eraseIdx_perm hlt).filterMap f
  have split : ∀ c, (c :: l.eraseIdx t).filterMap f =
      (f c).toList ++ (l.eraseIdx t).filterMap f := fun c => by
    rw [List.filterMap_cons]
    cases f c <;> rfl
  rw [split] at changed before
  rw [ha] at before
  calc (f a).toList ++ (l.set t b).filterMap f
      ~ (f a).toList ++ ((f b).toList ++ (l.eraseIdx t).filterMap f) := changed.append_left _
    _ ~ (f b).toList ++ ((f a).toList ++ (l.eraseIdx t).filterMap f) := by
      rw [← List.append_assoc, ← List.append_assoc]
      exact List.perm_append_comm.append_right _
    _ ~ (f b).toList ++ l.filterMap f := before.append_left _

/-! ## One step of the progress -/

namespace Progress.Next

variable {plan : Plan} {φ φ' : Progress} {s s' : Stage}

/-- A stage leaves its thread with the failure it had, or the source has failed once more
and the thread, which had none, has that failure. -/
theorem failure (next : Next plan s s' φ φ') :
    (s'.failure? = s.failure? ∧ φ'.failed = φ.failed) ∨
      (s.failure? = none ∧ φ.opened = false ∧ s'.failure? = some (plan.error φ.failed) ∧
        φ'.failed = φ.failed + 1) := by
  cases next with
  | keeps failure | marks _ failure => exact Or.inl ⟨failure, rfl⟩
  | fails early => exact Or.inr ⟨rfl, early, rfl, rfl⟩
  | opens | registers | stores | resolves | binds => exact Or.inl ⟨rfl, rfl⟩

/-- Whenever the source is asked to open the library, it fails once more or opens it. -/
theorem openings (next : Next plan s s' φ φ') :
    φ'.failed + φ'.opened.toNat = φ.failed + φ.opened.toNat + s.isOpening.toNat := by
  cases next with
  | keeps _ other => rw [other]; rfl
  | marks _ _ marked => cases s <;> first | rfl | exact absurd marked (by simp [Stage.marked?])
  | fails early => simp [early, Stage.isOpening]
  | opens early => simp [early, Stage.isOpening]
  | registers | stores | resolves | binds => rfl

/-- The library is opened by a thread that goes on behind the opening. -/
theorem opened (next : Next plan s s' φ φ') (h : φ'.opened) :
    φ.opened ∨ (s'.failure? = none ∧ s'.remaining = 13) := by
  cases next with
  | opens => exact Or.inr ⟨rfl, rfl⟩
  | _ => exact Or.inl h

/-- A lock is given back at a stage that leaves the progress as it is. -/
theorem eq_of_leaves (next : Next plan s s' φ φ')
    (leaves : (∃ o, s = .leaveLoading o) ∨ ∃ o, s = .leaveBinding o) : φ' = φ := by
  obtain ⟨o, rfl⟩ | ⟨o, rfl⟩ := leaves
  all_goals
    cases next with
    | keeps => rfl
    | marks _ _ marked => exact absurd marked (by simp [Stage.marked?])

end Progress.Next

/-! ## All threads -/

namespace Pool

open Process

variable {p : Process} {b : BridgeId} {plan : Plan} {texts : List String} {φ : Progress}
  {moments : List Moment} {pool : Pool} {t : ThreadId}

/-- How a pool of first calls stands. -/
structure Underway (p : Process) (b : BridgeId) (plan : Plan) (texts : List String)
    (moments : List Moment) (pool : Pool) (φ : Progress) : Prop where
  locked : pool.Locked
  goals : pool.tasks.map Task.goal = texts.map (Goal.call b)
  reached : Reached p b plan φ pool.process
  presumes : ∀ (t : ThreadId) (text : String) (s : Stage),
    pool.tasks[t]? = some ⟨.call b text, s⟩ → s.Presumes p plan text φ
  /-- While the lock of the loader is free, no load is under way. -/
  loading : (∀ u, (Lock.loading (pool.process.bridge b).loader, u) ∉ pool.process.held) →
    φ.Settled
  /-- While the lock of the bridge is free, no binding is under way. -/
  binding : (∀ u, (Lock.binding b, u) ∉ pool.process.held) → φ.resolved = φ.bound
  failures : (pool.tasks.filterMap fun task => task.stage.failure?) ~
    (List.range φ.failed).map plan.error
  openings : moments.countP (fun m => m.task.stage.isOpening) = φ.failed + φ.opened.toNat
  /-- Behind the opening of the library at least one thread has not failed. -/
  ahead : φ.opened → ∃ task ∈ pool.tasks, task.stage.failure? = none ∧ task.stage.remaining ≤ 13

/-- Threads that have not begun. -/
theorem Underway.start (unused : p.Unused b) (plan : Plan) (unlocked : p.held = [])
    (texts : List String) : Underway p b plan texts [] ⟨p, texts.map (Task.call b)⟩
      ⟨0, false, false, false, false, false, (p.ownerOf b).state⟩ where
  locked := .of_starting unlocked fun task ht => by
    obtain ⟨text, -, rfl⟩ := List.mem_map.mp ht
    exact Or.inl rfl
  goals := by rw [List.map_map]; rfl
  reached := unused.reached plan
  presumes := fun t text s ht => by
    rw [List.getElem?_map] at ht
    obtain ⟨_, -, he⟩ := Option.map_eq_some_iff.mp ht
    cases he
    trivial
  loading := fun _ => ⟨by simp, by simp⟩
  binding := fun _ => rfl
  failures := by
    have none : ((texts.map (Task.call b)).filterMap fun task => task.stage.failure?) = [] := by
      rw [List.filterMap_map, List.filterMap_eq_nil_iff]
      exact fun _ _ => rfl
    rw [none]
    rfl
  openings := rfl
  ahead := by simp

/-- The text of a thread. -/
theorem Underway.text (h : Underway p b plan texts moments pool φ) {task : Task}
    (ht : pool.tasks[t]? = some task) :
    ∃ text, texts[t]? = some text ∧ task.goal = .call b text := by
  have goal : (texts.map (Goal.call b))[t]? = some task.goal := by
    rw [← h.goals, List.getElem?_map, ht]
    rfl
  rw [List.getElem?_map] at goal
  obtain ⟨text, here, eq⟩ := Option.map_eq_some_iff.mp goal
  exact ⟨text, here, eq.symm⟩

/-! ### One stage -/

namespace Underway

variable {q : Process} {text : String} {s s' : Stage} {φ' : Progress}

theorem goals_set (h : Underway p b plan texts moments pool φ)
    (ht : pool.tasks[t]? = some ⟨.call b text, s⟩) :
    (pool.tasks.set t ⟨.call b text, s'⟩).map Task.goal = texts.map (Goal.call b) := by
  have here : (pool.tasks.map Task.goal)[t]? = some (.call b text) := by
    rw [List.getElem?_map, ht]
    rfl
  obtain ⟨hlt, same⟩ := List.getElem?_eq_some_iff.mp here
  rw [List.map_set, ← h.goals]
  show List.set _ t (Goal.call b text) = _
  rw [← same, List.set_getElem_self]

theorem presumes_set (h : Underway p b plan texts moments pool φ)
    (ht : pool.tasks[t]? = some ⟨.call b text, s⟩) (next : Progress.Next plan s s' φ φ')
    (presumes : s'.Presumes p plan text φ') (u : ThreadId) (text' : String) (v : Stage)
    (hu : (pool.tasks.set t ⟨.call b text, s'⟩)[u]? = some ⟨.call b text', v⟩) :
    v.Presumes p plan text' φ' := by
  by_cases hut : u = t
  · subst hut
    rw [List.getElem?_set_self (List.getElem?_eq_some_iff.mp ht).1] at hu
    cases hu
    exact presumes
  · rw [List.getElem?_set_ne (Ne.symm hut)] at hu
    have under := fun k => h.locked.not_holds_of_other (k := k) ht hu hut
    refine next.presumes_other (h.presumes u text' v hu) (fun hv => ?_) fun hv => ?_
    · have := under (.loading _) ⟨hv, rfl⟩
      simpa [Task.holds, Task.loaderOf] using this
    · have := under (.binding _) ⟨hv, rfl⟩
      simpa [Task.holds, Task.callOf] using this

/-- Whoever gives back the lock of the loader leaves no load under way. -/
theorem settled_of_free (h : Underway p b plan texts moments pool φ)
    (ht : pool.tasks[t]? = some ⟨.call b text, s⟩)
    (ha : Task.advance t pool.process (.call b text) s = some (q, s'))
    (next : Progress.Next plan s s' φ φ')
    (free : ∀ u, (Lock.loading (q.bridge b).loader, u) ∉ q.held) : φ'.Settled := by
  rw [(Task.advance_stays ha).owner_eq] at free
  rcases hs : s.inLoading with _ | _
  · have unlocked : ¬ Task.holds pool.process (.call b text) s
        (.loading (pool.process.bridge b).loader) := by simp [Task.holds, hs]
    exact next.settled hs (h.loading (h.locked.free_of_free ht ha unlocked free))
  · have left : s'.inLoading = false := by
      have := h.locked.not_holds_of_free_behind ht ha free
      simpa [Task.holds, Task.loaderOf, (Task.advance_stays ha).owner_eq] using this
    obtain ⟨o, rfl⟩ := Task.leaves_loading ha hs left
    rw [next.eq_of_leaves (Or.inl ⟨o, rfl⟩)]
    exact (h.presumes t text _ ht).settled

/-- Whoever gives back the lock of the bridge leaves no binding under way. -/
theorem even_of_free (h : Underway p b plan texts moments pool φ)
    (ht : pool.tasks[t]? = some ⟨.call b text, s⟩)
    (ha : Task.advance t pool.process (.call b text) s = some (q, s'))
    (next : Progress.Next plan s s' φ φ') (free : ∀ u, (Lock.binding b, u) ∉ q.held) :
    φ'.resolved = φ'.bound := by
  rcases hs : s.inBinding with _ | _
  · have unlocked : ¬ Task.holds pool.process (.call b text) s (.binding b) := by
      simp [Task.holds, hs]
    exact next.resolved_eq_bound hs (h.binding (h.locked.free_of_free ht ha unlocked free))
  · have left : s'.inBinding = false := by
      have := h.locked.not_holds_of_free_behind ht ha free
      simpa [Task.holds, Task.callOf] using this
    obtain ⟨o, rfl⟩ := Task.leaves_binding ha hs left
    rw [next.eq_of_leaves (Or.inr ⟨o, rfl⟩)]
    exact h.reached.ordered.resolved_eq_bound (h.presumes t text _ ht).bound

/-- The thread that meets a failure of the source is the only one that leaves with it. -/
theorem failures_set (h : Underway p b plan texts moments pool φ)
    (ht : pool.tasks[t]? = some ⟨.call b text, s⟩) (next : Progress.Next plan s s' φ φ') :
    ((pool.tasks.set t ⟨.call b text, s'⟩).filterMap fun task => task.stage.failure?) ~
      (List.range φ'.failed).map plan.error := by
  have changed := perm_filterMap_set (f := fun task : Task => task.stage.failure?) ht
    ⟨.call b text, s'⟩
  dsimp only at changed
  obtain ⟨same, failed⟩ | ⟨none, -, new, failed⟩ := next.failure
  · rw [same] at changed
    rw [failed]
    exact ((List.perm_append_left_iff _).mp changed).trans h.failures
  · rw [none, new] at changed
    rw [failed, List.range_succ, List.map_append]
    exact changed.trans ((h.failures.cons _).trans (List.perm_append_singleton _ _).symm)

/-- A thread that goes on behind the opening of the library does not turn back. -/
theorem ahead_set (h : Underway p b plan texts moments pool φ)
    (ht : pool.tasks[t]? = some ⟨.call b text, s⟩)
    (ha : Task.advance t pool.process (.call b text) s = some (q, s'))
    (next : Progress.Next plan s s' φ φ') (opened : φ'.opened) :
    ∃ task ∈ pool.tasks.set t ⟨.call b text, s'⟩,
      task.stage.failure? = none ∧ task.stage.remaining ≤ 13 := by
  have mem : ⟨.call b text, s'⟩ ∈ pool.tasks.set t ⟨.call b text, s'⟩ :=
    List.mem_set (List.getElem?_eq_some_iff.mp ht).1 _
  rcases next.opened opened with before | ⟨none, remaining⟩
  · obtain ⟨task, htask, none, remaining⟩ := h.ahead before
    obtain ⟨u, hu⟩ := List.mem_iff_getElem?.mp htask
    by_cases hut : u = t
    · subst hut
      obtain rfl := Option.some.inj (ht.symm.trans hu)
      refine ⟨_, mem, ?_, Nat.le_trans (Nat.le_of_lt (Task.advance_remaining ha)) remaining⟩
      obtain ⟨same, -⟩ | ⟨-, early, -⟩ := next.failure
      · exact same.trans none
      · exact absurd (early.symm.trans before) (by simp)
    · refine ⟨task, List.mem_of_getElem? (i := u) ?_, none, remaining⟩
      rw [List.getElem?_set_ne (Ne.symm hut), hu]
  · exact ⟨_, mem, none, Nat.le_of_eq remaining⟩

/-- **Every stage of every thread keeps how the pool stands.** -/
theorem advance (unused : p.Unused b) (follows : p.Follows b plan)
    (accepts : ∀ text ∈ texts, plan.reference.function.Accepts text)
    (h : Underway p b plan texts moments pool φ) {goal : Goal}
    (ht : pool.tasks[t]? = some ⟨goal, s⟩)
    (ha : Task.advance t pool.process goal s = some (q, s')) :
    ∃ φ', Underway p b plan texts (moments ++ [⟨pool.process, t, ⟨goal, s⟩⟩])
      ⟨q, pool.tasks.set t ⟨goal, s'⟩⟩ φ' := by
  obtain ⟨text, htext, rfl⟩ : ∃ text, texts[t]? = some text ∧ goal = .call b text := h.text ht
  obtain ⟨φ', next, reached, presumes⟩ := Task.advance_reached unused follows
    (accepts text (List.mem_of_getElem? htext)) h.reached (h.presumes t text s ht) h.loading
    h.binding ha
  refine ⟨φ', h.locked.advance ht ha, h.goals_set ht, reached, h.presumes_set ht next presumes,
    h.settled_of_free ht ha next, h.even_of_free ht ha next, h.failures_set ht next, ?_,
    h.ahead_set ht ha next⟩
  rw [List.countP_append, h.openings, next.openings, List.countP_singleton]
  cases s.isOpening <;> rfl

end Underway

/-- **Every run of first calls is under way from its beginning to its end.** -/
theorem Run.underway (unused : p.Unused b) (follows : p.Follows b plan) (unlocked : p.held = [])
    (accepts : ∀ text ∈ texts, plan.reference.function.Accepts text)
    (run : Run ⟨p, texts.map (Task.call b)⟩ moments pool) :
    ∃ φ, Underway p b plan texts moments pool φ :=
  run.induct (motive := fun moments pool => ∃ φ, Underway p b plan texts moments pool φ)
    ⟨_, .start unused plan unlocked texts⟩
    fun _ _ _ _ _ _ _ ⟨_, ih⟩ ht ha => ih.advance unused follows accepts ht ha

/-! ## Where no thread can go on -/

/-- The failure that a thread has ended with. -/
def failureOf : Option (Outcome Answer) → Option BridgeError
  | some (.error e) => some e
  | _ => none

namespace Underway

/-- A thread ends with a failure, or with the answer to its text. -/
theorem ended (h : Underway p b plan texts moments pool φ) (stuck : pool.Stuck) {text : String}
    (ht : texts[t]? = some text) : ∃ s, pool.tasks[t]? = some ⟨.call b text, s⟩ ∧
      ((∃ e, s = .done (.error e)) ∨
        (φ.bound ∧ s = .done (.ok (.length (plan.reference.function.answer text))))) := by
  have goal : (pool.tasks.map Task.goal)[t]? = some (.call b text) := by
    rw [h.goals, List.getElem?_map, ht]
    rfl
  rw [List.getElem?_map] at goal
  obtain ⟨⟨_, s⟩, here, rfl⟩ := Option.map_eq_some_iff.mp goal
  have presumes := h.presumes t text s here
  obtain ⟨o, rfl⟩ : ∃ o, s = .done o := h.locked.done_of_stuck stuck (List.mem_of_getElem? here)
  refine ⟨.done o, here, ?_⟩
  cases o with
  | ok a => exact Or.inr ⟨presumes.1, by rw [presumes.2]⟩
  | error e => exact Or.inl ⟨e, rfl⟩
  | panic => exact absurd presumes id

theorem length_tasks (h : Underway p b plan texts moments pool φ) :
    pool.tasks.length = texts.length := by
  simpa using congrArg List.length h.goals

theorem length_failures (h : Underway p b plan texts moments pool φ) :
    (pool.tasks.filterMap fun task => task.stage.failure?).length = φ.failed := by
  simpa using h.failures.length_eq

/-- If the library was opened, a thread has not failed, and the function is bound. -/
theorem of_opened (h : Underway p b plan texts moments pool φ) (stuck : pool.Stuck)
    (opened : φ.opened) : φ.failed < texts.length ∧ φ.bound := by
  obtain ⟨task, mem, none, -⟩ := h.ahead opened
  constructor
  · rw [← h.length_failures, ← h.length_tasks]
    exact List.length_filterMap_lt_length_iff_exists.mpr ⟨task, mem, none⟩
  · obtain ⟨t, ht⟩ := List.mem_iff_getElem?.mp mem
    obtain ⟨text, htext, -⟩ := h.text ht
    obtain ⟨s, hs, ⟨e, rfl⟩ | ⟨bound, -⟩⟩ := h.ended stuck htext
    · obtain rfl := Option.some.inj (ht.symm.trans hs)
      exact absurd none (by simp [Stage.failure?])
    · exact bound

/-- If the library was not opened, every thread has failed. -/
theorem of_not_opened (h : Underway p b plan texts moments pool φ) (stuck : pool.Stuck)
    (early : φ.opened = false) : φ.failed = texts.length := by
  have ordered := h.reached.ordered
  have unstored := ordered.not_stored (ordered.not_registered early)
  have unbound := ordered.not_bound (ordered.not_resolved unstored)
  rw [← h.length_failures, ← h.length_tasks]
  refine List.filterMap_length_eq_length.mpr fun task mem => ?_
  obtain ⟨t, ht⟩ := List.mem_iff_getElem?.mp mem
  obtain ⟨text, htext, -⟩ := h.text ht
  obtain ⟨s, hs, ⟨e, rfl⟩ | ⟨bound, -⟩⟩ := h.ended stuck htext
  · obtain rfl := Option.some.inj (ht.symm.trans hs)
    rfl
  · exact absurd (unbound.symm.trans bound) (by simp)

/-- The library was opened if there were more threads than failures planned. -/
theorem opened_iff (h : Underway p b plan texts moments pool φ) (stuck : pool.Stuck) :
    φ.opened ↔ plan.failures < texts.length := by
  have ordered := h.reached.ordered
  constructor
  · intro opened
    rw [← ordered.opened opened]
    exact (h.of_opened stuck opened).1
  · intro more
    by_contra early
    have all := h.of_not_opened stuck (by simpa using early)
    exact absurd (all ▸ ordered.failed) (Nat.not_le_of_lt more)

/-- The source has failed as often as planned, or as often as there were threads. -/
theorem failed_eq (h : Underway p b plan texts moments pool φ) (stuck : pool.Stuck) :
    φ.failed = min plan.failures texts.length := by
  have ordered := h.reached.ordered
  rcases opened : φ.opened with _ | _
  · have all := h.of_not_opened stuck opened
    rw [all, Nat.min_eq_right (all ▸ ordered.failed)]
  · have more := (h.opened_iff stuck).mp opened
    rw [ordered.opened opened, Nat.min_eq_left (Nat.le_of_lt more)]

/-- How often the source was asked to open the library. -/
theorem countP_openings (h : Underway p b plan texts moments pool φ) (stuck : pool.Stuck) :
    moments.countP (fun m => m.task.stage.isOpening) = min texts.length (plan.failures + 1) := by
  have opened := h.opened_iff stuck
  rw [h.openings, h.failed_eq stuck]
  by_cases more : plan.failures < texts.length
  · rw [opened.mpr more]
    simp only [Bool.toNat_true]
    omega
  · rw [Bool.eq_false_iff.mpr fun early => more (opened.mp early)]
    simp only [Bool.toNat_false]
    omega

/-- The failures of the threads are those of the source. -/
theorem failures_outcomes (h : Underway p b plan texts moments pool φ) (stuck : pool.Stuck) :
    pool.outcomes.filterMap failureOf ~
      (List.range (min plan.failures texts.length)).map plan.error := by
  rw [← h.failed_eq stuck, Pool.outcomes, List.filterMap_map]
  refine Eq.subst (motive := fun failures => failures ~ _) (List.filterMap_congr ?_) h.failures
  intro task mem
  obtain ⟨o, done⟩ := h.locked.done_of_stuck stuck mem
  obtain ⟨goal, s⟩ := task
  obtain rfl : s = .done o := done
  cases o <;> rfl

/-- Every thread returns, with a failure that the source has had or with its own answer. -/
theorem outcome (h : Underway p b plan texts moments pool φ) (stuck : pool.Stuck) {text : String}
    (ht : texts[t]? = some text) : ∃ o, pool.outcomes[t]? = some (some o) ∧
      ((∃ n < min plan.failures texts.length, o = .error (plan.error n)) ∨
        o = .ok (.length (plan.reference.function.answer text))) := by
  obtain ⟨s, hs, ended⟩ := h.ended stuck ht
  have outcome : pool.outcomes[t]? = some (Task.outcome? ⟨.call b text, s⟩) := by
    rw [Pool.outcomes, List.getElem?_map, hs]
    rfl
  obtain ⟨e, rfl⟩ | ⟨-, rfl⟩ := ended
  · have mem : e ∈ pool.outcomes.filterMap failureOf :=
      List.mem_filterMap.mpr ⟨_, List.mem_of_getElem? outcome, rfl⟩
    obtain ⟨n, hn, rfl⟩ := List.mem_map.mp ((h.failures_outcomes stuck).mem_iff.mp mem)
    exact ⟨_, outcome, Or.inl ⟨n, List.mem_range.mp hn, rfl⟩⟩
  · exact ⟨_, outcome, Or.inr rfl⟩

theorem settled (h : Underway p b plan texts moments pool φ) (stuck : pool.Stuck) : φ.Settled := by
  refine h.loading fun u hu => ?_
  rw [h.locked.held_of_stuck stuck] at hu
  exact absurd hu List.not_mem_nil

/-- With a thread left to ask, the library is loaded and the function is bound. -/
theorem loaded_of_lt (follows : p.Follows b plan) (h : Underway p b plan texts moments pool φ)
    (stuck : pool.Stuck) (more : plan.failures < texts.length) :
    (pool.process.ownerOf b).state = .loaded ∧
      (pool.process.ownerOf b).handle = some plan.reference.handle ∧
      (pool.process.bridge b).bound = some plan.reference ∧
      pool.process.registered? (p.host.registryKey plan.path) = some plan.reference.handle := by
  have ordered := h.reached.ordered
  have opened := (h.opened_iff stuck).mpr more
  have bound := (h.of_opened stuck opened).2
  have stored := ordered.resolved (ordered.bound bound)
  refine ⟨h.reached.state.trans ((h.settled stuck).loaded opened).2,
    h.reached.handle.trans (if_pos stored), h.reached.bound.trans (if_pos bound), ?_⟩
  have none := Option.map_eq_none_iff.mp follows.unregistered
  rw [registered?, h.reached.registry, if_pos (ordered.stored stored), List.find?_append, none]
  simp [Path.same]

/-- With no thread left to ask, nothing is kept. -/
theorem failed_of_le (follows : p.Follows b plan) (h : Underway p b plan texts moments pool φ)
    (stuck : pool.Stuck) (threads : 0 < texts.length) (few : texts.length ≤ plan.failures) :
    (pool.process.ownerOf b).state = .failed ∧ (pool.process.ownerOf b).handle = none ∧
      (pool.process.bridge b).bound = none ∧ pool.process.registry = p.registry ∧
      pool.process.registered? (p.host.registryKey plan.path) = none := by
  have ordered := h.reached.ordered
  have early : φ.opened = false := Bool.eq_false_iff.mpr fun early =>
    Nat.not_le_of_lt ((h.opened_iff stuck).mp early) few
  have unregistered := ordered.not_registered early
  have unstored := ordered.not_stored unregistered
  have unbound := ordered.not_bound (ordered.not_resolved unstored)
  have failed : 0 < φ.failed := h.of_not_opened stuck early ▸ threads
  exact ⟨h.reached.state.trans ((h.settled stuck).failed early failed),
    h.reached.handle.trans (if_neg (by simp [unstored])),
    h.reached.bound.trans (if_neg (by simp [unbound])),
    h.reached.registry.trans (if_neg (by simp [unregistered])),
    h.reached.registered?_eq_none follows unregistered⟩

end Underway

/-- Threads that have not begun a call have 23 stages before them. -/
theorem remaining_calls (p : Process) (b : BridgeId) (texts : List String) :
    Pool.remaining ⟨p, texts.map (Task.call b)⟩ = 23 * texts.length := by
  induction texts with
  | nil => rfl
  | cons text texts ih =>
    show 23 + Pool.remaining ⟨p, texts.map (Task.call b)⟩ = _
    rw [ih, List.length_cons]
    omega

/-- **First calls under any order of their stages.**  Threads call an unused bridge at
the same time, and its source fails to open the library `plan.failures` times before it
opens it.  Every run comes to where no thread can go on, and there each has returned: as
many as the source has failed, with its failures, each with one, and all others with the
answer to their own text.  The source was asked to open the library once for each failure,
and once more if a thread was left to ask.  If one was, the library is loaded and
registered and the function is bound; otherwise nothing has been kept. -/
theorem first_calls (unused : p.Unused b) (follows : p.Follows b plan) (unlocked : p.held = [])
    (accepts : ∀ text ∈ texts, plan.reference.function.Accepts text)
    (run : Run ⟨p, texts.map (Task.call b)⟩ moments pool) :
    moments.length ≤ 23 * texts.length ∧
    (pool.Stuck →
      pool.outcomes.filterMap failureOf ~
        (List.range (min plan.failures texts.length)).map plan.error ∧
      (∀ (t : ThreadId) (text : String), texts[t]? = some text →
        ∃ o, pool.outcomes[t]? = some (some o) ∧
          ((∃ n < min plan.failures texts.length, o = .error (plan.error n)) ∨
            o = .ok (.length (plan.reference.function.answer text)))) ∧
      moments.countP (fun m => m.task.stage.isOpening) =
        min texts.length (plan.failures + 1) ∧
      (plan.failures < texts.length → (pool.process.ownerOf b).state = .loaded ∧
        (pool.process.ownerOf b).handle = some plan.reference.handle ∧
        (pool.process.bridge b).bound = some plan.reference ∧
        pool.process.registered? (p.host.registryKey plan.path) = some plan.reference.handle) ∧
      (0 < texts.length → texts.length ≤ plan.failures →
        (pool.process.ownerOf b).state = .failed ∧ (pool.process.ownerOf b).handle = none ∧
        (pool.process.bridge b).bound = none ∧ pool.process.registry = p.registry ∧
        pool.process.registered? (p.host.registryKey plan.path) = none)) := by
  have finite := run.length_le
  rw [remaining_calls] at finite
  refine ⟨Nat.le_trans (Nat.le_add_right ..) finite, fun stuck => ?_⟩
  obtain ⟨φ, h⟩ := run.underway unused follows unlocked accepts
  exact ⟨h.failures_outcomes stuck, fun t text ht => h.outcome stuck ht, h.countP_openings stuck,
    h.loaded_of_lt follows stuck, h.failed_of_le follows stuck⟩

/-- Two threads take turns over a source that fails to open its library once: one has the
failure, and the library is loaded by the other. -/
theorem first_calls_linked :
    let symbols : Named Function := [("f", .scalarLength)]
    let path := InProcess.pathOf ⟨0, "l", symbols⟩ "l"
    let made := (Process.start ⟨.empty, ["gone"], none, none, []⟩).newWatch
      (.inProcess ⟨0, "l", symbols⟩) none ⟨"w", [], [.fail], []⟩
    let pool : Pool := ⟨(made.2.newBridge "l" "f" made.1).2, ["aé", "b"].map (Task.call 0)⟩
    (pool.run 0).outcomes.filterMap failureOf ~
        [.libraryLoad path (.given "injected failure")] ∧
      (pool.moments 0).countP (fun m => m.task.stage.isOpening) = 2 ∧
      ((pool.run 0).process.ownerOf 0).state = .loaded := by
  intro symbols path made pool
  let plan : Plan := ⟨path, 1, fun _ => .libraryLoad path (.given "injected failure"),
    .registered symbols, ⟨0, "f", .callable, .scalarLength⟩⟩
  have unused : pool.process.Unused 0 := unused_newBridge ..
  have locates : pool.process.coming (pool.process.ownerOf 0).source.watch .locate = [] := rfl
  have follows : pool.process.Follows 0 plan :=
    { locates := fun n => by rw [verdict, locates, List.getD_nil]; decide
      unregistered := rfl
      fails := fun n hn => by
        obtain rfl : n = 0 := Nat.lt_one_iff.mp hn
        decide
      opens := by decide
      binds := by decide }
  have accepts : ∀ text ∈ ["aé", "b"], plan.reference.function.Accepts text := by decide
  obtain ⟨failures, -, openings, loaded, -⟩ :=
    (first_calls unused follows rfl accepts (pool.run_moments 0)).2 (pool.stuck_run 0)
  exact ⟨failures, openings, (loaded (by decide)).1⟩

end Pool
end Linkage
