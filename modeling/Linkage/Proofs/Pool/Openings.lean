import Linkage.Proofs.Pool.Account

/-!
# How often threads open and write

A source is asked to open a library under the lock of the registry, and only for a place that
is not registered (`Stage.Owes`).  If it opens the library, the place stays unregistered for
one stage more, and the thread that is to register it is under the lock still.  So the places
for which libraries have been opened are registered, or one thread is just about to register
the last of them: that is the invariant (`Pool.Openings`), and it leaves no room for a second
library at the same place (`Run.openings`).

A loader is written to under its own lock, by a thread that has found it without a handle.  The
handles that a run writes to a loader are those that the loader has behind the run and had not
before it (`Run.stored`).
-/

namespace Linkage

open Process

/-- The place for which a library is opened at a moment, if the source opens it. -/
def Moment.opened? (m : Moment) : Option Path :=
  match m.task.stage with
  | .opening path key =>
    let l := Task.loaderOf m.process m.task.goal
    match (m.process.openLibrary (m.process.loader l).source path (some l)).1 with
    | .ok _ => some key
    | _ => none
  | _ => none

/-- The handle that a moment writes to a loader. -/
def Moment.stored? (l : LoaderId) (m : Moment) : Option Handle :=
  match m.task.stage with
  | .storeHandle a => if Task.loaderOf m.process m.task.goal = l then some a.handle else none
  | _ => none

/-- Whether a place is registered does not depend on its spelling. -/
theorem Process.registered?_of_same {p : Process} {j k : Path} (same : j.same k) :
    p.registered? j = p.registered? k := by
  rw [registered?, registered?]
  simp only [Path.same, Path.same_iff.mp same]

namespace Pool

variable {a b : Pool} {t : ThreadId} {ev : History} {moments : List Moment} {keys : List Path}

/-! ## Openings -/

/-- The places for which libraries have been opened: no two of them are the same, and each is
registered, or a thread is about to register it. -/
structure Openings (pool : Pool) (keys : List Path) : Prop where
  apart : keys.Pairwise fun j k => ¬ j.same k
  known : ∀ key ∈ keys, (pool.process.registered? key).isSome ∨
    ∃ (t : ThreadId) (goal : Goal) (r : Load),
      pool.tasks[t]? = some ⟨goal, .register r⟩ ∧ r.key = key

/-- Before threads begin, the registry has the places for which libraries have been opened. -/
theorem Openings.of_account (account : Account a.process ev) :
    a.Openings (a.process.registry.map (·.1)) where
  apart := by
    rw [account.registry, List.map_map, List.pairwise_map]
    have distinct := List.pairwise_map.mp account.distinct
    exact distinct.imp fun differ same => differ (Path.same_iff.mp same)
  known := fun key mem => by
    obtain ⟨⟨key, i⟩, entry, rfl⟩ := List.mem_map.mp mem
    refine Or.inl (Option.isSome_map.trans (List.find?_isSome.mpr ⟨_, entry, ?_⟩))
    exact Path.same_refl key

/-- A library is opened for none of the places for which one has been opened. -/
theorem Openings.new (h : a.Openings keys) (accounted : a.Accounted ev) {goal : Goal}
    {path key : Path} (ht : a.tasks[t]? = some ⟨goal, .opening path key⟩) :
    ∀ j ∈ keys, ¬ j.same key := by
  intro j mem same
  have unregistered : a.process.registered? key = none :=
    (accounted.owes _ (List.mem_of_getElem? ht)).2.2
  rcases h.known j mem with registered | ⟨u, goal', r, hu, rfl⟩
  · rw [registered?_of_same same, unregistered] at registered
    exact absurd registered (by simp)
  · -- the other thread would be under the lock of the registry as well
    obtain rfl := accounted.locked.unique (k := .registry) ⟨_, _, hu, rfl⟩ ⟨_, _, ht, rfl⟩
    exact absurd (ht.symm.trans hu) (by simp)

/-- **Every stage keeps the openings apart.** -/
theorem Openings.advance (h : a.Openings keys) (accounted : a.Accounted ev) {p : Process}
    {goal : Goal} {s s' : Stage} (ht : a.tasks[t]? = some ⟨goal, s⟩)
    (ha : Task.advance t a.process goal s = some (p, s')) :
    Openings ⟨p, a.tasks.set t ⟨goal, s'⟩⟩
      (keys ++ [⟨a.process, t, ⟨goal, s⟩⟩].filterMap Moment.opened?) := by
  have stays := Task.advance_stays ha
  have hlt := (List.getElem?_eq_some_iff.mp ht).1
  have known : ∀ key ∈ keys, (p.registered? key).isSome ∨
      ∃ (u : ThreadId) (goal' : Goal) (r : Load),
        (a.tasks.set t ⟨goal, s'⟩)[u]? = some ⟨goal', .register r⟩ ∧ r.key = key := by
    intro key mem
    rcases h.known key mem with registered | ⟨u, goal', r, hu, rfl⟩
    · obtain ⟨i, hi⟩ := Option.isSome_iff_exists.mp registered
      exact Or.inl (Option.isSome_iff_exists.mpr ⟨i, stays.registered? hi⟩)
    · by_cases hut : u = t
      · subst hut
        obtain ⟨rfl, rfl⟩ := Task.mk.injEq .. ▸ Option.some.inj (ht.symm.trans hu)
        cases ha
        refine Or.inl (Option.isSome_map.trans (List.find?_isSome.mpr ⟨(r.key, r.handle), ?_⟩))
        exact ⟨List.mem_append_right _ (List.mem_singleton_self _), Path.same_refl _⟩
      · exact Or.inr ⟨u, goal', r, by rwa [List.getElem?_set_ne (Ne.symm hut)], rfl⟩
  rcases opened : Moment.opened? ⟨a.process, t, ⟨goal, s⟩⟩ with _ | key
  · rw [List.filterMap_cons_none opened, List.filterMap_nil, List.append_nil]
    exact ⟨h.apart, known⟩
  · rw [List.filterMap_cons_some opened, List.filterMap_nil]
    cases s with
    | opening path key' =>
      simp only [Moment.opened?] at opened
      split at opened <;> rename_i answer
      · obtain rfl := Option.some.inj opened
        refine ⟨List.pairwise_append.mpr ⟨h.apart, List.pairwise_singleton .., ?_⟩, ?_⟩
        · intro j mem k hk
          obtain rfl := List.mem_singleton.mp hk
          exact h.new accounted ht j mem
        · intro k mem
          rcases List.mem_append.mp mem with old | new
          · exact known k old
          · obtain rfl := List.mem_singleton.mp new
            simp only [Task.advance] at ha
            split at ha <;> rename_i took <;> cases ha <;> rw [took] at answer
            · exact Or.inr ⟨t, goal, _, List.getElem?_set_self hlt, rfl⟩
            · exact absurd answer (by simp)
            · exact absurd answer (by simp)
      · exact absurd opened (by simp)
    | _ => exact absurd opened (by simp [Moment.opened?])

/-- **In every run a library is opened at most once for each place**, and for none that was
registered before the run. -/
theorem Run.openings (run : Run a moments b) (accounted : a.Accounted ev)
    (h : a.Openings keys) : b.Openings (keys ++ moments.filterMap Moment.opened?) := by
  refine (run.induct (motive := fun moments b => b.Accounted (ev ++ historyOf moments) ∧
    b.Openings (keys ++ moments.filterMap Moment.opened?)) ?_ ?_).2
  · exact ⟨by simpa [historyOf] using accounted, by simpa using h⟩
  · intro moments b t goal s p s' before ht ha
    obtain ⟨accounted, openings⟩ := before
    have next := openings.advance accounted ht ha
    refine ⟨?_, ?_⟩
    · rw [historyOf_concat, ← List.append_assoc]
      exact accounted.advance ht ha
    · rw [List.filterMap_append, ← List.append_assoc]
      exact next

/-! ## Handles -/

/-- The handles that a run writes to a loader are those of the loads in its history. -/
theorem loads_historyOf (moments : List Moment) (l : LoaderId) :
    ((historyOf moments).loads l).map (·.handle) = moments.filterMap (Moment.stored? l) := by
  rw [historyOf, History.loads, List.filterMap_filterMap, List.map_filterMap]
  refine List.filterMap_congr fun m _ => ?_
  obtain ⟨p, t, goal, s⟩ := m
  cases s with
  | storeHandle a =>
    by_cases own : Task.loaderOf p goal = l <;>
      simp [Moment.event?, Stage.event?, Moment.stored?, own]
  | _ => rfl

/-- **The handles that a run writes to a loader** are those that the loader has behind the run
and had not before it. -/
theorem Run.stored (run : Run a moments b) (accounted : a.Accounted ev) (l : LoaderId) :
    (a.process.loader l).handle.toList ++ moments.filterMap (Moment.stored? l) =
      (b.process.loader l).handle.toList := by
  rw [← (run.accounted accounted).account.stored l, History.loads_append, List.map_append,
    loads_historyOf, accounted.account.stored l]

end Pool
end Linkage
