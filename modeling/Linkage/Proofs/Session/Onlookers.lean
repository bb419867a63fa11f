import Linkage.Proofs.Process.FirstUse
import Linkage.Proofs.Session.Standing

/-!
# What onlookers see of a bridge

While threads load and call, others look at a bridge: they read the state of its loader, or
whether its function is bound.  Each look is one step that takes no lock and changes nothing
(`Pool.act?`), so it may fall between any two stages, and what is seen is kept as a list
of *sights*, together with the handles that the threads have been given (`Pool.watch`).

A handle is written before the state is.  In between, a thread that comes along finds the
handle without taking the lock; it goes away with it, and may even bind the function with
it, while the state is still `loading` (`loading_behind_handle`).  The other way round all
is well.  `state_behind_handle` says how far the state may lag behind the handle: until the
thread that has written the handle has made its next step.  And a state `loaded` that was
seen once is there for good.
-/

namespace Linkage

open Process

/-- The handle that a moment gives to the thread that has asked a loader for it. -/
def Moment.answered? (l : LoaderId) (m : Moment) : Option Handle :=
  if Task.loaderOf m.process m.task.goal = l then
    match m.task.stage with
    | .readHandle => (m.process.loader l).handle
    | .leaveLoading (.ok h) => some h
    | _ => none
  else none

namespace Pool

/-- What happens at a bridge. -/
inductive Act where
  /-- A thread goes on. -/
  | go (t : ThreadId)
  /-- Someone reads the state of the loader. -/
  | askState
  /-- Someone reads whether the function is bound. -/
  | askBound

/-- What is seen of a bridge. -/
inductive Sight where
  /-- A thread that has asked for the handle is given it. -/
  | answer (h : Handle)
  | state (s : LoadState)
  | bound (isBound : Bool)
  deriving DecidableEq

/-- One act at a bridge: what is seen, and the pool behind it. -/
def act? (b : BridgeId) (pool : Pool) : Act → Option (Option Sight × Pool)
  | .go t =>
    match pool.tasks[t]?, pool.step? t with
    | some task, some next =>
      let m : Moment := ⟨pool.process, t, task⟩
      some ((m.answered? (pool.process.bridge b).loader).map .answer, next)
    | _, _ => none
  | .askState => some (some (.state (pool.process.ownerOf b).state), pool)
  | .askBound => some (some (.bound (pool.process.bridge b).bound.isSome), pool)

/-- What is seen of a bridge in the course of some acts, and the pool behind them. -/
def watch (b : BridgeId) (pool : Pool) : List Act → Option (List Sight × Pool)
  | [] => some ([], pool)
  | act :: acts =>
    (pool.act? b act).bind fun (sight, next) =>
      (next.watch b acts).map fun (sights, behind) => (sight.toList ++ sights, behind)

/-- What a sight tells of all that comes behind it. -/
def Sight.Tells (p : Process) (b : BridgeId) : Sight → Prop
  | .answer h => (p.ownerOf b).handle = some h
  | .state s => s = .loaded → (p.ownerOf b).state = .loaded
  | .bound isBound => isBound → (p.bridge b).bound.isSome

/-- What has to be known of a pool in which a bridge is watched. -/
structure Watched (pool : Pool) (b : BridgeId) : Prop where
  standing : ∃ attempts, pool.Standing (pool.process.bridge b).loader attempts
  fitting : pool.Fitting

variable {a c : Pool} {b : BridgeId} {act : Act} {acts : List Act} {sight : Sight}
  {sights : List Sight}

/-- What holds of a pool keeps holding of all that come behind it. -/
structure Lasts (a c : Pool) (b : BridgeId) : Prop where
  stays : a.process.Stays c.process
  loaded : (a.process.ownerOf b).state = .loaded → (c.process.ownerOf b).state = .loaded

theorem Lasts.refl (a : Pool) (b : BridgeId) : Lasts a a b := ⟨.refl _, id⟩

theorem Lasts.trans {d : Pool} (h : Lasts a c b) (h' : Lasts c d b) : Lasts a d b :=
  ⟨h.stays.trans h'.stays, fun loaded => h'.loaded (h.loaded loaded)⟩

/-- A sight tells the same of all that come behind. -/
theorem Sight.Tells.lasts (h : sight.Tells a.process b) (lasts : Lasts a c b) :
    sight.Tells c.process b := by
  have stays := lasts.stays
  cases sight with
  | answer i =>
    show (c.process.loader (c.process.bridge b).loader).handle = some i
    rw [stays.owner_eq]
    exact stays.handle _ _ h
  | state s => exact fun loaded => lasts.loaded (h loaded)
  | bound isBound =>
    intro isBound
    obtain ⟨r, hr⟩ := Option.isSome_iff_exists.mp (h isBound)
    rw [stays.bound _ _ hr]
    rfl

/-! ## One act -/

/-- A thread is given the handle of the loader. -/
theorem handle_of_answered (fitting : a.Fitting) {t : ThreadId} {task : Task}
    (ht : a.tasks[t]? = some task) {l : LoaderId} {h : Handle}
    (answered : Moment.answered? l ⟨a.process, t, task⟩ = some h) :
    (a.process.loader l).handle = some h := by
  have fits := fitting.fits task (List.mem_of_getElem? ht)
  rw [Moment.answered?] at answered
  split at answered
  · rename_i own
    dsimp only at own answered
    split at answered
    · exact answered
    · rename_i stage
      cases answered
      rw [stage] at fits
      rw [← own]
      exact fits
    · exact absurd answered (by simp)
  · exact absurd answered (by simp)

/-- **An act keeps what is known, and what is seen in it will last.** -/
theorem Watched.act_lasts (h : a.Watched b) {seen : Option Sight} (now : a.act? b act = some (seen, c)) :
    c.Watched b ∧ Lasts a c b ∧ ∀ sight ∈ seen, sight.Tells c.process b := by
  obtain ⟨⟨attempts, standing⟩, fitting⟩ := h
  cases act with
  | askState =>
    cases now
    refine ⟨⟨⟨attempts, standing⟩, fitting⟩, .refl .., fun sight mem => ?_⟩
    obtain rfl := Option.some.inj mem
    exact id
  | askBound =>
    cases now
    refine ⟨⟨⟨attempts, standing⟩, fitting⟩, .refl .., fun sight mem => ?_⟩
    obtain rfl := Option.some.inj mem
    exact id
  | go t =>
    simp only [act?] at now
    split at now
    · rename_i task next ht hstep
      cases now
      obtain ⟨goal, s, p, s', ht', ha, rfl⟩ := step?_eq_some.mp hstep
      obtain rfl := Option.some.inj (ht.symm.trans ht')
      have stays := Task.advance_stays ha
      have lasts : Lasts a ⟨p, a.tasks.set t ⟨goal, s'⟩⟩ b := by
        refine ⟨stays, fun loaded => ?_⟩
        show (p.loader (p.bridge b).loader).state = .loaded
        rw [stays.owner_eq]
        exact standing.loaded_advance ht ha loaded
      have onward : ∃ attempts, Standing ⟨p, a.tasks.set t ⟨goal, s'⟩⟩ (p.bridge b).loader
          attempts := by
        rw [stays.owner_eq]
        exact ⟨_, standing.advance ht ha⟩
      refine ⟨⟨onward, fitting.advance ht ha⟩, lasts, fun sight mem => ?_⟩
      obtain ⟨i, answered, rfl⟩ := Option.map_eq_some_iff.mp mem
      have given : Sight.Tells a.process b (.answer i) := handle_of_answered fitting ht answered
      exact given.lasts lasts
    · exact absurd now (by simp)

/-- **What is seen in the course of some acts holds behind them.** -/
theorem Watched.watch_lasts (h : a.Watched b) (now : a.watch b acts = some (sights, c)) :
    c.Watched b ∧ Lasts a c b ∧ ∀ sight ∈ sights, sight.Tells c.process b := by
  induction acts generalizing a sights with
  | nil =>
    cases now
    exact ⟨h, .refl .., fun sight mem => absurd mem List.not_mem_nil⟩
  | cons act acts ih =>
    obtain ⟨⟨seen, next⟩, first, rest⟩ := Option.bind_eq_some_iff.mp now
    obtain ⟨⟨later, behind⟩, rest, he⟩ := Option.map_eq_some_iff.mp rest
    cases he
    obtain ⟨watched, lasts, tells⟩ := h.act_lasts first
    obtain ⟨watched', lasts', tells'⟩ := ih watched rest
    refine ⟨watched', lasts.trans lasts', fun sight mem => ?_⟩
    rcases List.mem_append.mp mem with mem | mem
    · exact (tells sight (Option.mem_toList.mp mem)).lasts lasts'
    · exact tells' sight mem

end Pool

namespace Session

/-- **How far the state lags behind the handle.**  Let threads go on behind any commands, and
let onlookers look at a bridge in between.  Once a thread has been given the handle of its
loader, or its function was bound, the state is `loaded`; or it is `loading` yet, and then
some thread has written the handle and is just about to write the state.  Where `loaded` was
seen, it is `loaded` from then on.  And while no thread is under the lock of the loader, the
state is `loaded` exactly if there is a handle. -/
theorem state_behind_handle (host : Host) (cs : List Command) (b : BridgeId)
    {tasks : List Task} {acts : List Pool.Act} {sights : List Pool.Sight} {pool : Pool}
    (starting : ∀ task ∈ tasks, Pool.Starting task)
    (valid : ∀ task ∈ tasks, Task.loaderOf ((start host).after cs).process task.goal <
      ((start host).after cs).process.loaders.length)
    (watched : Pool.watch b ⟨((start host).after cs).process, tasks⟩ acts = some (sights, pool)) :
    let loader := pool.process.ownerOf b
    ((∃ h, .answer h ∈ sights) ∨ .bound true ∈ sights ∨ (pool.process.bridge b).bound.isSome →
      loader.state = .loaded ∨
        loader.state = .loading ∧ ∃ (t : ThreadId) (goal : Goal) (h : Handle),
          pool.tasks[t]? = some ⟨goal, .markLoaded h⟩ ∧
          Task.loaderOf pool.process goal = (pool.process.bridge b).loader ∧
          loader.handle = some h) ∧
    (.state .loaded ∈ sights → loader.state = .loaded) ∧
    ((∀ t, ¬ pool.Under t (.loading (pool.process.bridge b).loader)) →
      (loader.state = .loaded ↔ loader.handle.isSome)) := by
  intro loader
  have kept := kept_after host cs
  have begun : Pool.Watched ⟨((start host).after cs).process, tasks⟩ b :=
    ⟨⟨_, .of_starting kept.rest.held starting valid (rests_after host cs _)⟩,
      .of_starting kept.rest.bounds starting valid⟩
  obtain ⟨⟨⟨attempts, standing⟩, fitting⟩, -, tells⟩ := begun.watch_lasts watched
  have bound : (pool.process.bridge b).bound.isSome → ∃ h, loader.handle = some h := by
    intro isBound
    obtain ⟨r, hr⟩ := Option.isSome_iff_exists.mp isBound
    exact ⟨r.handle, (fitting.bounds b r hr).handle⟩
  refine ⟨fun seen => ?_, fun seen => tells _ seen rfl, fun free => ?_⟩
  · obtain ⟨h, handle⟩ : ∃ h, loader.handle = some h := by
      rcases seen with ⟨h, seen⟩ | seen | now
      · exact ⟨h, tells _ seen⟩
      · exact bound (tells _ seen rfl)
      · exact bound now
    obtain loaded | ⟨loading, t, goal, ht, own⟩ := standing.published handle
    · exact Or.inl loaded
    · exact Or.inr ⟨loading, t, goal, h, ht, own, handle⟩
  · exact (standing.rests free).isSome_handle.symm

/-- A bridge over functions that are linked in. -/
def linked : List Command :=
  [.source "s" (.linked "l" [("f", .scalarLength)]) none .none,
    .bridge "b" (.ok { Config.default with library := "l", symbol := "f" }) (some "s")]

/-- Two threads are to call it, and one to ask for the handle. -/
def linked.pool : Pool :=
  ⟨((start ⟨.empty, ["gone"], none, none, []⟩).after linked).process,
    [.call 0 "a", .load 0, .call 0 "b"]⟩

/-- The first thread goes on until it has written the handle.  Then the second is given the
handle, the third binds the function with it, and someone looks at the bridge. -/
def linked.acts : List Pool.Act :=
  List.replicate 13 (.go 0) ++ [.go 1] ++ List.replicate 6 (.go 2) ++ [.askBound, .askState]

/-- What is seen in this, and the pool behind it. -/
def linked.behind : List Pool.Sight × Pool := (linked.pool.watch 0 linked.acts).get (by decide)

theorem linked.watch_acts : linked.pool.watch 0 linked.acts = some linked.behind :=
  (Option.some_get _).symm

/-- There the state lags behind the handle, and the first thread is about to write it. -/
theorem state_behind_handle_linked :
    .answer 0 ∈ linked.behind.1 ∧ .bound true ∈ linked.behind.1 ∧
      ∃ (t : ThreadId) (goal : Goal) (h : Handle),
        linked.behind.2.tasks[t]? = some ⟨goal, .markLoaded h⟩ ∧
        (linked.behind.2.process.ownerOf 0).handle = some h := by
  have starting : ∀ task ∈ linked.pool.tasks, Pool.Starting task := by
    intro task mem
    obtain rfl | rfl | rfl : task = .call 0 "a" ∨ task = .load 0 ∨ task = .call 0 "b" := by
      simpa [linked.pool] using mem
    · exact Or.inl rfl
    · exact Or.inr rfl
    · exact Or.inl rfl
  have valid : ∀ task ∈ linked.pool.tasks, Task.loaderOf linked.pool.process task.goal <
      linked.pool.process.loaders.length := by decide
  have answered : .answer 0 ∈ linked.behind.1 := by decide
  have bound : .bound true ∈ linked.behind.1 := by decide
  refine ⟨answered, bound, ?_⟩
  obtain ⟨lags, -, -⟩ := state_behind_handle _ linked 0 starting valid linked.watch_acts
  obtain loaded | ⟨-, t, goal, h, ht, -, handle⟩ := lags (Or.inl ⟨0, answered⟩)
  · exact absurd loaded (by decide)
  · exact ⟨t, goal, h, ht, handle⟩

/-- **The handle is out before the state is.**  A thread has been given the handle, another
has bound the function, and whoever looks at the state then still sees `loading`. -/
theorem loading_behind_handle :
    ∃ acts sights pool, linked.pool.watch 0 acts = some (sights ++ [.state .loading], pool) ∧
      pool.outcomes[1]? = some (some (.ok (.handle 0))) ∧ .answer 0 ∈ sights ∧
      .bound true ∈ sights ∧ (pool.process.bridge 0).bound.isSome ∧
      (pool.process.ownerOf 0).state = .loading := by
  refine ⟨linked.acts, [.answer 0, .answer 0, .bound true], linked.behind.2, ?_, by decide,
    by decide, by decide, by decide, by decide⟩
  have sights : linked.behind.1 = [.answer 0, .answer 0, .bound true, .state .loading] := by decide
  rw [linked.watch_acts, ← Prod.eta linked.behind, sights]
  rfl

end Session
end Linkage
