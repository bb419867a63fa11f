import Linkage.Proofs.Pool.Standing
import Linkage.Proofs.Session.Reach

/-!
# Where the loaders of a session stand

Commands make attempts to load, one after the other or from several threads at once, and
between two commands every loader is as the attempts on it have come out (`rests_after`).
Together with what holds in every run of threads this tells the state of a loader at all
times: `state_follows_attempts` lets any threads go on in the process that commands have
left behind, and counts the attempts of both.

The state is meant to take the steps of `LoadState.leadsTo`, and never to be `loading`
while no attempt is under way.  Attempts that succeed or fail are true to both.  One that
panics is not: it leaves `loading` behind, and the next one writes `loading` over it
(`panic_leaves_loading`).
-/

namespace Linkage

open Process

namespace Session

variable {s : Session} {ev : History} {l : LoaderId} {past : Attempts}

/-- The attempts on a loader that a command makes. -/
def attempts (s : Session) (l : LoaderId) : Command → Attempts
  | .load loader _ => ((s.loaders.get? loader).map fun k => s.process.attemptsOf k l).getD []
  | .loadBridge bridge _ =>
    ((s.bridges.get? bridge).map fun b => s.process.attemptsOf (s.process.bridge b).loader l).getD []
  | .call bridge _ => ((s.bridges.get? bridge).map fun b => s.process.callAttempts b l).getD []
  | .callMany bridge text threads =>
    ((s.bridges.get? bridge).map fun b =>
      attemptsIn l ((Pool.ofCall s.process b text threads).moments 0)).getD []
  | _ => []

/-- The attempts on a loader that a list of commands makes. -/
def allAttempts (s : Session) (l : LoaderId) : List Command → Attempts
  | [] => []
  | c :: cs => s.attempts l c ++ (s.step c).2.allAttempts l cs

/-! ## One command -/

/-- What a loader is like behind an operation that has its answer kept under a name. -/
theorem rests_conclude {α : Type} {kept : Session → α → Reply × Session} {r : Outcome α × Process}
    (names : ∀ s a, (kept s a).2.process = s.process) (h : (r.2.loader l).Rests past) :
    ((s.conclude kept r).2.process.loader l).Rests past := by
  obtain ⟨o, p⟩ := r
  cases o with
  | panic | error => exact h
  | ok a =>
    have same : (s.conclude kept (.ok a, p)).2.process = p := names (s.withProcess p) a
    rw [same]
    exact h

/-- A command that names nothing makes no attempt. -/
theorem rests_withNamed {α : Type} {things : Named α} {name : String} {f : α → Reply × Session}
    {new : Attempts} (h : (s.process.loader l).Rests past)
    (absent : things.get? name = none → new = [])
    (found : ∀ a, things.get? name = some a → ((f a).2.process.loader l).Rests (past ++ new)) :
    ((s.withNamed things name f).2.process.loader l).Rests (past ++ new) := by
  rw [Session.withNamed]
  rcases get : things.get? name with _ | a
  · rw [absent get, List.append_nil]
    exact h
  · exact found a get

theorem rests_makeSource (h : (s.process.loader l).Rests past) (name : String) (base : Base)
    (fixed : Option Path) (script : Script) :
    ((s.makeSource name base fixed script).2.process.loader l).Rests past := by
  rw [Session.makeSource]
  split
  · exact h
  · rename_i found
    obtain ⟨made, -, rfl⟩ := process_of_originOf found
    exact h

theorem rests_makeBridgeOver (h : (s.process.loader l).Rests past) (name : String) (c : Config)
    (source : Option Source) :
    ((s.makeBridgeOver name c source).2.process.loader l).Rests past :=
  rests_newLoader h ..

theorem rests_makeBridge (h : (s.process.loader l).Rests past) (name : String)
    (config : Except Config.Error Config) (source : Option String) :
    ((s.makeBridge name config source).2.process.loader l).Rests past := by
  unfold Session.makeBridge
  split
  · exact h
  · split
    · exact rests_makeBridgeOver h ..
    · split
      · exact h
      · exact rests_makeBridgeOver h ..

/-- Threads that make the same call leave a loader as their attempts have come out. -/
theorem rests_callMany (kept : Kept s ev) (h : (s.process.loader l).Rests past) {b : BridgeId}
    (hb : b < s.process.bridges.length) (text : String) (threads : Nat) :
    (((Pool.ofCall s.process b text threads).run 0).process.loader l).Rests
      (past ++ attemptsIn l ((Pool.ofCall s.process b text threads).moments 0)) := by
  have run := (Pool.ofCall s.process b text threads).run_moments 0
  have stuck := (Pool.ofCall s.process b text threads).stuck_run 0
  have standing := run.standing (.of_starting kept.rest.held Pool.starting_ofCall
    (Pool.valid_ofCall (kept.rest.owners b hb)) h)
  exact standing.rests fun t => standing.locked.not_under_of_stuck stuck

/-- **A command leaves every loader as its attempts have come out.** -/
theorem rests_step (kept : Kept s ev) (h : (s.process.loader l).Rests past) (c : Command) :
    ((s.step c).2.process.loader l).Rests (past ++ s.attempts l c) := by
  have silent : ∀ {s' : Session}, s.attempts l c = [] → (s'.process.loader l).Rests past →
      (s'.process.loader l).Rests (past ++ s.attempts l c) := fun none h => by
    rwa [none, List.append_nil]
  cases c with
  | change | setLibraryPath | drop => exact silent rfl h
  | enter dir =>
    refine silent rfl ?_
    simp only [step, enter]
    split <;> exact h
  | source => exact silent rfl (rests_makeSource h ..)
  | loader name source library =>
    refine silent rfl ?_
    simp only [step, makeLoader]
    split
    · exact h
    · exact rests_newLoader h ..
  | bridge => exact silent rfl (rests_makeBridge h ..)
  | locate source library =>
    refine rests_withNamed h (fun _ => rfl) fun a _ => silent rfl ?_
    exact rests_conclude (fun _ _ => rfl) ((heard_locate ..).rests h)
  | look handle symbol =>
    refine rests_withNamed h (fun _ => rfl) fun a _ => silent rfl ?_
    exact rests_conclude (fun _ _ => rfl) ((heard_findSymbol ..).rests h)
  | bind handle symbol keep declared =>
    refine rests_withNamed h (fun _ => rfl) fun a _ => silent rfl ?_
    exact rests_conclude (fun _ _ => rfl) ((heard_resolve ..).rests h)
  | describeLoader | describeHandle | describeBridge | invoke =>
    exact rests_withNamed h (fun _ => rfl) fun _ _ => silent rfl h
  | compare =>
    refine rests_withNamed h (fun _ => rfl) fun _ _ => ?_
    exact rests_withNamed h (fun _ => rfl) fun _ _ => silent rfl h
  | load loader keep =>
    refine rests_withNamed h (fun get => by rw [attempts, get]; rfl) fun k get => ?_
    have new : s.attempts l (.load loader keep) = s.process.attemptsOf k l := by
      rw [attempts, get]; rfl
    rw [new]
    exact rests_conclude (fun _ _ => by cases keep <;> rfl)
      (rests_ensureLoaded h (kept.loaders _ (Named.mem_of_get? get)))
  | loadBridge bridge keep =>
    refine rests_withNamed h (fun get => by rw [attempts, get]; rfl) fun b get => ?_
    have new : s.attempts l (.loadBridge bridge keep) =
        s.process.attemptsOf (s.process.bridge b).loader l := by
      rw [attempts, get]; rfl
    rw [new]
    exact rests_conclude (fun _ _ => by cases keep <;> rfl)
      (rests_ensureLoaded h (kept.rest.owners b (kept.bridges _ (Named.mem_of_get? get))))
  | call bridge text =>
    refine rests_withNamed h (fun get => by rw [attempts, get]; rfl) fun b get => ?_
    have new : s.attempts l (.call bridge text) = s.process.callAttempts b l := by
      rw [attempts, get]; rfl
    rw [new]
    exact rests_conclude (fun _ _ => rfl)
      (rests_call h (kept.rest.owners b (kept.bridges _ (Named.mem_of_get? get))) text)
  | callMany bridge text threads =>
    refine rests_withNamed h (fun get => by rw [attempts, get]; rfl) fun b get => ?_
    have new : s.attempts l (.callMany bridge text threads) =
        attemptsIn l ((Pool.ofCall s.process b text threads).moments 0) := by
      rw [attempts, get]; rfl
    rw [new]
    exact rests_callMany kept h (kept.bridges _ (Named.mem_of_get? get)) text threads

/-- **Between commands every loader is as the attempts on it have come out.** -/
theorem rests_after (host : Host) (cs : List Command) (l : LoaderId) :
    (((start host).after cs).process.loader l).Rests ((start host).allAttempts l cs) := by
  suffices all : ∀ (s : Session) (ev : History) (past : Attempts), Kept s ev →
      (s.process.loader l).Rests past →
      ((s.after cs).process.loader l).Rests (past ++ s.allAttempts l cs) by
    have fresh : ((start host).process.loader l).Rests [] := Loader.rests_fresh ..
    simpa using all (start host) [] [] (kept_start host) fresh
  induction cs with
  | nil => exact fun s ev past _ h => by rwa [allAttempts, List.append_nil]
  | cons c cs ih =>
    intro s ev past kept h
    rw [allAttempts, ← List.append_assoc]
    exact ih _ _ _ (kept.step c).1 (rests_step kept h c)

/-! ## All the time -/

/-- **The state of a loader over whole runs.**  Let threads go on in any order behind any
commands.  Every write to the state of a loader takes one of the steps that are meant, or
it writes `loading` over the `loading` of an attempt that panicked.  While no thread is
under the lock of the loader, its state is `unloaded` if no attempt was made, and otherwise
`loaded`, `failed` or `loading` as the last attempt has yielded a handle, has failed or has
panicked; so it is `loading` exactly if the last attempt panicked. -/
theorem state_follows_attempts (host : Host) (cs : List Command) (l : LoaderId)
    {tasks : List Task} {moments : List Moment} {pool : Pool}
    (starting : ∀ task ∈ tasks, Pool.Starting task)
    (valid : ∀ task ∈ tasks, Task.loaderOf ((start host).after cs).process task.goal <
      ((start host).after cs).process.loaders.length)
    (run : Pool.Run ⟨((start host).after cs).process, tasks⟩ moments pool) :
    let past := (start host).allAttempts l cs
    (∀ before m after found written, moments = before ++ m :: after →
      m.write? l = some (found, written) →
        found.leadsTo written ∨
          found = .loading ∧ written = .loading ∧
            (past ++ attemptsIn l before).getLast? = some .panic) ∧
    ((∀ t, ¬ pool.Under t (.loading l)) →
      let attempts := past ++ attemptsIn l moments
      ((pool.process.loader l).state =
        match attempts.getLast? with
        | none => .unloaded
        | some (.ok _) => .loaded
        | some (.error _) => .failed
        | some .panic => .loading) ∧
      ((pool.process.loader l).state = .loading ↔ attempts.getLast? = some .panic)) := by
  intro past
  have begun : Pool.Standing ⟨((start host).after cs).process, tasks⟩ l past :=
    .of_starting (kept_after host cs).rest.held starting valid (rests_after host cs l)
  constructor
  · rintro before m after found written rfl write
    exact run.write_leadsTo begun write
  · intro free attempts
    have rests : (pool.process.loader l).Rests attempts := (run.standing begun).rests free
    exact ⟨rests.state, by rw [rests.state, Attempts.settled_eq_loading]⟩

/-- A source that panics when it is first asked, and a loader over it. -/
def panicking : List Command :=
  [.source "s" (.linked "l" [("f", .scalarLength)]) none ⟨[.panic], [], []⟩, .loader "c" "s" "l"]

/-- Two threads are to ask for the handle of that loader. -/
def panicking.pool : Pool :=
  ⟨((start ⟨.empty, [], none, none, []⟩).after panicking).process, [.load 0, .load 0]⟩

theorem panicking.starting : ∀ task ∈ panicking.pool.tasks, Pool.Starting task := by
  intro task mem
  obtain rfl | rfl : task = .load 0 ∨ task = .load 0 := by simpa [pool] using mem
  all_goals exact Or.inr rfl

/-- Where no lock is held behind a run of the two, no thread is under one. -/
theorem panicking.free {moments : List Moment} {behind : Pool}
    (run : Pool.Run panicking.pool moments behind) (held : behind.process.held = []) (k : Lock) :
    ∀ t, ¬ behind.Under t k := by
  intro t under
  have locked := run.locked (.of_starting rfl panicking.starting)
  have mem := (locked.held k t).mpr under
  rw [held] at mem
  exact List.not_mem_nil mem

/-- The first of the two has come to its panic, and the other has not begun. -/
theorem state_follows_attempts_panicking :
    ∃ moments pool, Pool.Run panicking.pool moments pool ∧
      (∀ t, ¬ pool.Under t (.loading 0)) ∧ attemptsIn 0 moments = [.panic] ∧
      (pool.process.loader 0).state = .loading := by
  obtain ⟨moments, pool, run, attempts, held⟩ := Pool.exists_run (a := panicking.pool)
    [0, 0, 0, 0, 0, 0] (fun moments pool =>
      attemptsIn 0 moments = [.panic] ∧ pool.process.held = []) (by decide)
  have free := panicking.free run held (.loading 0)
  refine ⟨moments, pool, run, free, attempts, ?_⟩
  have valid : ∀ task ∈ panicking.pool.tasks, Task.loaderOf panicking.pool.process task.goal <
      panicking.pool.process.loaders.length := by decide
  refine ((state_follows_attempts _ panicking 0 panicking.starting valid run).2 free).2.mpr ?_
  rw [attempts]
  rfl

/-- **A panic leaves the state `loading` behind.**  The first thread has ended, no thread is
under the lock, and the state is `loading`; and when the second thread begins its attempt it
writes `loading` over this, which is none of the steps that are meant. -/
theorem panic_leaves_loading :
    (∃ moments pool, Pool.Run panicking.pool moments pool ∧
      (∀ t, ¬ pool.Under t (.loading 0)) ∧ (pool.process.loader 0).state = .loading) ∧
    ∃ moments pool m found written, Pool.Run panicking.pool moments pool ∧ m ∈ moments ∧
      m.write? 0 = some (found, written) ∧ found.leadsTo written = false := by
  constructor
  · obtain ⟨moments, pool, run, state, held⟩ := Pool.exists_run (a := panicking.pool)
      [0, 0, 0, 0, 0, 0] (fun _ pool =>
        (pool.process.loader 0).state = .loading ∧ pool.process.held = []) (by decide)
    exact ⟨moments, pool, run, panicking.free run held _, state⟩
  · obtain ⟨moments, pool, run, written⟩ := Pool.exists_run (a := panicking.pool)
      [0, 0, 0, 0, 0, 0, 1, 1, 1, 1] (fun moments _ =>
        ∃ m ∈ moments, m.write? 0 = some (.loading, .loading)) (by decide)
    obtain ⟨m, mem, write⟩ := written
    exact ⟨moments, pool, m, _, _, run, mem, write, rfl⟩

end Session
end Linkage
