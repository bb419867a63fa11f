import Linkage.Proofs.Loading.Attempt
import Linkage.Proofs.Pool.Locks

/-!
# The account of the registry among threads

Threads load at the same time, and the stages of their attempts are interleaved.  The
account of the registry is kept by every stage; what a thread on its way to a handle
needs for this it has established at an earlier stage, and `Stage.Owes` says what that is:
that its loader has no handle yet, how it came to its place, and, under the lock of the
registry, that nothing is registered for the place, or that its library has been opened
last and is the only one that is not registered.

What a thread owes is kept by the stages of the others because they are not under its
locks (`Stage.Owes.other`).  So the account is kept in every run (`Run.accounted`), and
when all have ended it is balanced.
-/

namespace Linkage

open Process

/-! ## The history of a run -/

/-- What a stage enters into the history. -/
def Stage.event? (l : LoaderId) (host : Host) : Stage → Option Event
  | .findPlace path => some (.located l path)
  | .register a => some (.opened l host a)
  | .storeHandle a => some (.loaded l host a)
  | _ => none

/-- What a moment enters into the history. -/
def Moment.event? (m : Moment) : Option Event :=
  m.task.stage.event? (Task.loaderOf m.process m.task.goal) m.process.host

/-- The history of a run. -/
def historyOf (moments : List Moment) : History := moments.filterMap Moment.event?

theorem historyOf_concat (moments : List Moment) (m : Moment) :
    historyOf (moments ++ [m]) = historyOf moments ++ m.event?.toList := by
  rw [historyOf, List.filterMap_append, historyOf, List.filterMap_cons, List.filterMap_nil]
  cases m.event? <;> rfl

/-! ## What a stage owes -/

/-- What a thread at a stage has established for its loader. -/
def Stage.Owes (p : Process) (ev : History) (l : LoaderId) : Stage → Prop
  | .markLoading | .locate | .findPlace _ => (p.loader l).handle = none
  | .enterRegistry path key => (p.loader l).handle = none ∧ Found ev l p.host path key
  | .lookUp path key => ((p.loader l).handle = none ∧ Found ev l p.host path key) ∧
      p.libraries.length = ev.opens.length
  | .opening path key => ((p.loader l).handle = none ∧ Found ev l p.host path key) ∧
      p.libraries.length = ev.opens.length ∧ p.registered? key = none
  | .register a => ((p.loader l).handle = none ∧ Found ev l p.host a.path a.key) ∧
      p.libraries.length = ev.opens.length + 1 ∧ a.handle = ev.opens.length ∧
      p.pathOf a.handle = a.path ∧ p.registered? a.key = none
  | .leaveRegistry (.ok a) => ((p.loader l).handle = none ∧ Found ev l p.host a.path a.key) ∧
      p.libraries.length = ev.opens.length ∧ p.registered? a.key = some a.handle
  | .leaveRegistry _ => p.libraries.length = ev.opens.length
  | .storeHandle a => ((p.loader l).handle = none ∧ Found ev l p.host a.path a.key) ∧
      p.registered? a.key = some a.handle
  | _ => True

theorem Found.stays {p q : Process} {ev : History} {l : LoaderId} {path key : Path}
    (h : Found ev l p.host path key) (stays : p.Stays q) (ev' : History) :
    Found (ev ++ ev') l q.host path key :=
  ⟨(h.append ev').1, by rw [stays.registryKey, h.2]⟩

/-- What a thread owes is kept by those that are not under its locks. -/
theorem Stage.Owes.other {p q : Process} {ev ev' : History} {l : LoaderId} {s : Stage}
    (h : s.Owes p ev l) (stays : p.Stays q)
    (loading : s.inLoading → (q.loader l).handle = (p.loader l).handle)
    (registry : s.inRegistry → q.registry = p.registry ∧ q.libraries = p.libraries ∧
      ev'.opens = []) : s.Owes q (ev ++ ev') l := by
  have unregistered : s.inRegistry → ∀ key, q.registered? key = p.registered? key := by
    intro hs key
    rw [registered?, (registry hs).1, registered?]
  have even : s.inRegistry → q.libraries.length = p.libraries.length ∧
      (ev ++ ev').opens.length = ev.opens.length := fun hs => by
    rw [(registry hs).2.1, History.opens_append, (registry hs).2.2, List.append_nil]
    exact ⟨rfl, rfl⟩
  cases s with
  | markLoading | locate | findPlace => exact (loading rfl).trans h
  | enterRegistry path key => exact ⟨(loading rfl).trans h.1, h.2.stays stays ev'⟩
  | lookUp path key =>
    obtain ⟨⟨none, found⟩, h⟩ := h
    refine ⟨⟨(loading rfl).trans none, found.stays stays ev'⟩, ?_⟩
    rw [(even rfl).1, (even rfl).2, h]
  | opening path key =>
    obtain ⟨⟨none, found⟩, h, new⟩ := h
    refine ⟨⟨(loading rfl).trans none, found.stays stays ev'⟩, ?_, ?_⟩
    · rw [(even rfl).1, (even rfl).2, h]
    · rw [unregistered rfl, new]
  | register a =>
    obtain ⟨⟨none, found⟩, h, handle, path, new⟩ := h
    refine ⟨⟨(loading rfl).trans none, found.stays stays ev'⟩, ?_, ?_, ?_, ?_⟩
    · rw [(even rfl).1, (even rfl).2, h]
    · rw [(even rfl).2, handle]
    · rw [pathOf, (registry rfl).2.1, ← pathOf, path]
    · rw [unregistered rfl, new]
  | leaveRegistry o =>
    cases o with
    | ok a =>
      obtain ⟨⟨none, found⟩, h, registered⟩ := h
      refine ⟨⟨(loading rfl).trans none, found.stays stays ev'⟩, ?_, ?_⟩
      · rw [(even rfl).1, (even rfl).2, h]
      · rw [unregistered rfl, registered]
    | error e | panic =>
      have h : p.libraries.length = ev.opens.length := h
      show q.libraries.length = (ev ++ ev').opens.length
      rw [(even rfl).1, (even rfl).2, h]
  | storeHandle a =>
    obtain ⟨⟨none, found⟩, registered⟩ := h
    exact ⟨⟨(loading rfl).trans none, found.stays stays ev'⟩, stays.registered? registered⟩
  | readSymbol | readHandle | enterLoading | rereadHandle | markLoaded | markFailed | leaveLoading
  | enterBinding | rereadSymbol | bind | storeSymbol | leaveBinding | copy | invoke | done =>
    trivial

/-! ## One stage -/

namespace Task

variable {self : ThreadId} {p q : Process} {goal : Goal} {s s' : Stage} {ev : History}

/-- A stage that enters nothing into the history keeps the account. -/
theorem advance_account_of_silent (h : Account p ev) (ha : advance self p goal s = some (q, s'))
    (silent : s.event? (loaderOf p goal) p.host = none) : Account q ev := by
  have frame : q.loaders = p.loaders → q.registry = p.registry → p.libraries <+: q.libraries →
      Account q ev := fun loaders registry libraries =>
    h.frame registry libraries (fun l => by rw [loader, loaders, loader])
      (Nat.le_of_eq (by rw [loaders]))
  cases advance_effect ha with
  | reports heard => exact h.heard heard
  | locks held hq => exact hq ▸ h.frame rfl (List.prefix_refl _) (fun _ => rfl) (Nat.le_refl _)
  | marks state _ heard => exact (h.setState ..).heard heard
  | opens asked libraries => exact frame asked.loaders asked.registry libraries
  | registers => exact absurd silent (by simp [Stage.event?])
  | stores => exact absurd silent (by simp [Stage.event?])
  | binds hq =>
    exact hq ▸ h.frame rfl (List.prefix_refl _) (fun _ => rfl) (stays_storeSymbol ..).loaders

theorem owes_afterLoading (goal : Goal) (o : Outcome Handle) (l : LoaderId) :
    (afterLoading goal o).Owes p ev l := by
  cases o <;> cases goal <;> trivial

theorem owes_afterBinding (o : Outcome SymbolReference) (l : LoaderId) :
    (afterBinding o).Owes p ev l := by
  cases o <;> trivial

/-- Who has opened a library owes its registration, and who has not owes nothing new. -/
theorem owes_opening {path key : Path} (owes : (Stage.opening path key).Owes p ev (loaderOf p goal))
    (ha : advance self p goal (.opening path key) = some (q, s')) :
    s'.Owes q ev (loaderOf p goal) := by
  obtain ⟨⟨none, found⟩, even, new⟩ := owes
  obtain ⟨asked, added⟩ := openLibrary_spec p (p.loader (loaderOf p goal)).source path
    (some (loaderOf p goal))
  simp only [advance] at ha
  split at ha <;> rename_i opened <;> cases ha <;> rw [opened] at asked added <;>
    dsimp only at asked added
  · obtain ⟨table, ok, added⟩ | ⟨no, -⟩ := added
    · obtain rfl := Outcome.ok.inj ok
      refine ⟨⟨?_, ?_⟩, ?_, even, ?_, ?_⟩
      · rw [loader, asked.loaders, ← loader, none]
      · have stays := asked.stays (added ▸ List.prefix_append ..)
        exact ⟨found.1, found.2.trans (stays.registryKey path).symm⟩
      · rw [added, List.length_append, even, List.length_singleton]
      · simp [pathOf, added]
      · rw [registered?, asked.registry, ← registered?, new]
    · exact absurd rfl (no _)
  all_goals
    obtain ⟨table, ok, -⟩ | ⟨-, same⟩ := added
    · exact absurd ok (by simp)
    · exact (congrArg List.length same).trans even

/-- What a thread owes at its next stage, where it enters nothing into the history. -/
theorem advance_owes_of_silent (owes : s.Owes p ev (loaderOf p goal))
    (free : (∀ t, (Lock.registry, t) ∉ p.held) → p.libraries.length = ev.opens.length)
    (ha : advance self p goal s = some (q, s'))
    (silent : s.event? (loaderOf p goal) p.host = none) : s'.Owes q ev (loaderOf p goal) := by
  cases s with
  | findPlace | register | storeHandle => exact absurd silent (by simp [Stage.event?])
  | done => exact absurd ha (by simp [advance])
  | readSymbol | rereadSymbol | bind | copy | invoke =>
    simp only [advance] at ha
    split at ha <;> cases ha <;> trivial
  | enterLoading | enterBinding =>
    simp only [advance, Option.map_eq_some_iff] at ha
    obtain ⟨_, _, he⟩ := ha
    cases he
    trivial
  | markLoaded | markFailed | storeSymbol =>
    cases ha
    trivial
  | readHandle =>
    simp only [advance] at ha
    split at ha <;> cases ha
    · exact owes_afterLoading ..
    · trivial
  | leaveLoading o =>
    cases ha
    exact owes_afterLoading ..
  | leaveBinding o =>
    cases ha
    exact owes_afterBinding ..
  | rereadHandle =>
    simp only [advance] at ha
    split at ha <;> cases ha
    · trivial
    · assumption
  | markLoading =>
    cases ha
    exact (handle_setState ..).trans owes
  | locate =>
    have heard := heard_locate p (p.loader (loaderOf p goal)).source
      (p.loader (loaderOf p goal)).library (some (loaderOf p goal))
    simp only [advance] at ha
    split at ha <;> rename_i found <;> cases ha <;> rw [found] at heard
    · exact (congrArg Loader.handle (heard.loader _)).trans owes
    · trivial
    · trivial
  | enterRegistry path key =>
    simp only [advance, Option.map_eq_some_iff] at ha
    obtain ⟨_, hr, he⟩ := ha
    cases he
    obtain ⟨unheld, rfl⟩ := acquire_spec hr
    exact ⟨owes, free unheld⟩
  | lookUp path key =>
    obtain ⟨⟨none, found⟩, even⟩ := owes
    simp only [advance] at ha
    split at ha <;> rename_i registered <;> cases ha <;>
      exact ⟨⟨none, found⟩, even, registered⟩
  | leaveRegistry o =>
    cases o with
    | ok a =>
      cases ha
      exact ⟨owes.1, owes.2.2⟩
    | error e | panic =>
      cases ha
      trivial
  | opening path key => exact owes_opening owes ha

/-- **Every stage keeps the account**, and establishes what its thread owes at the next. -/
theorem advance_account (h : Account p ev) (hl : loaderOf p goal < p.loaders.length)
    (owes : s.Owes p ev (loaderOf p goal))
    (free : (∀ t, (Lock.registry, t) ∉ p.held) → p.libraries.length = ev.opens.length)
    (ha : advance self p goal s = some (q, s')) (new : History)
    (hnew : new = (s.event? (loaderOf p goal) p.host).toList) :
    Account q (ev ++ new) ∧ s'.Owes q (ev ++ new) (loaderOf p goal) := by
  rcases event : s.event? (loaderOf p goal) p.host with _ | e
  · obtain rfl : new = [] := by rw [hnew, event]; rfl
    rw [List.append_nil]
    exact ⟨advance_account_of_silent h ha event, advance_owes_of_silent owes free ha event⟩
  obtain rfl : new = [e] := by rw [hnew, event]; rfl
  cases s with
  | findPlace path =>
    cases ha
    cases event
    exact ⟨h.located .., owes, by simp, rfl⟩
  | register a =>
    obtain ⟨⟨none, found⟩, even, handle, path, unregistered⟩ := owes
    cases ha
    cases event
    have account := h.register even handle path unregistered found
    have registered : (p.register a.key a.handle).registered? a.key = some a.handle :=
      account.registered?_eq_some.mpr ⟨a, by simp, by simp, rfl⟩
    have even : p.libraries.length =
        (History.opens (ev ++ [Event.opened (loaderOf p goal) p.host a])).length := by
      simpa using even
    exact ⟨account, ⟨none, found.stays (stays_register ..) _⟩, even, registered⟩
  | storeHandle a =>
    obtain ⟨⟨none, found⟩, registered⟩ := owes
    cases ha
    cases event
    exact ⟨h.storeHandle hl none registered found, trivial⟩
  | _ => exact absurd event (by simp [Stage.event?])

/-- Who gives back the lock of the registry leaves every opened library registered. -/
theorem even_of_leaveRegistry {o : Outcome Load}
    (owes : (Stage.leaveRegistry o).Owes p ev (loaderOf p goal))
    (ha : advance self p goal (.leaveRegistry o) = some (q, s')) :
    q.libraries.length = ev.opens.length := by
  cases o with
  | ok a =>
    cases ha
    exact owes.2.1
  | error e | panic =>
    cases ha
    exact owes

end Task

/-! ## Runs -/

namespace Pool

/-- How a pool stands to its history. -/
structure Accounted (pool : Pool) (ev : History) : Prop where
  locked : pool.Locked
  account : Account pool.process ev
  /-- While the lock of the registry is free, every opened library is registered. -/
  free : (∀ t, (Lock.registry, t) ∉ pool.process.held) →
    pool.process.libraries.length = ev.opens.length
  valid : ∀ task ∈ pool.tasks,
    Task.loaderOf pool.process task.goal < pool.process.loaders.length
  owes : ∀ task ∈ pool.tasks,
    task.stage.Owes pool.process ev (Task.loaderOf pool.process task.goal)

variable {a b : Pool} {t : ThreadId} {ev : History} {moments : List Moment}

/-- Only under the lock of the registry is a library entered into the history. -/
theorem opens_event {s : Stage} (hs : s.inRegistry = false) (l : LoaderId) (host : Host) :
    History.opens (s.event? l host).toList = [] := by
  cases s <;> first | rfl | exact absurd hs (by simp [Stage.inRegistry])

theorem Accounted.advance (h : a.Accounted ev) {p : Process} {goal : Goal} {s s' : Stage}
    (ht : a.tasks[t]? = some ⟨goal, s⟩) (ha : Task.advance t a.process goal s = some (p, s')) :
    Accounted ⟨p, a.tasks.set t ⟨goal, s'⟩⟩
      (ev ++ (Moment.event? ⟨a.process, t, ⟨goal, s⟩⟩).toList) := by
  have locked := h.locked.advance ht ha
  have stays := Task.advance_stays ha
  have mem := List.mem_of_getElem? ht
  obtain ⟨account, owes⟩ := Task.advance_account h.account (h.valid _ mem) (h.owes _ mem)
    h.free ha (Moment.event? ⟨a.process, t, ⟨goal, s⟩⟩).toList rfl
  refine ⟨locked, account, fun free => ?_, valid_set h.valid ht ha, fun task htask => ?_⟩
  · rcases hs : s.inRegistry with _ | _
    · -- the thread was not under the lock of the registry, and neither was another
      have unlocked : ¬ Task.holds a.process goal s .registry := by simp [Task.holds, hs]
      have unheld := h.locked.free_of_free ht ha unlocked free
      have same := Task.registry_of_not_holds ha unlocked
      have none := opens_event hs (Task.loaderOf a.process goal) a.process.host
      rw [same.2, h.free unheld, History.opens_append, Moment.event?, none, List.append_nil]
    · have left : s'.inRegistry = false := by
        simpa [Task.holds] using h.locked.not_holds_of_free_behind ht ha free
      obtain ⟨o, rfl⟩ := Task.leaves_registry ha hs left
      show p.libraries.length = (History.opens (ev ++ [])).length
      rw [List.append_nil, Task.even_of_leaveRegistry (h.owes _ mem) ha]
  · rw [stays.loaderOf]
    obtain ⟨u, hu⟩ := List.mem_iff_getElem?.mp htask
    by_cases hut : u = t
    · subst hut
      rw [List.getElem?_set_self (List.getElem?_eq_some_iff.mp ht).1] at hu
      obtain rfl := Option.some.inj hu
      exact owes
    · rw [List.getElem?_set_ne (Ne.symm hut)] at hu
      have under : ∀ k, Task.holds a.process task.goal task.stage k →
          ¬ Task.holds a.process goal s k := fun k => h.locked.not_holds_of_other ht hu hut
      refine (h.owes task (List.mem_of_getElem? hu)).other stays (fun hs => ?_) fun hs => ?_
      · rw [Task.loader_of_not_holds ha (under (.loading _) ⟨hs, rfl⟩)]
      · have unheld := under .registry hs
        obtain ⟨registry, libraries⟩ := Task.registry_of_not_holds ha unheld
        exact ⟨registry, libraries, opens_event (by simpa [Task.holds] using unheld) ..⟩

/-- **The account is kept in every run.** -/
theorem Run.accounted (run : Run a moments b) (h : a.Accounted ev) :
    b.Accounted (ev ++ historyOf moments) := by
  refine run.induct (motive := fun moments b => b.Accounted (ev ++ historyOf moments)) ?_ ?_
  · simpa [historyOf] using h
  · intro moments b t goal s p s' ih ht ha
    rw [historyOf_concat, ← List.append_assoc]
    exact ih.advance ht ha

/-- Threads that have not begun, over a process with a balanced account. -/
theorem Accounted.of_starting (h : Balanced a.process ev) (held : a.process.held = [])
    (starting : ∀ task ∈ a.tasks, Starting task)
    (valid : ∀ task ∈ a.tasks,
      Task.loaderOf a.process task.goal < a.process.loaders.length) : a.Accounted ev where
  locked := .of_starting held starting
  account := h.toAccount
  free := fun _ => h.even
  valid := valid
  owes := fun task ht => by
    rcases starting task ht with hs | hs <;> rw [hs] <;> trivial

/-- When no thread can go on, the account is balanced. -/
theorem Accounted.balanced (h : a.Accounted ev) (stuck : a.Stuck) : Balanced a.process ev := by
  refine ⟨h.account, h.free fun t ht => ?_⟩
  rw [h.locked.held_of_stuck stuck] at ht
  exact absurd ht List.not_mem_nil

end Pool
end Linkage
