import Linkage.Proofs.Bridge.Status
import Linkage.Proofs.Process.FirstUse
import Linkage.Proofs.Text.Argument
import Linkage.Proofs.Thread.Locks

/-!
# A thread that calls an unused bridge

Threads that make the first calls through a bridge at the same time share one progress.
`Stage.Presumes` says what a thread at a stage may take for granted of it, and
`Progress.Next` what one stage does to it: at most one step.  `Task.advance_reached` is the
one place where the stages are gone through.

What the other threads presume is kept, because the steps of a load are made under the
lock of the loader and those of a binding under the lock of the bridge
(`Progress.Next.presumes_other`): a stage under neither presumes nothing but what has
happened once and for all.
-/

namespace Linkage

/-! ## What a thread presumes -/

/-- The answer of a function to a text: to its copy with a zero byte behind it. -/
def Function.answer (f : Function) (text : String) : Int64 :=
  f.invoke (Utf8.encode text.toList ++ [0])

/-- A function accepts a text that can be copied to it and that it answers with a length. -/
def Function.Accepts (f : Function) (text : String) : Prop :=
  '\x00' ∉ text.toList ∧ 0 ≤ f.answer text

instance (f : Function) (text : String) : Decidable (f.Accepts text) :=
  inferInstanceAs (Decidable (_ ∧ _))

/-- What a load by this plan comes to. -/
def Plan.load (plan : Plan) (p : Process) : Load :=
  ⟨plan.path, p.host.registryKey plan.path, plan.reference.handle, true⟩

/-- What a thread that calls with a text may take for granted of the progress. -/
def Stage.Presumes (p : Process) (plan : Plan) (text : String) (φ : Progress) : Stage → Prop
  | .readSymbol | .readHandle | .enterLoading => True
  | .rereadHandle => φ.Settled
  | .markLoading | .locate => φ.opened = false
  | .findPlace path => φ.opened = false ∧ path = plan.path
  | .enterRegistry path key | .lookUp path key | .opening path key =>
    φ.opened = false ∧ path = plan.path ∧ key = p.host.registryKey plan.path
  | .register a => φ.opened ∧ φ.registered = false ∧ a = plan.load p
  | .leaveRegistry (.ok a) | .storeHandle a => φ.registered ∧ φ.stored = false ∧ a = plan.load p
  | .leaveRegistry (.error _) | .markFailed _ => φ.opened = false
  | .markLoaded h => φ.stored ∧ h = plan.reference.handle
  | .leaveLoading (.ok h) => φ.Settled ∧ φ.stored ∧ h = plan.reference.handle
  | .leaveLoading (.error _) => φ.Settled
  | .enterBinding h => φ.stored ∧ h = plan.reference.handle
  | .rereadSymbol h => φ.stored ∧ φ.resolved = φ.bound ∧ h = plan.reference.handle
  | .bind h => φ.stored ∧ φ.resolved = false ∧ h = plan.reference.handle
  | .storeSymbol r => φ.resolved ∧ φ.bound = false ∧ r = plan.reference
  | .leaveBinding (.ok r) | .copy r => φ.bound ∧ r = plan.reference
  | .invoke r argument =>
    φ.bound ∧ r = plan.reference ∧ argument.bytes = Utf8.encode text.toList
  | .done (.ok a) => φ.bound ∧ a = .length (plan.reference.function.answer text)
  | .done (.error _) => True
  | .leaveRegistry .panic | .leaveLoading .panic | .leaveBinding _ | .done .panic => False

/-- Who gives back the lock of the loader knows what has come of the load. -/
theorem Stage.Presumes.settled {p : Process} {plan : Plan} {text : String} {φ : Progress}
    {o : Outcome Handle} (h : (Stage.leaveLoading o).Presumes p plan text φ) : φ.Settled := by
  cases o with
  | ok => exact h.1
  | error => exact h
  | panic => exact absurd h id

/-- Who gives back the lock of the bridge knows that the function is bound. -/
theorem Stage.Presumes.bound {p : Process} {plan : Plan} {text : String} {φ : Progress}
    {o : Outcome SymbolReference} (h : (Stage.leaveBinding o).Presumes p plan text φ) :
    φ.bound := by
  cases o with
  | ok => exact h.1
  | error | panic => exact absurd h id

/-! ## One step of the progress -/

/-- The failure that a thread is on its way out with. -/
def Stage.failure? : Stage → Option BridgeError
  | .leaveRegistry (.error e) | .markFailed e | .leaveLoading (.error e) | .done (.error e) =>
    some e
  | _ => none

/-- Whether a stage is a use of the source to open the library. -/
def Stage.isOpening : Stage → Bool
  | .opening .. => true
  | _ => false

/-- What one stage does to the progress. -/
inductive Progress.Next (plan : Plan) : Stage → Stage → Progress → Progress → Prop
  | keeps {s s' : Stage} {φ : Progress} (failure : s'.failure? = s.failure?)
      (other : s.isOpening = false) : Next plan s s' φ φ
  | marks {s s' : Stage} {φ : Progress} (state : LoadState) (failure : s'.failure? = s.failure?)
      (marked : s.marked? = some state) : Next plan s s' φ { φ with state := state }
  | fails {path key : Path} {φ : Progress} (early : φ.opened = false) :
      Next plan (.opening path key) (.leaveRegistry (.error (plan.error φ.failed))) φ
        { φ with failed := φ.failed + 1 }
  | opens {path key : Path} {a : Load} {φ : Progress} (early : φ.opened = false) :
      Next plan (.opening path key) (.register a) φ { φ with opened := true }
  | registers {a : Load} {φ : Progress} :
      Next plan (.register a) (.leaveRegistry (.ok a)) φ { φ with registered := true }
  | stores {a : Load} {h : Handle} {φ : Progress} :
      Next plan (.storeHandle a) (.markLoaded h) φ { φ with stored := true }
  | resolves {h : Handle} {r : SymbolReference} {φ : Progress} :
      Next plan (.bind h) (.storeSymbol r) φ { φ with resolved := true }
  | binds {r r' : SymbolReference} {φ : Progress} :
      Next plan (.storeSymbol r) (.leaveBinding (.ok r')) φ { φ with bound := true }

namespace Progress.Next

variable {p : Process} {plan : Plan} {text : String} {φ φ' : Progress} {s s' u : Stage}

/-- Only under the lock of the loader something comes of a load. -/
theorem settled (next : Next plan s s' φ φ') (unlocked : s.inLoading = false)
    (settled : φ.Settled) : φ'.Settled := by
  cases next with
  | keeps => exact settled
  | marks _ _ marked =>
    exact absurd (unlocked.symm.trans (Stage.inLoading_of_marked marked)) (by simp)
  | fails | opens | registers | stores => exact absurd unlocked (by simp [Stage.inLoading])
  | resolves | binds => exact ⟨settled.loaded, settled.failed⟩

/-- Only under the lock of the bridge something comes of a binding. -/
theorem resolved_eq_bound (next : Next plan s s' φ φ') (unlocked : s.inBinding = false)
    (even : φ.resolved = φ.bound) : φ'.resolved = φ'.bound := by
  cases next with
  | keeps | marks | fails | opens | registers | stores => exact even
  | resolves | binds => exact absurd unlocked (by simp [Stage.inBinding])

/-- Under another lock than that of the loader, a load is where it was. -/
theorem load_eq (next : Next plan s s' φ φ') (unlocked : s.inLoading = false) :
    φ'.opened = φ.opened ∧ φ'.registered = φ.registered ∧ φ'.stored = φ.stored := by
  cases next with
  | keeps | marks | resolves | binds => exact ⟨rfl, rfl, rfl⟩
  | fails | opens | registers | stores => exact absurd unlocked (by simp [Stage.inLoading])

/-- Under another lock than that of the bridge, a binding is where it was. -/
theorem binding_eq (next : Next plan s s' φ φ') (unlocked : s.inBinding = false) :
    φ'.resolved = φ.resolved ∧ φ'.bound = φ.bound := by
  cases next with
  | keeps | marks | fails | opens | registers | stores => exact ⟨rfl, rfl⟩
  | resolves | binds => exact absurd unlocked (by simp [Stage.inBinding])

/-- A handle and a function that are stored stay. -/
theorem stored (next : Next plan s s' φ φ') (h : φ.stored) : φ'.stored := by
  cases next <;> first | exact h | rfl

theorem bound (next : Next plan s s' φ φ') (h : φ.bound) : φ'.bound := by
  cases next <;> first | exact h | rfl

/-- **What a thread presumes is kept by the stages of the others**, since no other is
under its lock. -/
theorem presumes_other (next : Next plan s s' φ φ') (presumes : u.Presumes p plan text φ)
    (loading : u.inLoading → s.inLoading = false) (binding : u.inBinding → s.inBinding = false) :
    u.Presumes p plan text φ' := by
  cases u with
  | readSymbol | readHandle | enterLoading => trivial
  | rereadHandle => exact next.settled (loading rfl) presumes
  | markLoading | locate | markFailed => exact (next.load_eq (loading rfl)).1.trans presumes
  | findPlace | enterRegistry | lookUp | opening =>
    exact ⟨(next.load_eq (loading rfl)).1.trans presumes.1, presumes.2⟩
  | register =>
    obtain ⟨opened, registered, -⟩ := next.load_eq (loading rfl)
    exact ⟨opened.trans presumes.1, registered.trans presumes.2.1, presumes.2.2⟩
  | storeHandle =>
    obtain ⟨-, registered, stored⟩ := next.load_eq (loading rfl)
    exact ⟨registered.trans presumes.1, stored.trans presumes.2.1, presumes.2.2⟩
  | leaveRegistry o =>
    obtain ⟨opened, registered, stored⟩ := next.load_eq (loading rfl)
    cases o with
    | ok => exact ⟨registered.trans presumes.1, stored.trans presumes.2.1, presumes.2.2⟩
    | error => exact opened.trans presumes
    | panic => exact presumes
  | leaveLoading o =>
    have settled := next.settled (loading rfl)
    cases o with
    | ok => exact ⟨settled presumes.1, next.stored presumes.2.1, presumes.2.2⟩
    | error => exact settled presumes
    | panic => exact presumes
  | markLoaded | enterBinding => exact ⟨next.stored presumes.1, presumes.2⟩
  | rereadSymbol =>
    have even := next.resolved_eq_bound (binding rfl)
    exact ⟨next.stored presumes.1, even presumes.2.1, presumes.2.2⟩
  | bind =>
    have resolved := (next.binding_eq (binding rfl)).1
    exact ⟨next.stored presumes.1, resolved.trans presumes.2.1, presumes.2.2⟩
  | storeSymbol =>
    obtain ⟨resolved, bound⟩ := next.binding_eq (binding rfl)
    exact ⟨resolved.trans presumes.1, bound.trans presumes.2.1, presumes.2.2⟩
  | leaveBinding o =>
    cases o with
    | ok => exact ⟨next.bound presumes.1, presumes.2⟩
    | error | panic => exact presumes
  | copy | invoke => exact ⟨next.bound presumes.1, presumes.2⟩
  | done o =>
    cases o with
    | ok => exact ⟨next.bound presumes.1, presumes.2⟩
    | error | panic => exact presumes

end Progress.Next

/-! ## One stage -/

namespace Task

open Process

variable {self : ThreadId} {p q q' : Process} {b : BridgeId} {plan : Plan} {text : String}
  {φ : Progress} {s s' : Stage}

/-- Behind a stage the first calls have come as far as before, or one step further. -/
def GoesOn (p : Process) (b : BridgeId) (plan : Plan) (text : String) (φ : Progress)
    (s s' : Stage) (q' : Process) : Prop :=
  ∃ φ', Progress.Next plan s s' φ φ' ∧ Reached p b plan φ' q' ∧ s'.Presumes p plan text φ'

/-- The source says where the library is, whoever asks. -/
theorem locate_reached (unused : p.Unused b) (follows : p.Follows b plan)
    (h : Reached p b plan φ q) (early : φ.opened = false)
    (ha : advance self q (.call b text) .locate = some (q', s')) :
    GoesOn p b plan text φ .locate s' q' := by
  obtain ⟨ok, reached⟩ := h.located unused follows early (some (loaderOf q (.call b text)))
  simp only [advance] at ha
  split at ha <;> rename_i found <;> cases ha
  all_goals
    change q.locate (q.ownerOf b).source (q.ownerOf b).library _ = _ at found
    rw [found] at ok reached
  · obtain rfl := Outcome.ok.inj ok
    exact ⟨φ, .keeps rfl rfl, reached, early, rfl⟩
  · exact absurd ok (by simp)
  · exact absurd ok (by simp)

/-- The source fails to open the library, or opens it, by what it has left of its plan. -/
theorem opening_reached {path key : Path} (unused : p.Unused b) (follows : p.Follows b plan)
    (h : Reached p b plan φ q) (presumes : (Stage.opening path key).Presumes p plan text φ)
    (ha : advance self q (.call b text) (.opening path key) = some (q', s')) :
    GoesOn p b plan text φ (.opening path key) s' q' := by
  obtain ⟨early, rfl, rfl⟩ := presumes
  rcases Nat.lt_or_eq_of_le h.ordered.failed with more | last
  · obtain ⟨failed, reached⟩ := h.notOpened unused follows early more
      (some (loaderOf q (.call b text)))
    simp only [advance] at ha
    split at ha <;> rename_i found <;> cases ha
    all_goals
      change q.openLibrary (q.ownerOf b).source plan.path _ = _ at found
      rw [found] at failed reached
    · exact absurd failed (by simp)
    · obtain rfl := Outcome.error.inj failed
      exact ⟨_, .fails early, reached, early⟩
    · exact absurd failed (by simp)
  · obtain ⟨ok, reached⟩ := h.opened unused follows early last
      (some (loaderOf q (.call b text)))
    simp only [advance] at ha
    split at ha <;> rename_i found <;> cases ha
    all_goals
      change q.openLibrary (q.ownerOf b).source plan.path _ = _ at found
      rw [found] at ok reached
    · obtain rfl := Outcome.ok.inj ok
      exact ⟨_, .opens early, reached, rfl, h.ordered.not_registered early, rfl⟩
    · exact absurd ok (by simp)
    · exact absurd ok (by simp)

/-- A stage under the lock of the loader. -/
theorem load_reached (unused : p.Unused b) (follows : p.Follows b plan)
    (h : Reached p b plan φ q) (presumes : s.Presumes p plan text φ) (hs : s.inLoading)
    (ha : advance self q (.call b text) s = some (q', s')) : GoesOn p b plan text φ s s' q' := by
  cases s with
  | rereadHandle =>
    have handle : (q.loader (q.bridge b).loader).handle = _ := h.handle
    rcases stored : φ.stored with _ | _
    · rw [stored] at handle
      simp only [advance, loaderOf, handle] at ha
      cases ha
      -- nothing is stored, and no load is under way
      exact ⟨φ, .keeps rfl rfl, h, presumes.not_opened stored⟩
    · rw [stored] at handle
      simp only [advance, loaderOf, handle] at ha
      cases ha
      exact ⟨φ, .keeps rfl rfl, h, presumes, stored, rfl⟩
  | markLoading =>
    cases ha
    exact ⟨_, .marks .loading rfl rfl, h.setState unused .loading, presumes⟩
  | locate => exact locate_reached unused follows h presumes ha
  | findPlace path =>
    obtain ⟨early, rfl⟩ := presumes
    cases ha
    exact ⟨φ, .keeps rfl rfl, h, early, rfl, h.stays.registryKey plan.path⟩
  | enterRegistry path key =>
    simp only [advance, Option.map_eq_some_iff] at ha
    obtain ⟨_, hr, he⟩ := ha
    cases he
    obtain ⟨-, rfl⟩ := acquire_spec hr
    exact ⟨φ, .keeps rfl rfl, h.locks _, presumes⟩
  | lookUp path key =>
    obtain ⟨early, rfl, rfl⟩ := presumes
    have new := h.registered?_eq_none follows (h.ordered.not_registered early)
    simp only [advance, new] at ha
    cases ha
    exact ⟨φ, .keeps rfl rfl, h, early, rfl, rfl⟩
  | opening path key => exact opening_reached unused follows h presumes ha
  | register a =>
    obtain ⟨opened, new, rfl⟩ := presumes
    cases ha
    exact ⟨_, .registers, h.register opened new, rfl, h.ordered.not_stored new, rfl⟩
  | leaveRegistry o =>
    cases o with
    | ok a =>
      cases ha
      exact ⟨φ, .keeps rfl rfl, h.locks _, presumes⟩
    | error e =>
      cases ha
      exact ⟨φ, .keeps rfl rfl, h.locks _, presumes⟩
    | panic => exact absurd presumes id
  | storeHandle a =>
    obtain ⟨registered, new, rfl⟩ := presumes
    have reached := h.storeHandle unused registered new
    have stored : ((q.storeHandle (q.bridge b).loader plan.reference.handle).loader
        (q.bridge b).loader).handle = some plan.reference.handle := reached.handle
    cases ha
    refine ⟨_, .stores, reached, rfl, ?_⟩
    -- the thread goes on with what it reads, not with what it wrote
    show (((q.storeHandle (q.bridge b).loader plan.reference.handle).loader
      (q.bridge b).loader).handle).getD plan.reference.handle = _
    rw [stored]
    rfl
  | markLoaded i =>
    obtain ⟨stored, rfl⟩ := presumes
    cases ha
    refine ⟨_, .marks .loaded rfl rfl, (h.setState unused .loaded).note _, ?_, stored, rfl⟩
    exact ⟨fun _ => ⟨stored, rfl⟩, fun early => absurd
      (early.symm.trans (h.ordered.registered (h.ordered.stored stored))) (by simp)⟩
  | markFailed e =>
    cases ha
    refine ⟨_, .marks .failed rfl rfl, (h.setState unused .failed).note _, ?_⟩
    exact ⟨fun opened => absurd (presumes.symm.trans opened) (by simp), fun _ _ => rfl⟩
  | leaveLoading o =>
    cases ha
    cases o with
    | ok i => exact ⟨φ, .keeps rfl rfl, h.locks _, presumes.2⟩
    | error e => exact ⟨φ, .keeps rfl rfl, h.locks _, trivial⟩
    | panic => exact absurd presumes id
  | _ => exact absurd hs (by simp [Stage.inLoading])

/-- A stage under the lock of the bridge. -/
theorem binding_reached (unused : p.Unused b) (follows : p.Follows b plan)
    (h : Reached p b plan φ q) (presumes : s.Presumes p plan text φ) (hs : s.inBinding)
    (ha : advance self q (.call b text) s = some (q', s')) : GoesOn p b plan text φ s s' q' := by
  cases s with
  | rereadSymbol i =>
    obtain ⟨stored, even, rfl⟩ := presumes
    have bound := h.bound
    rcases now : φ.bound with _ | _
    · rw [now] at bound
      simp only [advance, callOf, bound] at ha
      cases ha
      exact ⟨φ, .keeps rfl rfl, h, stored, even.trans now, rfl⟩
    · rw [now] at bound
      simp only [advance, callOf, bound] at ha
      cases ha
      exact ⟨φ, .keeps rfl rfl, h, now, rfl⟩
  | bind i =>
    obtain ⟨stored, new, rfl⟩ := presumes
    obtain ⟨ok, reached⟩ := h.resolved follows stored new
    simp only [advance, callOf] at ha
    split at ha <;> rename_i bound <;> cases ha <;> rw [bound] at ok reached
    · obtain rfl := Outcome.ok.inj ok
      exact ⟨_, .resolves, reached, rfl, h.ordered.not_bound new, rfl⟩
    · exact absurd ok (by simp)
    · exact absurd ok (by simp)
  | storeSymbol r =>
    obtain ⟨resolved, new, rfl⟩ := presumes
    have reached := h.storeSymbol unused resolved new
    cases ha
    refine ⟨_, .binds, reached, rfl, ?_⟩
    show (((q.storeSymbol b plan.reference).bridge b).bound).getD plan.reference = _
    rw [reached.bound]
    rfl
  | leaveBinding o =>
    cases o with
    | ok r =>
      cases ha
      exact ⟨φ, .keeps rfl rfl, h.locks _, presumes⟩
    | error e => exact absurd presumes id
    | panic => exact absurd presumes id
  | _ => exact absurd hs (by simp [Stage.inBinding])

/-- **What one stage of a first call does**, with the locks that are taken read off the
progress. -/
theorem advance_reached (unused : p.Unused b) (follows : p.Follows b plan)
    (accepts : plan.reference.function.Accepts text) (h : Reached p b plan φ q)
    (presumes : s.Presumes p plan text φ)
    (loading : (∀ u, (Lock.loading (q.bridge b).loader, u) ∉ q.held) → φ.Settled)
    (binding : (∀ u, (Lock.binding b, u) ∉ q.held) → φ.resolved = φ.bound)
    (ha : advance self q (.call b text) s = some (q', s')) : GoesOn p b plan text φ s s' q' := by
  cases s with
  | rereadHandle | markLoading | locate | findPlace | enterRegistry | lookUp | opening | register
  | leaveRegistry | storeHandle | markLoaded | markFailed | leaveLoading =>
    exact load_reached unused follows h presumes rfl ha
  | rereadSymbol | bind | storeSymbol | leaveBinding =>
    exact binding_reached unused follows h presumes rfl ha
  | readSymbol =>
    have bound := h.bound
    rcases now : φ.bound with _ | _ <;> rw [now] at bound
    · simp only [advance, callOf, bound] at ha
      cases ha
      exact ⟨φ, .keeps rfl rfl, h, trivial⟩
    · simp only [advance, callOf, bound] at ha
      cases ha
      exact ⟨φ, .keeps rfl rfl, h, now, rfl⟩
  | readHandle =>
    have handle : (q.loader (q.bridge b).loader).handle = _ := h.handle
    rcases stored : φ.stored with _ | _ <;> rw [stored] at handle
    · simp only [advance, loaderOf, handle] at ha
      cases ha
      exact ⟨φ, .keeps rfl rfl, h, trivial⟩
    · simp only [advance, loaderOf, handle] at ha
      cases ha
      exact ⟨φ, .keeps rfl rfl, h, stored, rfl⟩
  | enterLoading =>
    simp only [advance, Option.map_eq_some_iff] at ha
    obtain ⟨_, hr, he⟩ := ha
    cases he
    obtain ⟨free, rfl⟩ := acquire_spec hr
    exact ⟨φ, .keeps rfl rfl, h.locks _, loading free⟩
  | enterBinding i =>
    simp only [advance, Option.map_eq_some_iff] at ha
    obtain ⟨_, hr, he⟩ := ha
    cases he
    obtain ⟨free, rfl⟩ := acquire_spec hr
    exact ⟨φ, .keeps rfl rfl, h.locks _, presumes.1, binding free, presumes.2⟩
  | copy r =>
    obtain ⟨argument, copied, bytes⟩ := Argument.ofText_of_no_zero accepts.1
    simp only [advance, callOf, copied] at ha
    cases ha
    exact ⟨φ, .keeps rfl rfl, h, presumes.1, presumes.2, bytes⟩
  | invoke r argument =>
    obtain ⟨bound, rfl, bytes⟩ := presumes
    have answer : plan.reference.function.invoke argument.buffer =
        plan.reference.function.answer text := by rw [Argument.buffer, bytes, Function.answer]
    have length : CallStatus.ofAnswer? (plan.reference.function.answer text) = none :=
      CallStatus.ofAnswer?_eq_none.mpr accepts.2
    simp only [advance, callOf, answer, classify, length] at ha
    cases ha
    exact ⟨φ, .keeps rfl rfl, h.note _, bound, rfl⟩
  | done => exact absurd ha (by simp [advance])

end Task
end Linkage
