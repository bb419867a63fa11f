import Linkage.Proofs.Process.Growth

/-!
# What a stage does

Whatever a stage of a thread does to the process is one of seven things: it reports and
asks, takes or gives back a lock, writes the state of its loader, opens a library,
registers one, or fills the cell of its loader or of its bridge.  `advance_effect` is
the one place where the stages are gone through for this; what a stage takes away
(nothing, `advance_stays`) and what it leaves alone are read off the seven.
-/

namespace Linkage

/-! ## The stages by what they are for -/

/-- The state that a stage writes into its loader. -/
def Stage.marked? : Stage → Option LoadState
  | .markLoading => some .loading
  | .markLoaded _ => some .loaded
  | .markFailed _ => some .failed
  | _ => none

/-- Whether a stage is under the lock of the registry. -/
def Stage.inRegistry : Stage → Bool
  | .lookUp .. | .opening .. | .register _ | .leaveRegistry _ => true
  | _ => false

/-- Whether a stage is under the lock of the loader. -/
def Stage.inLoading : Stage → Bool
  | .rereadHandle | .markLoading | .locate | .findPlace _ | .enterRegistry .. | .lookUp ..
  | .opening .. | .register _ | .leaveRegistry _ | .storeHandle _ | .markLoaded _
  | .markFailed _ | .leaveLoading _ => true
  | _ => false

/-- Whether a stage is under the lock of the bridge. -/
def Stage.inBinding : Stage → Bool
  | .rereadSymbol _ | .bind _ | .storeSymbol _ | .leaveBinding _ => true
  | _ => false

theorem Stage.inLoading_of_marked {s : Stage} {state : LoadState} (h : s.marked? = some state) :
    s.inLoading := by
  cases s <;> simp_all [marked?, inLoading]

/-! ## The seven effects -/

namespace Task

open Process

variable {self : ThreadId} {p q : Process} {goal : Goal} {s s' : Stage}

/-- What a stage does to the process. -/
inductive Effect (p q : Process) (goal : Goal) : Stage → Prop where
  | reports {s : Stage} (heard : Heard p q) : Effect p q goal s
  | locks {s : Stage} (held : List (Lock × ThreadId)) (hq : q = { p with held := held }) :
      Effect p q goal s
  | marks {s : Stage} (state : LoadState) (marked : s.marked? = some state)
      (heard : Heard (p.setState (loaderOf p goal) state) q) : Effect p q goal s
  | opens {path key : Path} (asked : Asked p q) (libraries : p.libraries <+: q.libraries) :
      Effect p q goal (.opening path key)
  | registers {a : Load} (hq : q = p.register a.key a.handle) : Effect p q goal (.register a)
  | stores {a : Load} (hq : q = p.storeHandle (loaderOf p goal) a.handle) :
      Effect p q goal (.storeHandle a)
  | binds {r : SymbolReference} (hq : q = p.storeSymbol (callOf goal).1 r) :
      Effect p q goal (.storeSymbol r)

/-- **A stage does one of the seven things.** -/
theorem advance_effect (h : advance self p goal s = some (q, s')) : Effect p q goal s := by
  cases s with
  | readSymbol | readHandle | rereadHandle | rereadSymbol | copy =>
    simp only [advance] at h
    split at h <;> cases h <;> exact .reports (.refl p)
  | findPlace =>
    cases h
    exact .reports (.refl p)
  | enterLoading | enterRegistry | enterBinding =>
    simp only [advance, Option.map_eq_some_iff] at h
    obtain ⟨r, hr, he⟩ := h
    cases he
    unfold acquire? at hr
    split at hr
    · exact absurd hr (by simp)
    · exact .locks _ (Option.some.inj hr).symm
  | markLoading =>
    cases h
    exact .marks .loading rfl (.refl _)
  | markLoaded i =>
    cases h
    exact .marks .loaded rfl (heard_note ..)
  | markFailed e =>
    cases h
    exact .marks .failed rfl (heard_note ..)
  | register a =>
    cases h
    exact .registers rfl
  | storeHandle a =>
    cases h
    exact .stores rfl
  | storeSymbol r =>
    cases h
    exact .binds rfl
  | leaveLoading | leaveBinding =>
    cases h
    exact .locks _ rfl
  | leaveRegistry o =>
    cases o <;> cases h <;> exact .locks _ rfl
  | lookUp path key =>
    simp only [advance] at h
    split at h <;> cases h
    · exact .reports (heard_note ..)
    · exact .reports (.refl p)
  | locate =>
    have heard := heard_locate p (p.loader (loaderOf p goal)).source
      (p.loader (loaderOf p goal)).library (some (loaderOf p goal))
    simp only [advance] at h
    split at h <;> rename_i found <;> cases h <;> rw [found] at heard <;> exact .reports heard
  | opening path key =>
    obtain ⟨asked, added⟩ := openLibrary_spec p (p.loader (loaderOf p goal)).source path
      (some (loaderOf p goal))
    have libraries : p.libraries <+: (p.openLibrary (p.loader (loaderOf p goal)).source path
        (some (loaderOf p goal))).2.libraries := by
      obtain ⟨table, -, added⟩ | ⟨-, same⟩ := added
      · exact added ▸ List.prefix_append ..
      · exact same ▸ List.prefix_refl _
    simp only [advance] at h
    split at h <;> rename_i opened <;> cases h <;> rw [opened] at asked libraries <;>
      exact .opens asked libraries
  | bind i =>
    have heard := heard_bind p (callOf goal).1 i
    simp only [advance] at h
    split at h <;> rename_i bound <;> cases h <;> rw [bound] at heard <;> exact .reports heard
  | invoke r argument =>
    have heard := heard_classify p r (callOf goal).2 (r.function.invoke argument.buffer)
    simp only [advance] at h
    split at h <;> rename_i answered <;> cases h <;> rw [answered] at heard <;>
      exact .reports heard
  | done => exact absurd h (by simp [advance])

theorem Effect.stays (h : Effect p q goal s) : Stays p q := by
  cases h with
  | reports heard => exact heard.stays
  | locks held hq => exact hq ▸ stays_held p held
  | marks state _ heard => exact (stays_setState ..).trans heard.stays
  | opens asked libraries => exact asked.stays libraries
  | registers hq => exact hq ▸ stays_register ..
  | stores hq => exact hq ▸ stays_storeHandle ..
  | binds hq => exact hq ▸ stays_storeSymbol ..

/-- **A stage takes nothing away.** -/
theorem advance_stays (h : advance self p goal s = some (q, s')) : Stays p q :=
  (advance_effect h).stays

/-! ## What a stage hands on -/

/-- A library that is to be registered has just been opened, and a function that is to be
stored has just been bound. -/
def Handed (p q : Process) (goal : Goal) : Stage → Prop
  | .register a => p.openLibrary (p.loader (loaderOf p goal)).source a.path
      (some (loaderOf p goal)) = (.ok a.handle, q)
  | .storeSymbol r => ∃ i, p.bind (callOf goal).1 i = (.ok r, q)
  | _ => True

/-- **What a thread has to write it was handed by the stage before.** -/
theorem advance_handed (h : advance self p goal s = some (q, s')) : Handed p q goal s' := by
  cases s with
  | opening path key =>
    simp only [advance] at h
    split at h <;> rename_i opened <;> cases h
    · exact opened
    · trivial
    · trivial
  | bind i =>
    simp only [advance] at h
    split at h <;> rename_i bound <;> cases h
    · exact ⟨i, bound⟩
    · trivial
    · trivial
  | readHandle =>
    simp only [advance] at h
    split at h
    · cases goal <;> cases h <;> trivial
    · cases h
      trivial
  | leaveLoading o => cases o <;> cases goal <;> cases h <;> trivial
  | leaveBinding o | leaveRegistry o => cases o <;> cases h <;> trivial
  | readSymbol | rereadHandle | locate | lookUp | rereadSymbol | copy | invoke =>
    simp only [advance] at h
    split at h <;> cases h <;> trivial
  | enterLoading | enterRegistry | enterBinding =>
    obtain ⟨_, _, he⟩ := Option.map_eq_some_iff.mp h
    cases he
    trivial
  | markLoading | findPlace | register | storeHandle | markLoaded | markFailed | storeSymbol =>
    cases h
    trivial
  | done => exact absurd h (by simp [advance])

end Task
end Linkage
