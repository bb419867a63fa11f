import Linkage.Proofs.Bridge.Stages
import Linkage.Proofs.Loading.Standing
import Linkage.Proofs.Process.Notices

/-!
# What loading tells

A request for the handle of a loader tells how its attempt has ended, and in front of that what
the attempt has probed and whether it has come to a library that is open already
(`loadNotices`).  So loads and failed loads are told once for each attempt that has come out so
(`said_loadNotices`); an attempt that panics is not told of, nor is a handle that is there.

A library that is open already is told from one that is opened by the libraries of the process,
to which opening adds one (`libraries_load`).

A load fails for a reason of its own, or for one that its source makes up.  Only the latter can be
the status of a function, which nothing has been called for (`Truthful.ensureLoaded`).
-/

namespace Linkage

/-- Whether a failure is the status of a function that was called. -/
def BridgeError.isInvocation : BridgeError → Bool
  | .invocation _ _ => true
  | _ => false

namespace Outcome

variable {α : Type}

/-- An operation ends with a result. -/
def isOk : Outcome α → Bool
  | .ok _ => true
  | _ => false

/-- An operation fails. -/
def isError : Outcome α → Bool
  | .error _ => true
  | _ => false

/-- An operation fails with the status of a function that was called. -/
def isInvocation : Outcome α → Bool
  | .error e => e.isInvocation
  | _ => false

end Outcome

namespace Process

variable {p q : Process} {l : LoaderId}

/-! ## What is told -/

/-- What is told of the library that an attempt has come to: that it is open already. -/
def reusedNotices (p : Process) (l : LoaderId) : List Notice :=
  match (p.load l).1 with
  | .ok a => if a.opened then [] else [.reusing a.path]
  | _ => []

/-- What an attempt to have the library of a loader tells. -/
def attemptNotices (p : Process) (l : LoaderId) : List Notice :=
  (p.probed (p.loader l).source (p.loader l).library).map .probing ++ p.reusedNotices l

theorem tells_load (p : Process) (l : LoaderId) : Tells p (p.load l).2 (p.attemptNotices l) := by
  have located := tells_locate p (p.loader l).source (p.loader l).library (some l)
  have attempt := attempt_load p l
  unfold attemptNotices reusedNotices
  generalize p.load l = x at attempt ⊢
  obtain ⟨o, q⟩ := x
  dsimp only at attempt ⊢
  cases attempt with
  | locatePanics asked | notLocated asked =>
    rw [asked] at located
    simpa using located
  | reused asked =>
    rw [asked] at located
    exact located.trans (tells_note ..)
  | @openPanics path q _ asked _ opening | @notOpened path e q _ asked _ opening =>
    have opened := tells_openLibrary q (p.loader l).source path (some l)
    rw [asked] at located
    rw [opening] at opened
    exact located.trans opened
  | @opened path h q r asked _ opening =>
    have opened := tells_openLibrary q (p.loader l).source path (some l)
    rw [asked] at located
    rw [opening] at opened
    exact located.trans (opened.then_nothing (.of_journal rfl))

/-- What a loader tells of how an attempt has ended. -/
def endNotices (p : Process) (l : LoaderId) : List Notice :=
  match p.ensureLoaded l with
  | (.ok h, q) => [.loaded (p.loader l).library (q.pathOf h)]
  | (.error e, _) => [.loadFailed (p.loader l).library e]
  | (.panic, _) => []

/-- What a request for the handle of a loader tells. -/
def loadNotices (p : Process) (l : LoaderId) : List Notice :=
  match (p.loader l).handle with
  | some _ => []
  | none => (p.setState l .loading).attemptNotices l ++ p.endNotices l

theorem tells_ensureLoaded (p : Process) (l : LoaderId) :
    Tells p (p.ensureLoaded l).2 (p.loadNotices l) := by
  have loads := loads_ensureLoaded p l
  have begun : Tells p (p.setState l .loading) [] := .of_journal rfl
  have tried := begun.behind_nothing (tells_load (p.setState l .loading) l)
  unfold loadNotices endNotices
  generalize p.ensureLoaded l = x at loads ⊢
  obtain ⟨o, q⟩ := x
  dsimp only at loads ⊢
  cases loads with
  | cached handle =>
    rw [handle]
    exact .refl p
  | panics handle attempt =>
    rw [handle]
    rw [attempt.eq_load] at tried
    exact tried.trans (.refl q)
  | fails handle attempt =>
    rw [handle]
    rw [attempt.eq_load] at tried
    exact tried.trans ((Tells.of_journal rfl).behind_nothing (tells_note ..))
  | loads handle attempt =>
    rw [handle]
    rw [attempt.eq_load] at tried
    exact tried.trans ((Tells.of_journal rfl).behind_nothing (tells_note ..))

/-! ## How often it is told -/

/-- The words in which a load tells. -/
def loadWords : List String :=
  ["probing for native library", "reusing process-wide library handle", "native library loaded",
    "native library load failed"]

theorem within_reusedNotices (p : Process) (l : LoaderId) :
    Notice.Within ["reusing process-wide library handle"] (p.reusedNotices l) := by
  unfold reusedNotices
  split
  · split
    · exact .nil
    · exact .singleton (by simp [Notice.words])
  · exact .nil

theorem within_attemptNotices (p : Process) (l : LoaderId) :
    Notice.Within ["probing for native library", "reusing process-wide library handle"]
      (p.attemptNotices l) :=
  ((Notice.within_probing _).mono (List.subset_append_left ..)).append
    ((within_reusedNotices p l).mono (List.subset_append_right ["probing for native library"] _))

theorem within_endNotices (p : Process) (l : LoaderId) :
    Notice.Within ["native library loaded", "native library load failed"] (p.endNotices l) := by
  unfold endNotices
  split
  · exact .singleton (by simp [Notice.words])
  · exact .singleton (by simp [Notice.words])
  · exact .nil

theorem within_loadNotices (p : Process) (l : LoaderId) :
    Notice.Within loadWords (p.loadNotices l) := by
  unfold loadNotices
  split
  · exact .nil
  · exact ((within_attemptNotices (p.setState l .loading) l).mono (by simp [loadWords])).append
      ((within_endNotices p l).mono (by simp [loadWords]))

/-- **A load is told once for each attempt that succeeds, and a failure once for each that
fails.** -/
theorem said_loadNotices (p : Process) (l : LoaderId) :
    Notice.said "native library loaded" (p.loadNotices l) =
        (p.attemptsOf l l).countP Outcome.isOk ∧
      Notice.said "native library load failed" (p.loadNotices l) =
        (p.attemptsOf l l).countP Outcome.isError := by
  have attempt := within_attemptNotices (p.setState l .loading) l
  have loaded : Notice.said "native library loaded" ((p.setState l .loading).attemptNotices l) =
      0 := attempt.said_eq_zero (by simp)
  have failed : Notice.said "native library load failed"
      ((p.setState l .loading).attemptNotices l) = 0 :=
    attempt.said_eq_zero (by simp)
  unfold loadNotices endNotices attemptsOf
  cases (p.loader l).handle with
  | some h => simp
  | none =>
    dsimp only
    rw [Notice.said_append, Notice.said_append, loaded, failed, if_pos ⟨rfl, rfl⟩]
    rcases p.ensureLoaded l with ⟨h | e | _, q⟩ <;>
      simp [Notice.words, Outcome.isOk, Outcome.isError]

/-- What is probed is told by an attempt, and only by an attempt. -/
theorem inWords_loadNotices (p : Process) (l : LoaderId) :
    Notice.inWords "probing for native library" (p.loadNotices l) =
      match (p.loader l).handle with
      | some _ => []
      | none => (p.probed (p.loader l).source (p.loader l).library).map .probing := by
  unfold loadNotices
  cases (p.loader l).handle with
  | some h => rfl
  | none =>
    have reused := within_reusedNotices (p.setState l .loading) l
    have ends := within_endNotices p l
    dsimp only
    rw [Notice.inWords_append, ends.inWords_eq_nil (by simp), attemptNotices,
      Notice.inWords_append, reused.inWords_eq_nil (by simp), Notice.inWords_probing,
      List.append_nil, List.append_nil, source_setState, library_setState]
    rfl

/-- A request for a handle that fails has made an attempt, since a handle that is there is
given. -/
theorem any_isError_attemptsOf (p : Process) (l : LoaderId) :
    (p.attemptsOf l l).any Outcome.isError = (p.ensureLoaded l).1.isError := by
  rcases handle : (p.loader l).handle with _ | h
  · rw [attemptsOf, if_pos ⟨rfl, handle⟩]
    simp
  · rw [ensureLoaded_of_handle handle, attemptsOf, if_neg (by simp [handle])]
    rfl

/-- An attempt comes out as the request for the handle does that makes it. -/
theorem ensureLoaded_of_mem_attemptsOf {o : Outcome Handle} (made : o ∈ p.attemptsOf l l) :
    (p.ensureLoaded l).1 = o := by
  rw [attemptsOf] at made
  split at made
  · exact (List.mem_singleton.mp made).symm
  · exact absurd made List.not_mem_nil

/-! ## Libraries that are open already -/

/-- An attempt that succeeds adds the library that it has opened, or none. -/
theorem libraries_load {a : Load} (load : p.load l = (.ok a, q)) :
    q.libraries.length = p.libraries.length + if a.opened then 1 else 0 := by
  have attempt := attempt_load p l
  have heard := heard_locate p (p.loader l).source (p.loader l).library (some l)
  rw [load] at attempt
  dsimp only at attempt
  cases attempt with
  | reused asked =>
    rw [asked] at heard
    exact congrArg List.length heard.libraries
  | @opened path h q r asked _ opening =>
    rw [asked] at heard
    have added := (openLibrary_spec q (p.loader l).source path (some l)).2
    rw [opening] at added
    obtain ⟨table, -, added⟩ | ⟨no, -⟩ := added
    · show r.libraries.length = p.libraries.length + 1
      rw [added, List.length_append, heard.libraries, List.length_singleton]
    · exact absurd rfl (no h)

/-- A loader that has been given its handle without a library being opened was given one that is
open already, and this is told. -/
theorem said_reusing_loadNotices (p : Process) (l : LoaderId) :
    Notice.said "reusing process-wide library handle" (p.loadNotices l) =
      if (p.attemptsOf l l).any Outcome.isOk ∧
          (p.ensureLoaded l).2.libraries.length = p.libraries.length then 1 else 0 := by
  unfold loadNotices
  cases handle : (p.loader l).handle with
  | some h => simp [attemptsOf, handle]
  | none =>
    have made : p.attemptsOf l l = [(p.ensureLoaded l).1] := if_pos ⟨rfl, handle⟩
    have probing : ∀ paths : List Path, Notice.said "reusing process-wide library handle"
        (paths.map Notice.probing) = 0 := fun paths =>
      (Notice.within_probing paths).said_eq_zero (by decide)
    have ending : Notice.said "reusing process-wide library handle" (p.endNotices l) = 0 :=
      (within_endNotices p l).said_eq_zero (by simp)
    dsimp only
    rw [Notice.said_append, attemptNotices, Notice.said_append, probing, ending, reusedNotices,
      made]
    rcases load : (p.setState l .loading).load l with ⟨a | e | _, q⟩
    · have ends : p.ensureLoaded l = q.finishLoaded l a := by
        simp only [ensureLoaded, handle, load]
      have same : (q.finishLoaded l a).2.libraries = q.libraries := rfl
      have libraries : q.libraries.length = p.libraries.length + if a.opened then 1 else 0 :=
        libraries_load (p := p.setState l .loading) load
      rw [ends, same, libraries]
      cases opened : a.opened <;> simp [opened, finishLoaded, Notice.words, Outcome.isOk]
    · have ends : p.ensureLoaded l = q.finishFailed l e := by
        simp only [ensureLoaded, handle, load]
      rw [ends]
      simp [finishFailed, Outcome.isOk]
    · have ends : p.ensureLoaded l = (.panic, q) := by
        simp only [ensureLoaded, handle, load]
      rw [ends]
      simp [Outcome.isOk]

/-! ## Failures that sources make up -/

/-- No watch has a source make up the status of a function. -/
def Truthful (p : Process) : Prop :=
  ∀ kind, kind ≠ .symbol → ∀ symbol status, ∀ w ∈ p.watches,
    .refuse (.invocation symbol status) ∉ w.script.on kind

theorem Truthful.dwindles (h : p.Truthful) (dwindles : Dwindles p q) : q.Truthful :=
  fun kind uses symbol status => dwindles.not_mem kind (h kind uses symbol status)

theorem Truthful.verdict (h : p.Truthful) {watch : Option WatchId} {kind : UseKind}
    (uses : kind ≠ .symbol) {e : BridgeError} (refuses : p.verdict watch kind 0 = .refuse e) :
    e.isInvocation = false := by
  cases e with
  | invocation symbol status =>
    rcases verdict_mem_coming p watch kind 0 with pass | mem
    · exact absurd (pass.symm.trans refuses) (by simp)
    · obtain ⟨w, among, ready⟩ := exists_watch_of_mem mem
      exact absurd (refuses ▸ ready) (h kind uses symbol status w among)
  | _ => rfl

theorem Truthful.locate (h : p.Truthful) (s : Source) (library : String)
    (owner : Option LoaderId) : (p.locate s library owner).1.isInvocation = false := by
  have searched : ∀ origin, (p.locateAt origin library).1.isInvocation = false := by
    intro origin
    unfold locateAt
    cases origin with
    | inProcess => dsimp only; split <;> rfl
    | system => dsimp only; split <;> rfl
  rw [(locate_spec p s library owner).1]
  cases answer : p.verdict s.watch .locate 0 with
  | refuse e => exact h.verdict (by decide) answer
  | pass | supply =>
    dsimp only [locateUnder]
    cases s.fixed with
    | some path => rfl
    | none => exact searched _
  | panic | fail | place => rfl

theorem Truthful.openLibrary (h : p.Truthful) (s : Source) (path : Path)
    (owner : Option LoaderId) : (p.openLibrary s path owner).1.isInvocation = false := by
  unfold Process.openLibrary
  extract_lets asked
  have first : asked.1 = p.verdict s.watch .opening 0 := (ask_spec p s.watch .opening _).1
  have opened : (asked.2.tableUnder s path asked.1).1.isInvocation = false := by
    rw [first]
    cases answer : p.verdict s.watch .opening 0 with
    | refuse e => exact h.verdict (by decide) answer
    | pass | place =>
      dsimp only [tableUnder]
      split <;> rfl
    | panic | fail | supply => rfl
  split <;> rename_i under <;> rw [under] at opened
  · rfl
  · exact opened
  · rfl

/-- **Where no source makes up a status, no load fails with one.** -/
theorem Truthful.ensureLoaded (h : p.Truthful) (l : LoaderId) :
    (p.ensureLoaded l).1.isInvocation = false := by
  have begun : (p.setState l .loading).Truthful := h
  have attempt := attempt_load (p.setState l .loading) l
  have loaded : ((p.setState l .loading).load l).1.isInvocation = false := by
    generalize (p.setState l .loading).load l = x at attempt ⊢
    obtain ⟨o, q⟩ := x
    dsimp only at attempt ⊢
    cases attempt with
    | @notLocated e q asked =>
      have located := begun.locate ((p.setState l .loading).loader l).source
        ((p.setState l .loading).loader l).library (some l)
      rw [asked] at located
      exact located
    | @notOpened path e q r asked _ opening =>
      have dwindles := dwindles_locate (p.setState l .loading)
        ((p.setState l .loading).loader l).source
        ((p.setState l .loading).loader l).library (some l)
      rw [asked] at dwindles
      have opened := (begun.dwindles dwindles).openLibrary
        ((p.setState l .loading).loader l).source path (some l)
      rw [opening] at opened
      exact opened
    | _ => rfl
  rw [Process.ensureLoaded]
  split
  · rfl
  · split <;> rename_i load <;> rw [load] at loaded
    · rfl
    · exact loaded
    · rfl

end Process
end Linkage
