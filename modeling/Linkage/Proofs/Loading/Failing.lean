import Linkage.Proofs.Loading.Standing
import Linkage.Proofs.Process.Verdicts

/-!
# Attempts that fail

An attempt to load that fails or panics writes the state of its loader, reports, and takes
verdicts of the watch on its source; nothing else is touched (`heard_ensureLoaded`,
`watches_ensureLoaded`).  The same holds of any number of them, one after the other
(`Failures.heard`): what is left of all is one state.

The next attempt begins by writing the state, so it does not depend on what was left
(`ensureLoaded_setState`, `call_setState`).
-/

namespace Linkage
namespace Process

variable {p q : Process} {l : LoaderId} {b : BridgeId}

/-! ## Writing the state -/

theorem setState_setState (p : Process) (l : LoaderId) (s s' : LoadState) :
    (p.setState l s).setState l s' = p.setState l s' := by
  simp only [setState, updateLoader, List.modify_modify_eq, Function.comp_def]

theorem setState_self (p : Process) (l : LoaderId) : p.setState l (p.loader l).state = p := by
  have same : p.loaders.modify l (fun c => { c with state := (p.loader l).state }) = p.loaders := by
    refine List.ext_getElem? fun k => ?_
    rw [List.getElem?_modify]
    by_cases own : l = k
    · subst own
      rcases here : p.loaders[l]? with _ | c
      · rfl
      · simp [loader, here]
    · simp [own]
  rw [setState, updateLoader, same]

/-- Writing the state goes on behind what has been heard. -/
theorem Heard.setState (heard : Heard p q) (l : LoaderId) (s : LoadState) :
    Heard (p.setState l s) (q.setState l s) where
  host := heard.host
  inProcessMade := heard.inProcessMade
  libraries := heard.libraries
  registry := heard.registry
  loaders := by rw [Process.setState, updateLoader, heard.loaders]; rfl
  bridges := heard.bridges
  held := heard.held

/-- A request for the handle writes the state first, so it does not read it. -/
theorem ensureLoaded_setState (unloaded : (p.loader l).handle = none) (s : LoadState) :
    (p.setState l s).ensureLoaded l = p.ensureLoaded l := by
  simp only [ensureLoaded, handle_setState, unloaded, setState_setState]

/-- A call through a bridge that has bound nothing does not read the state either. -/
theorem call_setState (unloaded : (p.loader (p.bridge b).loader).handle = none)
    (unbound : (p.bridge b).bound = none) (s : LoadState) (text : String) :
    (p.setState (p.bridge b).loader s).call b text = p.call b text := by
  have same : (p.setState (p.bridge b).loader s).bridge b = p.bridge b := rfl
  simp only [call, resolved, same, unbound, ensureLoaded_setState unloaded]

/-! ## One attempt -/

/-- A question what a library holds that is not answered leaves the host as it is. -/
theorem host_tableUnder (p : Process) (s : Source) (path : Path) (v : Verdict)
    (no : ∀ table, (p.tableUnder s path v).1 ≠ .ok table) :
    (p.tableUnder s path v).2.host = p.host := by
  rcases found : (p.tableUnder s path v).1 with table | e | _
  · exact absurd found (no table)
  · exact host_tableUnder_of_error found
  · revert found
    unfold tableUnder
    split
    · exact fun _ => rfl
    · simp
    · simp
    · simp
    all_goals split <;> simp

/-- What a source does that does not open a library is heard only. -/
theorem heard_openLibrary {s : Source} {path : Path} {owner : Option LoaderId}
    (no : ∀ h, (p.openLibrary s path owner).1 ≠ .ok h) :
    Heard p (p.openLibrary s path owner).2 := by
  obtain ⟨opening, ⟨table, ok, -⟩ | ⟨-, libraries⟩⟩ := openLibrary_spec p s path owner
  · exact absurd ok (no _)
  refine ⟨?_, opening.inProcessMade, libraries, opening.registry, opening.loaders,
    opening.bridges, opening.held⟩
  revert no
  unfold openLibrary
  extract_lets asked
  have heard : Heard p asked.2 := heard_ask ..
  have host := host_tableUnder asked.2 s path asked.1
  split <;> rename_i found <;> rw [found] at host
  · exact fun _ => (host (by simp)).trans heard.host
  · exact fun _ => (host (by simp)).trans heard.host
  · exact fun no => absurd rfl (no _)

/-- What an attempt does that does not succeed is heard only. -/
theorem heard_load (no : ∀ a, (p.load l).1 ≠ .ok a) : Heard p (p.load l).2 := by
  have attempt := attempt_load p l
  have located := heard_locate p (p.loader l).source (p.loader l).library (some l)
  generalize (p.load l).1 = o, (p.load l).2 = r at no attempt
  cases attempt with
  | locatePanics asked | notLocated asked =>
    rw [asked] at located
    exact located
  | openPanics asked _ opening | notOpened asked _ opening =>
    rw [asked] at located
    have opened := heard_openLibrary (by rw [opening]; simp)
    rw [opening] at opened
    exact located.trans opened
  | reused | opened => exact absurd rfl (no _)

/-- **An attempt that does not succeed leaves the state of its loader behind, and nothing
else.** -/
theorem heard_ensureLoaded (unloaded : (p.loader l).handle = none)
    (failed : ∀ h, (p.ensureLoaded l).1 ≠ .ok h) :
    Heard (p.setState l (Attempts.settled [(p.ensureLoaded l).1])) (p.ensureLoaded l).2 := by
  revert failed
  simp only [ensureLoaded, unloaded]
  have tried := fun no => heard_load (p := p.setState l .loading) (l := l) no
  rcases load : (p.setState l .loading).load l with ⟨o, q⟩
  rw [load] at tried
  cases o with
  | ok a => exact fun failed => absurd rfl (failed _)
  | panic => exact fun _ => tried (by simp)
  | error e =>
    intro _
    have heard := (tried (by simp)).setState l .failed
    rw [setState_setState] at heard
    exact heard.trans (heard_note ..)

/-! ## What other sources have in store -/

/-- A use takes nothing from the other watches. -/
theorem watches_takeVerdict {watch : Option WatchId} {kind : UseKind} {w : WatchId}
    (other : watch ≠ some w) : (p.takeVerdict watch kind).2.watches[w]? = p.watches[w]? := by
  unfold takeVerdict
  split
  · rfl
  · rename_i i
    split
    · rfl
    · exact List.getElem?_set_ne fun same => other (congrArg some same)

theorem watches_ask {watch : Option WatchId} {kind : UseKind} {use : String → Use} {w : WatchId}
    (other : watch ≠ some w) : (p.ask watch kind use).2.watches[w]? = p.watches[w]? := by
  rw [ask, watches_takeVerdict other, watches_record]

theorem watches_locate (p : Process) {s : Source} {w : WatchId} (other : s.watch ≠ some w)
    (library : String) (owner : Option LoaderId) :
    (p.locate s library owner).2.watches[w]? = p.watches[w]? := by
  rw [locate, watches_locateUnder, watches_ask other]

theorem watches_openLibrary (p : Process) {s : Source} {w : WatchId} (other : s.watch ≠ some w)
    (path : Path) (owner : Option LoaderId) :
    (p.openLibrary s path owner).2.watches[w]? = p.watches[w]? := by
  unfold openLibrary
  extract_lets asked
  have same : asked.2.watches[w]? = p.watches[w]? := watches_ask other
  have table := watches_tableUnder asked.2 s path asked.1
  rw [← same, ← table]
  split <;> rename_i h <;> simp only [h, addLibrary]

theorem watches_load {w : WatchId} (other : (p.loader l).source.watch ≠ some w) :
    (p.load l).2.watches[w]? = p.watches[w]? := by
  have attempt := attempt_load p l
  have located := watches_locate p other (p.loader l).library (some l)
  have opened : ∀ {path o q r}, p.locate (p.loader l).source (p.loader l).library (some l) =
      (.ok path, q) → q.openLibrary (p.loader l).source path (some l) = (o, r) →
      r.watches[w]? = p.watches[w]? := by
    intro path o q r asked opening
    have step := watches_openLibrary q other path (some l)
    rw [opening] at step
    rw [asked] at located
    exact step.trans located
  generalize (p.load l).1 = o, (p.load l).2 = r at attempt ⊢
  cases attempt with
  | locatePanics asked | notLocated asked | reused asked =>
    rw [asked] at located
    exact located
  | openPanics asked _ opening | notOpened asked _ opening => exact opened asked opening
  | opened asked _ opening =>
    have step := opened asked opening
    exact step

/-- **A request for a handle takes nothing from the watches on other sources.** -/
theorem watches_ensureLoaded {w : WatchId} (other : (p.loader l).source.watch ≠ some w) :
    (p.ensureLoaded l).2.watches[w]? = p.watches[w]? := by
  rw [ensureLoaded]
  split
  · rfl
  · have tried := watches_load (p := p.setState l .loading) (l := l) (w := w)
      (by rwa [source_setState])
    split <;> rename_i load <;> rw [load] at tried <;> exact tried

/-! ## Any number of attempts -/

/-- Attempts to load the library of a loader, one after the other, none of which succeeds. -/
inductive Failures (l : LoaderId) (p : Process) : Process → Prop where
  | start : Failures l p p
  | again {q : Process} (before : Failures l p q) (failed : ∀ h, (q.ensureLoaded l).1 ≠ .ok h) :
      Failures l p (q.ensureLoaded l).2

/-- **Whatever attempts have failed, one state is left of them.** -/
theorem Failures.heard (failures : Failures l p q) (unloaded : (p.loader l).handle = none) :
    ∃ state, Heard (p.setState l state) q := by
  induction failures with
  | start => exact ⟨(p.loader l).state, by rw [setState_self]⟩
  | @again q _ failed ih =>
    obtain ⟨state, heard⟩ := ih
    have unloaded : (q.loader l).handle = none := by rw [heard.loader, handle_setState, unloaded]
    have again := heard.setState l (Attempts.settled [(q.ensureLoaded l).1])
    rw [setState_setState] at again
    exact ⟨_, again.trans (heard_ensureLoaded unloaded failed)⟩

/-- They take nothing from the watches on other sources. -/
theorem Failures.watches (failures : Failures l p q) (unloaded : (p.loader l).handle = none)
    {w : WatchId} (other : (p.loader l).source.watch ≠ some w) : q.watches[w]? = p.watches[w]? := by
  induction failures with
  | start => rfl
  | again before _ ih =>
    obtain ⟨state, heard⟩ := before.heard unloaded
    rw [watches_ensureLoaded (by rwa [heard.loader, source_setState]), ih]

end Process
end Linkage
