import Linkage.Proofs.Pool.Provided
import Linkage.Proofs.Session.Commands
import Linkage.Proofs.Session.Registry

/-!
# A bound function stands for the whole way

A bridge that has bound a function calls it, and neither loads nor looks anything up again.
What the disk, the environment, the registry or other objects have come to meanwhile does not
matter to it: `cached_call_stands` says what such a call does, behind any commands and among
any threads, and that it answers as it would if the name were looked up again.

The second holds because a library goes on to give what it gave.  Only a watch can have a
lookup in it come out otherwise, and then the bound function outlives what a lookup would find
(`cached_call_outlives`).
-/

namespace Linkage

open Process

namespace Process

variable {p q : Process} {b : BridgeId} {r : SymbolReference} {text : String}

/-- A call through a bridge with a bound function calls this function. -/
theorem call_eq_invoke (bound : (p.bridge b).bound = some r) (text : String) :
    p.call b text = p.invoke r text := by
  simp only [Process.call, resolved, bound]

/-- What a bound function answers does not depend on the process. -/
theorem invoke_congr (p q : Process) (r : SymbolReference) (text : String) :
    (q.invoke r text).1 = (p.invoke r text).1 := by
  rw [outcome_invoke, outcome_invoke]

/-- Calling a bound function is noted, and nothing else happens. -/
theorem invoke_notes (p : Process) (r : SymbolReference) (text : String) :
    ∃ notices, (p.invoke r text).2 = p.noteAll notices ∧ ∀ n ∈ notices,
      (∃ length, n = .called r.name text.utf8ByteSize length) ∨
        ∃ status, n = .callFailed r.name status := by
  unfold invoke
  split
  · exact ⟨[], by simp [noteAll], fun _ mem => absurd mem List.not_mem_nil⟩
  · unfold classify
    split
    · rename_i status _
      exact ⟨[.callFailed r.name status], rfl, by simp⟩
    · exact ⟨[.called r.name text.utf8ByteSize _], rfl, by simp⟩

end Process

namespace Session

variable {watch : Option WatchId}

/-- At no time behind the commands a watch has another verdict ready for a lookup than to
pass. -/
def Undisturbed (host : Host) (cs : List Command) (watch : Option WatchId) : Prop :=
  ∀ before, before <+: cs → Passing watch ((start host).after before).process

/-- Where no source is made with another verdict on lookups, no watch disturbs any. -/
theorem undisturbed_of_scripts (host : Host) {cs : List Command}
    (passing : ∀ name base fixed script, .source name base fixed script ∈ cs →
      ∀ v ∈ script.symbol, v = .pass) (watch : Option WatchId) : Undisturbed host cs watch := by
  intro before within v mem
  obtain ⟨w, hw, ready⟩ := exists_watch_of_mem mem
  by_contra other
  refine not_mem_script host .symbol (fun name base fixed script made ready => ?_) w hw ready
  exact other (passing name base fixed script (within.subset made) v ready)

/-- **Behind all commands bridges have bound what their libraries give**, as long as no lookup
is disturbed. -/
theorem remembers_after (host : Host) {cs : List Command}
    (undisturbed : Undisturbed host cs watch) :
    Remembers watch ((start host).after cs).process := by
  refine after_induct host (motive := fun cs p _ => Undisturbed host cs watch → Remembers watch p)
    ?_ ?_ cs undisturbed
  · intro _ b r bound
    exact absurd bound (by simp [bridge, Process.start, default])
  intro cs c q new effect ih undisturbed
  have remembers := ih fun before within =>
    undisturbed before (within.trans (List.prefix_append ..))
  have passing := undisturbed cs (List.prefix_append ..)
  have rest := (kept_after host cs).rest
  cases effect with
  | surrounds hq | watches _ _ hq | makesLoader hq =>
    exact remembers.of_eq (hq ▸ List.prefix_refl _) (hq ▸ rfl)
  | reports heard => exact remembers.heard heard
  | makesBridge hq =>
    rw [hq]
    exact remembers.extends (List.prefix_refl _) fun _ _ => bound_of_append rfl
  | loads _ hq => exact hq ▸ remembers.ensureLoaded _
  | calls _ hq => exact hq ▸ remembers.call passing rest.bounds _ _
  | callsMany _ hq =>
    rw [hq]
    exact (Pool.run_moments (Pool.ofCall ..) 0).remembers passing remembers Pool.starting_ofCall

/-- **A call through a bridge with a bound function.**  Let a bridge have bound a function,
behind any commands, and let any further commands and then any threads go on.  The bridge has
it still, and a call does nothing but call it with the text: it is noted how that went, and the
process is otherwise left as it was.  The call answers as it would have before.  And it answers
as it would if the name were looked up again in the library with the loader's handle: unless a
watch disturbs lookups in this library, the lookup succeeds and gives the same function. -/
theorem cached_call_stands (host : Host) (cs cs' : List Command) {b : BridgeId}
    {r : SymbolReference} (bound : (((start host).after cs).process.bridge b).bound = some r)
    {tasks : List Task} {moments : List Moment} {pool : Pool}
    (starting : ∀ task ∈ tasks, Pool.Starting task)
    (run : Pool.Run ⟨((start host).after (cs ++ cs')).process, tasks⟩ moments pool)
    (text : String) :
    let p := ((start host).after cs).process
    let q := pool.process
    (q.bridge b).bound = some r ∧
    q.call b text = q.invoke r text ∧
    (∃ notices, (q.call b text).2 = q.noteAll notices ∧ ∀ n ∈ notices,
      (∃ length, n = .called r.name text.utf8ByteSize length) ∨
        ∃ status, n = .callFailed r.name status) ∧
    (q.call b text).1 = (p.call b text).1 ∧
    ∃ h lib, (q.loader (q.bridge b).loader).handle = some h ∧ q.libraries[h]? = some lib ∧
      (Undisturbed host (cs ++ cs') lib.watch →
        ∃ behind, q.resolve h (q.bridge b).symbol .callable = (.ok r, behind) ∧
          (q.call b text).1 = (behind.invoke r text).1) := by
  intro p q
  have kept := kept_after host (cs ++ cs')
  have grows : Grows p ((start host).after (cs ++ cs')).process := by
    rw [after_append]
    exact ((kept_after host cs).after cs').2
  have still := grows.bound b r bound
  have now : (q.bridge b).bound = some r := run.stays.bound b r still
  have call := call_eq_invoke now text
  obtain ⟨handle, name, signature⟩ := (kept.rest.bounds b r still).stays run.stays
  -- the library was opened before, or there would be no handle
  have lt : r.handle < ((start host).after (cs ++ cs')).process.libraries.length :=
    kept.rest.toAccount.lt_of_handle (kept.rest.bounds b r still).handle
  have opened : q.libraries[r.handle]? = some _ :=
    opened_of_extends run.stays.libraries (List.getElem?_eq_getElem lt)
  refine ⟨now, call, call ▸ invoke_notes q r text, ?_, r.handle, _, handle, opened, ?_⟩
  · rw [call, call_eq_invoke bound]
    exact invoke_congr ..
  · intro undisturbed
    have passing := undisturbed _ (List.prefix_refl _)
    have remembers := run.remembers passing (remembers_after host undisturbed) starting
    have again := (remembers b r now).resolve opened signature (passing.dwindles run.dwindles)
    rw [← name]
    refine ⟨_, Prod.ext again rfl, ?_⟩
    rw [call]
    exact invoke_congr ..

/-- A bridge over a function that is linked in, with a script for lookups, is called. -/
def remembering (lookups : List Verdict) : List Command :=
  [.source "s" (.linked "l" [("f", .scalarLength)]) none ⟨[], [], lookups⟩,
    .bridge "b" (.ok { Config.default with library := "l", symbol := "f" }) (some "s"),
    .call "b" "a"]

/-- The source is dropped, and another of its name has another function. -/
def remembering.later : List Command :=
  [.drop "s", .setLibraryPath (some "/lib"),
    .source "s" (.linked "l" [("f", .constant 7)]) none .none]

/-- The surroundings of these commands: an empty disk. -/
def remembering.host : Host := ⟨.empty, [], none, none, []⟩

/-- The function that the bridge has bound. -/
def remembering.reference : SymbolReference := ⟨0, "f", .callable, .scalarLength⟩

/-- Behind the further commands a lookup gives the function that was bound, and the call
answers what this function answers. -/
theorem cached_call_stands_dropped :
    let q := ((start remembering.host).after (remembering [] ++ remembering.later)).process
    ∃ behind, q.resolve 0 "f" .callable = (.ok remembering.reference, behind) ∧
      (q.call 0 "aé").1 = (behind.invoke remembering.reference "aé").1 := by
  intro q
  have bound : (((start remembering.host).after (remembering [])).process.bridge 0).bound =
      some remembering.reference := by decide +kernel
  have undisturbed : ∀ watch, Undisturbed remembering.host
      (remembering [] ++ remembering.later) watch := by
    refine undisturbed_of_scripts _ fun name base fixed script made v mem => ?_
    obtain ⟨-, -, -, rfl⟩ | ⟨-, -, -, rfl⟩ := by
      simpa [remembering, remembering.later] using made
    · exact absurd mem List.not_mem_nil
    · exact absurd mem List.not_mem_nil
  obtain ⟨-, -, -, -, h, lib, handle, -, again⟩ := cached_call_stands remembering.host
    (remembering []) remembering.later bound (fun _ mem => absurd mem List.not_mem_nil) .start "aé"
  obtain rfl : 0 = h := Option.some.inj ((by decide +kernel : _ = some 0).symm.trans handle)
  exact again (undisturbed _)

/-- **The bound function outlives what a lookup finds.**  The lookups of the binding pass and
the next one fails: the name is not found any more, and the call answers all the same. -/
theorem cached_call_outlives :
    let p := ((start remembering.host).after (remembering [.pass, .pass, .fail])).process
    (p.bridge 0).bound = some remembering.reference ∧ (p.loader 0).handle = some 0 ∧
      (p.resolve 0 "f" .callable).1 = .error (.symbolNotFound "f" (p.pathOf 0)) ∧
      (p.call 0 "aé").1 = .ok 2 := by
  decide +kernel

end Session
end Linkage
