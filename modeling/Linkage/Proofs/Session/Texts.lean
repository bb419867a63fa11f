import Linkage.Proofs.Pool.Texts

/-!
# The text of a call stays out of loading and binding

A call is given its text before it loads and binds, and looks at it only afterwards.  So two
calls with different texts link the same way (`Process.Links`): they fail alike, or they come to
the same function in the same process, and what differs behind them is what they report of the
measuring (`text_never_links`).  Among other threads this is a matter of runs, and
`Linkage.Proofs.Pool.Texts` has it.
-/

namespace Linkage

open Process

namespace Process

variable {p q : Process} {b : BridgeId} {t u : String} {o : Outcome SymbolReference}

/-- How a call comes to the function that it calls: its library is loaded and its name bound,
and the first of the two that fails is the answer. -/
inductive Links (p : Process) (b : BridgeId) : Outcome SymbolReference → Process → Prop where
  | loadPanics {q : Process} (load : Loads p (p.bridge b).loader .panic q) : Links p b .panic q
  | notLoaded {e : BridgeError} {q : Process} (load : Loads p (p.bridge b).loader (.error e) q) :
      Links p b (.error e) q
  | loaded {h : Handle} {o : Outcome SymbolReference} {q r : Process}
      (load : Loads p (p.bridge b).loader (.ok h) q) (bind : Binds q b h o r) : Links p b o r

/-- How a call with a text ends that has linked so. -/
def Finishes (q : Process) (symbol t : String) :
    Outcome SymbolReference → Outcome Int64 × Process → Prop
  | .panic, x => x = (.panic, q)
  | .error e, x => x = (.error e, q)
  | .ok r, x => Answers q symbol r.function t x.1 x.2

theorem exists_links (p : Process) (b : BridgeId) : ∃ o q, Links p b o q := by
  have load := loads_ensureLoaded p (p.bridge b).loader
  rcases loaded : p.ensureLoaded (p.bridge b).loader with ⟨_ | _ | _, q⟩ <;> rw [loaded] at load
  · obtain ⟨o, r, bind⟩ := exists_binds q b _
    exact ⟨o, r, .loaded load bind⟩
  · exact ⟨_, _, .notLoaded load⟩
  · exact ⟨_, _, .loadPanics load⟩

/-- **A call links without its text**, and ends as it has linked. -/
theorem finishes_of_links (bounds : BridgesBound p) (links : Links p b o q) (t : String) :
    Finishes q (p.bridge b).symbol t o (p.call b t) := by
  cases links with
  | loadPanics load => exact (Calls.loadPanics load).eq_call bounds
  | notLoaded load => exact (Calls.notLoaded load).eq_call bounds
  | loaded load bind =>
    cases o with
    | panic => exact (Calls.bindPanics load bind).eq_call bounds
    | error e => exact (Calls.notBound load bind).eq_call bounds
    | ok r =>
      obtain ⟨o, s, answers⟩ := exists_answers q (p.bridge b).symbol r.function t
      rw [Finishes, (Calls.called load bind answers).eq_call bounds]
      exact answers

/-- A call that has linked reports how the measuring went, and does nothing else. -/
theorem Finishes.quiet {symbol : String} {x : Outcome Int64 × Process}
    (h : Finishes q symbol t o x) : x.2.quiet = q.quiet := by
  cases o with
  | panic | error e =>
    obtain rfl := h
    rfl
  | ok r =>
    obtain ⟨o, s⟩ := x
    have answers : Answers q symbol r.function t o s := h
    cases answers with
    | refused => rfl
    | fails | answers => exact quiet_note_of_call rfl

/-- A text with a U+0000 is refused, whatever the function that the name is bound to. -/
theorem Finishes.refused {symbol : String} {r : SymbolReference} {x : Outcome Int64 × Process}
    (h : Finishes q symbol t (.ok r) x) {offset : Nat}
    (refused : Argument.ofText t = .error offset) : x = (.error (.marshal offset), q) := by
  obtain ⟨o, s⟩ := x
  have answers : Answers q symbol r.function t o s := h
  cases answers with
  | refused zero first =>
    obtain rfl := Except.error.inj ((Argument.ofText_of_zero zero first).symm.trans refused)
    rfl
  | fails copied | answers copied =>
    obtain ⟨argument, copy, -⟩ := Argument.ofText_of_no_zero copied
    exact absurd (copy.symm.trans refused) (by simp)

/-- What a text with a U+0000 is refused with does not depend on the function. -/
theorem invoke_of_refused {offset : Nat} (refused : Argument.ofText t = .error offset)
    (q : Process) (r : SymbolReference) : q.invoke r t = (.error (.marshal offset), q) := by
  rw [invoke, refused]

end Process

namespace Session

/-- **The text of a call never influences loading or binding.**  In every session that is
reached, two calls of a bridge with different texts link the same way, so that both fail there
with the same failure and the same process behind them, or both are answers of one function; and
they leave the same loaders, bridges, registry and libraries, and the same requests and notices
but those of the calls themselves.  A call whose text has a U+0000 leaves the process as linking
has left it, and would be the same with any other function in the place of the one it found.

The same holds among threads: whatever threads come to with one text they come to with the other,
and a thread that calls its function has a text without U+0000, and calls it with the copy. -/
theorem text_never_links (host : Host) (cs : List Command) (b : BridgeId) (t u : String) :
    let p := ((start host).after cs).process
    (∃ o q, Links p b o q ∧ Finishes q (p.bridge b).symbol t o (p.call b t) ∧
      Finishes q (p.bridge b).symbol u o (p.call b u)) ∧
    (p.call b u).2.quiet = (p.call b t).2.quiet ∧
    ('\x00' ∈ t.toList → ∃ offset, ∀ r q, Links p b (.ok r) q →
      p.call b t = (.error (.marshal offset), q) ∧
      ∀ f, q.invoke { r with function := f } t = p.call b t) ∧
    (∀ (goals : List Goal) pool, Pool.Steps ⟨p, goals.map Task.ofGoal⟩ pool →
      ∀ task ∈ pool.tasks, ∀ r argument, task.stage = .invoke r argument →
        '\x00' ∉ (Task.callOf task.goal).2.toList ∧
        Argument.ofText (Task.callOf task.goal).2 = .ok argument) ∧
    (∀ (goals : List Goal) i, goals[i]? = some (.call b t) →
      ∀ pool, Pool.Steps ⟨p, goals.map Task.ofGoal⟩ pool →
        ∃ pool', Pool.Steps ⟨p, (goals.set i (.call b u)).map Task.ofGoal⟩ pool' ∧
          Pool.TextApart i b t u pool pool' ∧
          ∀ o, pool.tasks[i]? = some ⟨.call b t, .done o⟩ →
            ∃ o', pool'.tasks[i]? = some ⟨.call b u, .done o'⟩) := by
  intro p
  have bounds : BridgesBound p := (kept_after host cs).rest.bounds
  obtain ⟨o, q, links⟩ := exists_links p b
  have withT := finishes_of_links bounds links t
  have withU := finishes_of_links bounds links u
  refine ⟨⟨o, q, links, withT, withU⟩, withU.quiet.trans withT.quiet.symm, fun zero => ?_,
    fun goals pool steps task ht r argument calls => ?_, fun goals i hi pool steps => ?_⟩
  · obtain ⟨before, after, zero, first⟩ := List.eq_append_cons_of_mem zero
    have refused := Argument.ofText_of_zero zero first
    refine ⟨(Utf8.encode before).length, fun r q links => ?_⟩
    have ends := (finishes_of_links bounds links t).refused refused
    exact ⟨ends, fun f => (invoke_of_refused refused q _).trans ends.symm⟩
  · have copied := Pool.copied_of_steps steps ht calls
    exact ⟨Task.not_zero_of_copied copied, copied⟩
  · obtain ⟨pool', steps', apart⟩ := (Pool.textApart_start p hi u).steps steps
    by_cases ended : ∃ o, pool.tasks[i]? = some ⟨.call b t, .done o⟩
    · obtain ⟨o, ended⟩ := ended
      obtain ⟨pool'', o', behind, apart', ends⟩ := apart.ends ended
      exact ⟨pool'', steps'.trans behind, apart', fun _ _ => ⟨o', ends⟩⟩
    · exact ⟨pool', steps', apart, fun o h => absurd ⟨o, h⟩ ended⟩

end Session
end Linkage
