import Linkage.Proofs.Bridge.Notices
import Linkage.Proofs.Session.Commands
import Linkage.Proofs.Session.Standing

/-!
# Turns

Commands given one after the other make *turns*: each asks one loader for its handle or makes one
call through a bridge (`turns`).  A turn is an act in the process that it finds, and its command
does what the act does (`step_of_turn`).  It makes one attempt to load, or none, and one binding,
or none; what fails in them is what comes of the turn.

A loader has its handle from the one attempt that has succeeded, and a bridge its function from
the one binding (`handle_perform`, `bound_perform`).  The attempts on a loader are those of the
turns on it (`allAttempts_eq`).
-/

namespace Linkage

open Process

/-! ## One act -/

namespace Process

variable {p q : Process} {x : Act} {ev : History}

/-- An attempt that succeeds gives its loader the handle that it lacked. -/
theorem handle_ensureLoaded {l : LoaderId} (hl : l < p.loaders.length) :
    ((p.ensureLoaded l).2.loader l).handle.toList.length =
      (p.loader l).handle.toList.length + (p.attemptsOf l l).countP Outcome.isOk := by
  rcases handle : (p.loader l).handle with _ | h
  · have rests : ((p.ensureLoaded l).2.loader l).Rests ([] ++ [(p.ensureLoaded l).1]) :=
      rests_attempt handle hl
    rw [rests.handle, Attempts.yielded_concat, attemptsOf, if_pos ⟨rfl, handle⟩]
    cases (p.ensureLoaded l).1 <;> rfl
  · rw [ensureLoaded_of_handle handle, attemptsOf, if_neg (by simp [handle]), handle]
    rfl

/-- An act gives its loader a handle as its attempt comes out, and no other loader. -/
theorem handle_perform (rest : Rest p ev) (valid : x.Valid p) (l : LoaderId) :
    ((p.perform x).2.loader l).handle.toList.length = (p.loader l).handle.toList.length +
      if x.loader p = l then (p.actAttempts x).countP Outcome.isOk else 0 := by
  by_cases own : x.loader p = l
  · subst own
    rw [if_pos rfl]
    cases x with
    | load l =>
      rw [perform, andThen_ok]
      exact handle_ensureLoaded valid
    | bind l name declared =>
      have behind : ∀ k, (p.perform (.bind l name declared)).2.loader k =
          (p.ensureLoaded l).2.loader k := by
        intro k
        rw [perform]
        rcases p.ensureLoaded l with ⟨h | e | _, q⟩
        · rw [andThen, andThen_ok]
          exact (heard_resolve q h name declared).loader k
        · rfl
        · rfl
      rw [behind]
      exact handle_ensureLoaded valid
    | call b text =>
      rw [perform, andThen_ok, loader_call, actAttempts, callAttempts]
      cases (p.bridge b).bound with
      | some r => rfl
      | none => exact handle_ensureLoaded (rest.owners b valid)
  · have other := (frame_perform p x).1 l (Ne.symm own)
    rw [if_neg own, Nat.add_zero, loader, loader, List.getD_eq_getElem?_getD, other,
      ← List.getD_eq_getElem?_getD]

/-- The bindings that an act on a bridge makes, if it makes one. -/
def actBindings (p : Process) : Act → List (Outcome SymbolReference)
  | .call b _ => p.callBindings b
  | _ => []

/-- A call gives its bridge a bound function as its binding comes out. -/
theorem bound_call {b : BridgeId} (hb : b < p.bridges.length) (text : String) :
    ((p.call b text).2.bridge b).bound.toList.length =
      (p.bridge b).bound.toList.length + (p.callBindings b).countP Outcome.isOk := by
  have called : (p.call b text).2.bridge b = (p.resolved b).2.bridge b := by
    rw [call_eq_andThen]
    rcases p.resolved b with ⟨r | e | _, q⟩
    · exact (heard_invoke q r text).bridge b
    · rfl
    · rfl
  rw [called, resolved_eq, callBindings]
  cases bound : (p.bridge b).bound with
  | some r =>
    -- the bridge calls the function it has, and no binding is made
    dsimp only
    rw [bound]
    rfl
  | none =>
    have bridges := bridges_ensureLoaded p (p.bridge b).loader
    rcases load : p.ensureLoaded (p.bridge b).loader with ⟨h | e | _, q⟩ <;> rw [load] at bridges
    -- loading does not touch the bridge, so only the binding can fill its cell
    all_goals have still : (q.bridge b).bound = none := by rw [bridge, bridges, ← bridge, bound]
    · have heard := heard_bind q b h
      dsimp only [andThen]
      rcases bind : q.bind b h with ⟨r | e | _, q'⟩ <;> rw [bind] at heard
      · have there : b < q'.bridges.length := by
          rw [heard.bridges, bridges]
          exact hb
        dsimp only
        rw [bound_storeSymbol, if_pos ⟨rfl, there⟩, heard.bridge, still]
        rfl
      all_goals
        dsimp only
        rw [heard.bridge, still]
        rfl
    all_goals
      dsimp only [andThen]
      rw [still]
      rfl

theorem bound_perform (valid : x.Valid p) (b : BridgeId) :
    ((p.perform x).2.bridge b).bound.toList.length = (p.bridge b).bound.toList.length +
      if x.bridge? = some b then (p.actBindings x).countP Outcome.isOk else 0 := by
  by_cases own : x.bridge? = some b
  · rw [if_pos own]
    cases x with
    | load | bind => exact absurd own (by simp [Act.bridge?])
    | call c text =>
      obtain rfl : c = b := Option.some.inj own
      rw [perform, andThen_ok]
      exact bound_call valid text
  · have other := (frame_perform p x).2 b own
    rw [if_neg own, Nat.add_zero, bridge, bridge, List.getD_eq_getElem?_getD, other,
      ← List.getD_eq_getElem?_getD]

end Process

namespace Session

/-! ## Turns -/

/-- An act on a loader or a bridge, in the process in which it is done. -/
structure Turn where
  before : Process
  act : Act

namespace Turn

/-- The process behind it. -/
def after (t : Turn) : Process := (t.before.perform t.act).2

/-- What comes of it. -/
def outcome (t : Turn) : Outcome Given := (t.before.perform t.act).1

/-- The loader that it uses. -/
def loader (t : Turn) : LoaderId := t.act.loader t.before

/-- The bridge that it uses, if it uses one. -/
def bridge? (t : Turn) : Option BridgeId := t.act.bridge?

/-- The attempts to load that it makes, if it makes one. -/
def attempts (t : Turn) : Attempts := t.before.actAttempts t.act

/-- The bindings that it makes, if it makes one. -/
def bindings (t : Turn) : List (Outcome SymbolReference) := t.before.actBindings t.act

/-- It succeeds in an attempt to load without opening a library.  A source that is asked to open
one adds it to the process, or fails the attempt. -/
def reuses (t : Turn) : Bool :=
  t.attempts.any Outcome.isOk && t.after.libraries.length == t.before.libraries.length

variable {t : Turn} {b : BridgeId}

/-- A turn on a bridge is a call. -/
theorem exists_call (through : t.bridge? = some b) : ∃ text, t.act = .call b text := by
  obtain ⟨p, x⟩ := t
  cases x with
  | load | bind => exact absurd through (by simp [bridge?, Act.bridge?])
  | call c text =>
    obtain rfl : c = b := Option.some.inj through
    exact ⟨text, rfl⟩

/-- A failure to load is what comes of the turn. -/
theorem outcome_of_attempt {e : BridgeError} (failed : .error e ∈ t.attempts) :
    t.outcome = .error e := by
  obtain ⟨p, x⟩ := t
  show (p.perform x).1 = .error e
  cases x with
  | load l | bind l name declared =>
    exact andThen_of_error (ensureLoaded_of_mem_attemptsOf failed)
  | call b text => exact andThen_of_error (call_of_attempt failed text)

/-- A failure to bind is what comes of the turn. -/
theorem outcome_of_binding {e : BridgeError} (failed : .error e ∈ t.bindings) :
    t.outcome = .error e := by
  obtain ⟨p, x⟩ := t
  show (p.perform x).1 = .error e
  cases x with
  | load | bind => exact absurd failed List.not_mem_nil
  | call b text => exact andThen_of_error (call_of_binding failed text)

/-- A turn makes one binding or none. -/
theorem countP_bindings (P : Outcome SymbolReference → Bool) :
    t.bindings.countP P = if t.bindings.any P then 1 else 0 := by
  have one : t.bindings = [] ∨ ∃ o, t.bindings = [o] := by
    obtain ⟨p, x⟩ := t
    cases x with
    | load | bind => exact Or.inl rfl
    | call b text =>
      show p.callBindings b = [] ∨ ∃ o, p.callBindings b = [o]
      unfold callBindings
      split
      · exact Or.inl rfl
      · split
        · exact Or.inr ⟨_, rfl⟩
        · exact Or.inl rfl
  rcases one with none | ⟨o, one⟩
  · simp [none]
  · simp [one]

end Turn

/-- The act on a loader or a bridge that a command comes to, if it comes to one. -/
def turn? (s : Session) : Command → Option Turn
  | .load loader _ => (s.loaders.get? loader).map fun l => ⟨s.process, .load l⟩
  | .loadBridge bridge _ =>
    (s.bridges.get? bridge).map fun b => ⟨s.process, .load (s.process.bridge b).loader⟩
  | .call bridge text => (s.bridges.get? bridge).map fun b => ⟨s.process, .call b text⟩
  | _ => none

/-- The turns that a list of commands makes. -/
def turns (s : Session) : List Command → List Turn
  | [] => []
  | c :: cs => (s.turn? c).toList ++ (s.step c).2.turns cs

/-- The commands come one after the other: none makes calls from several threads at once. -/
def Sequential (cs : List Command) : Prop :=
  ∀ bridge text threads, .callMany bridge text threads ∉ cs

/-! ## Commands that make turns -/

variable {s : Session} {c : Command} {cs : List Command} {t : Turn} {ev : History}

/-- **A command that makes a turn does what the turn does.** -/
theorem step_of_turn (turn : s.turn? c = some t) :
    t.before = s.process ∧ (s.step c).2.process = t.after := by
  cases c with
  | load loader keep =>
    obtain ⟨l, get, rfl⟩ := Option.map_eq_some_iff.mp turn
    refine ⟨rfl, ?_⟩
    rw [Turn.after, perform, andThen_ok, step, withNamed, get]
    exact process_conclude (fun _ _ => by cases keep <;> rfl) _
  | loadBridge bridge keep =>
    obtain ⟨b, get, rfl⟩ := Option.map_eq_some_iff.mp turn
    refine ⟨rfl, ?_⟩
    rw [Turn.after, perform, andThen_ok, step, withNamed, get]
    exact process_conclude (fun _ _ => by cases keep <;> rfl) _
  | call bridge text =>
    obtain ⟨b, get, rfl⟩ := Option.map_eq_some_iff.mp turn
    refine ⟨rfl, ?_⟩
    rw [Turn.after, perform, andThen_ok, step, withNamed, get]
    exact process_conclude (fun _ _ => rfl) _
  | _ => exact absurd turn (by simp [turn?])

theorem valid_of_turn (kept : Kept s ev) (turn : s.turn? c = some t) : t.act.Valid t.before := by
  cases c with
  | load loader keep =>
    obtain ⟨l, get, rfl⟩ := Option.map_eq_some_iff.mp turn
    exact kept.loaders _ (Named.mem_of_get? get)
  | loadBridge bridge keep =>
    obtain ⟨b, get, rfl⟩ := Option.map_eq_some_iff.mp turn
    exact kept.rest.owners b (kept.bridges _ (Named.mem_of_get? get))
  | call bridge text =>
    obtain ⟨b, get, rfl⟩ := Option.map_eq_some_iff.mp turn
    exact kept.bridges _ (Named.mem_of_get? get)
  | _ => exact absurd turn (by simp [turn?])

/-! ## Whole runs -/

theorem Sequential.head (h : Sequential (c :: cs)) :
    ∀ bridge text threads, c ≠ .callMany bridge text threads :=
  fun bridge text threads same => h bridge text threads (same ▸ List.mem_cons_self)

theorem Sequential.tail (h : Sequential (c :: cs)) : Sequential cs :=
  fun bridge text threads mem => h bridge text threads (List.mem_cons_of_mem c mem)

/-- Where a turn is made. -/
theorem exists_of_mem_turns (mem : t ∈ s.turns cs) :
    ∃ before c after, cs = before ++ c :: after ∧ (s.after before).turn? c = some t := by
  induction cs generalizing s with
  | nil => exact absurd mem List.not_mem_nil
  | cons c cs ih =>
    rcases List.mem_append.mp mem with here | later
    · exact ⟨[], c, cs, rfl, Option.mem_toList.mp here⟩
    · obtain ⟨before, d, after, rfl, made⟩ := ih later
      exact ⟨c :: before, d, after, rfl, made⟩

/-- The turns on a loader. -/
def onLoader (l : LoaderId) (turns : List Turn) : List Turn := turns.filter (·.loader = l)

/-- The turns through a bridge. -/
def through (b : BridgeId) (turns : List Turn) : List Turn := turns.filter (·.bridge? = some b)

/-- An attempt is made on the loader of its turn. -/
theorem flatMap_onLoader (l : LoaderId) (t : Turn) : (onLoader l [t]).flatMap Turn.attempts =
    if t.loader = l then t.attempts else [] := by
  by_cases own : t.loader = l <;> simp [onLoader, own]

/-- The attempts that a command makes on a loader are those of its turn, if it is on the loader. -/
theorem attempts_of_turn (sequential : ∀ bridge text threads, c ≠ .callMany bridge text threads)
    (l : LoaderId) :
    s.attempts l c = (onLoader l (s.turn? c).toList).flatMap Turn.attempts := by
  have loads : ∀ p k, attemptsOf p k l = if k = l then attemptsOf p k k else [] := by
    intro p k
    by_cases own : k = l
    · rw [if_pos own, own]
    · rw [if_neg own, attemptsOf, if_neg fun made => own made.1]
  have calls : ∀ p b, callAttempts p b l =
      if (p.bridge b).loader = l then callAttempts p b (p.bridge b).loader else [] := by
    intro p b
    rw [callAttempts, callAttempts]
    cases (p.bridge b).bound with
    | some r => simp
    | none => exact loads p (p.bridge b).loader
  cases c with
  | load loader keep =>
    rw [attempts, turn?]
    cases s.loaders.get? loader with
    | none => rfl
    | some k => exact (loads s.process k).trans (flatMap_onLoader l ⟨s.process, .load k⟩).symm
  | loadBridge bridge keep =>
    rw [attempts, turn?]
    cases s.bridges.get? bridge with
    | none => rfl
    | some b => exact (loads s.process _).trans (flatMap_onLoader l ⟨s.process, .load _⟩).symm
  | call bridge text =>
    rw [attempts, turn?]
    cases s.bridges.get? bridge with
    | none => rfl
    | some b => exact (calls s.process b).trans (flatMap_onLoader l ⟨s.process, .call b text⟩).symm
  | callMany bridge text threads => exact absurd rfl (sequential bridge text threads)
  | _ => rfl

theorem allAttempts_eq (sequential : Sequential cs) (l : LoaderId) :
    s.allAttempts l cs = (onLoader l (s.turns cs)).flatMap Turn.attempts := by
  induction cs generalizing s with
  | nil => rfl
  | cons c cs ih =>
    rw [allAttempts, turns, onLoader, List.filter_append, List.flatMap_append, ih sequential.tail,
      attempts_of_turn sequential.head]
    rfl

end Session
end Linkage
