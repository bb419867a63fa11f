import Linkage.Proofs.Bridge.Status
import Linkage.Proofs.Session.Reach
import Linkage.Proofs.Text.Argument

/-!
# A call by its stages

A call loads, binds, copies the text and calls the function, and the first of these that
fails is its answer.  `Loads`, `Binds`, `Answers` say how each stage ends and what it
leaves behind, each by the cell it reads first and the source or library it asks, and
`Calls` puts them one behind the other: a stage stands there only behind those before it
that have succeeded, and the process behind a failure is what the failing stage left.

The call itself goes another way.  It reads the bound function first, and only where
there is none the handle.  That both ways are the same is not a matter of the call but of
the process: a bridge with a bound function has a loader with its handle
(`BridgesBound`), which holds in every session that is reached.
-/

namespace Linkage

/-- What a call of a function that is bound for a name comes to. -/
def Function.outcome (f : Function) (name text : String) : Outcome Int64 :=
  match Argument.ofText text with
  | .error offset => .error (.marshal offset)
  | .ok argument =>
    match CallStatus.ofAnswer? (f.invoke argument.buffer) with
    | some status => .error (.invocation name status)
    | none => .ok (f.invoke argument.buffer)

namespace Process

/-- How the loading of a library ends. -/
inductive Loads (p : Process) (l : LoaderId) : Outcome Handle → Process → Prop where
  | cached {h : Handle} (handle : (p.loader l).handle = some h) : Loads p l (.ok h) p
  | panics {q : Process} (handle : (p.loader l).handle = none)
      (attempt : Attempt (p.setState l .loading) l .panic q) : Loads p l .panic q
  | fails {e : BridgeError} {q : Process} (handle : (p.loader l).handle = none)
      (attempt : Attempt (p.setState l .loading) l (.error e) q) :
      Loads p l (.error e) ((q.setState l .failed).note (.loadFailed (p.loader l).library e))
  | loads {a : Load} {q : Process} (handle : (p.loader l).handle = none)
      (attempt : Attempt (p.setState l .loading) l (.ok a) q) :
      Loads p l (.ok a.handle) (((q.storeHandle l a.handle).setState l .loaded).note
        (.loaded (p.loader l).library (q.pathOf a.handle)))

/-- How the binding of a name ends, in the library with a handle. -/
inductive Binds (p : Process) (b : BridgeId) (h : Handle) :
    Outcome SymbolReference → Process → Prop where
  | cached {r : SymbolReference} (bound : (p.bridge b).bound = some r) : Binds p b h (.ok r) p
  | panics {q : Process} (bound : (p.bridge b).bound = none)
      (resolved : p.resolve h (p.bridge b).symbol .callable = (.panic, q)) : Binds p b h .panic q
  | fails {e : BridgeError} {q : Process} (bound : (p.bridge b).bound = none)
      (resolved : p.resolve h (p.bridge b).symbol .callable = (.error e, q)) :
      Binds p b h (.error e) (q.note (.bindingFailed (p.bridge b).symbol e))
  | binds {r : SymbolReference} {q : Process} (bound : (p.bridge b).bound = none)
      (resolved : p.resolve h (p.bridge b).symbol .callable = (.ok r, q)) :
      Binds p b h (.ok r) ((q.note (.bound (p.bridge b).symbol .callable)).storeSymbol b r)

/-- How a function bound for a symbol answers to a text. -/
inductive Answers (p : Process) (symbol : String) (f : Function) (text : String) :
    Outcome Int64 → Process → Prop where
  | refused {before after : List Char} (zero : text.toList = before ++ '\x00' :: after)
      (first : '\x00' ∉ before) :
      Answers p symbol f text (.error (.marshal (Utf8.encode before).length)) p
  | fails {raw : Int64} {status : CallStatus} (copied : '\x00' ∉ text.toList)
      (called : f.invoke (Utf8.encode text.toList ++ [0]) = raw) (negative : raw < 0)
      (classified : CallStatus.ofAnswer? raw = some status) :
      Answers p symbol f text (.error (.invocation symbol status))
        (p.note (.callFailed symbol status))
  | answers {raw : Int64} (copied : '\x00' ∉ text.toList)
      (called : f.invoke (Utf8.encode text.toList ++ [0]) = raw) (length : 0 ≤ raw) :
      Answers p symbol f text (.ok raw) (p.note (.called symbol text.utf8ByteSize raw))

/-- How a call ends: the first stage that fails is the answer. -/
inductive Calls (p : Process) (b : BridgeId) (text : String) : Outcome Int64 → Process → Prop where
  | loadPanics {q : Process} (load : Loads p (p.bridge b).loader .panic q) : Calls p b text .panic q
  | notLoaded {e : BridgeError} {q : Process} (load : Loads p (p.bridge b).loader (.error e) q) :
      Calls p b text (.error e) q
  | bindPanics {h : Handle} {q r : Process} (load : Loads p (p.bridge b).loader (.ok h) q)
      (bind : Binds q b h .panic r) : Calls p b text .panic r
  | notBound {h : Handle} {e : BridgeError} {q r : Process}
      (load : Loads p (p.bridge b).loader (.ok h) q) (bind : Binds q b h (.error e) r) :
      Calls p b text (.error e) r
  | called {h : Handle} {f : SymbolReference} {o : Outcome Int64} {q r s : Process}
      (load : Loads p (p.bridge b).loader (.ok h) q) (bind : Binds q b h (.ok f) r)
      (answer : Answers r (p.bridge b).symbol f.function text o s) : Calls p b text o s

/-! ## Each stage -/

variable {p q : Process} {l : LoaderId} {b : BridgeId} {h : Handle} {text : String}

theorem loaders_attempt {o : Outcome Load} (attempt : Attempt p l o q) (k : LoaderId) :
    q.loader k = p.loader k := by
  have leaves := (load_leaves p l).1
  rw [attempt.eq_load] at leaves
  rw [loader, leaves, loader]

/-- A loader that had no handle gets that of the attempt. -/
theorem finishLoaded_of_none {a : Load} (none : (p.loader l).handle = none) :
    p.finishLoaded l a = (.ok a.handle, ((p.storeHandle l a.handle).setState l .loaded).note
      (.loaded (p.loader l).library (p.pathOf a.handle))) := by
  have handle : ((p.storeHandle l a.handle).loader l).handle.getD a.handle = a.handle := by
    rw [handle_storeHandle, none]
    split <;> rfl
  simp only [finishLoaded, handle, library_storeHandle]
  rfl

theorem Loads.eq_ensureLoaded {o : Outcome Handle} (loads : Loads p l o q) :
    p.ensureLoaded l = (o, q) := by
  cases loads with
  | cached handle => exact ensureLoaded_of_handle handle
  | panics handle attempt => simp only [ensureLoaded, handle, attempt.eq_load]
  | fails handle attempt =>
    have loader := loaders_attempt attempt l
    simp only [ensureLoaded, handle, attempt.eq_load, finishFailed, loader, library_setState]
  | loads handle attempt =>
    have loader := loaders_attempt attempt l
    have none := (congrArg Loader.handle loader).trans ((handle_setState ..).trans handle)
    simp only [ensureLoaded, handle, attempt.eq_load, finishLoaded_of_none none, loader,
      library_setState]

theorem loads_ensureLoaded (p : Process) (l : LoaderId) :
    Loads p l (p.ensureLoaded l).1 (p.ensureLoaded l).2 := by
  rcases handle : (p.loader l).handle with _ | h
  · have attempt := attempt_load (p.setState l .loading) l
    rcases load : (p.setState l .loading).load l with ⟨o, q⟩
    rw [load] at attempt
    have loads : ∃ o' q', Loads p l o' q' := by
      cases o with
      | panic => exact ⟨_, _, .panics handle attempt⟩
      | error e => exact ⟨_, _, .fails handle attempt⟩
      | ok a => exact ⟨_, _, .loads handle attempt⟩
    obtain ⟨o', q', loads⟩ := loads
    rwa [loads.eq_ensureLoaded]
  · rw [ensureLoaded_of_handle handle]
    exact .cached handle

/-- A bridge that had bound nothing has bound what is stored. -/
theorem bound_getD_storeSymbol {r : SymbolReference} (none : (p.bridge b).bound = none) :
    ((p.storeSymbol b r).bridge b).bound.getD r = r := by
  rw [bound_storeSymbol, none]
  split <;> rfl

/-- Behind a load, a bridge that had bound nothing goes on to the binding. -/
theorem resolved_of_binds {o : Outcome SymbolReference} {r : Process}
    (none : (p.bridge b).bound = none) (load : p.ensureLoaded (p.bridge b).loader = (.ok h, q))
    (binds : Binds q b h o r) : p.resolved b = (o, r) := by
  have bridges := bridges_ensureLoaded p (p.bridge b).loader
  rw [load] at bridges
  have still : (q.bridge b).bound = .none := by rw [bridge, bridges, ← bridge, none]
  cases binds with
  | cached bound => exact absurd (bound.symm.trans still) (by simp)
  | panics _ resolved => simp only [Process.resolved, none, load, bind, resolved]
  | @fails e s _ resolved =>
    have heard := heard_resolve q h (q.bridge b).symbol .callable
    rw [resolved] at heard
    have same : s.bridge b = q.bridge b := heard.bridge b
    simp only [Process.resolved, none, load, bind, resolved, same]
  | @binds f s _ resolved =>
    have heard := heard_resolve q h (q.bridge b).symbol .callable
    rw [resolved] at heard
    obtain ⟨-, name, signature, -⟩ := resolve_ok resolved
    have unbound : ((s.note (.bound (q.bridge b).symbol .callable)).bridge b).bound = .none := by
      rw [(heard_note ..).bridge, heard.bridge, still]
    simp only [Process.resolved, none, load, bind, resolved, name, signature]
    rw [bound_getD_storeSymbol unbound]

theorem exists_binds (p : Process) (b : BridgeId) (h : Handle) : ∃ o q, Binds p b h o q := by
  rcases bound : (p.bridge b).bound with _ | r
  · rcases resolved : p.resolve h (p.bridge b).symbol .callable with ⟨_ | _ | _, q⟩
    · exact ⟨_, _, .binds bound resolved⟩
    · exact ⟨_, _, .fails bound resolved⟩
    · exact ⟨_, _, .panics bound resolved⟩
  · exact ⟨_, _, .cached bound⟩

/-- What a bound function answers depends on the function, its name and the text. -/
theorem outcome_invoke (p : Process) (r : SymbolReference) (text : String) :
    (p.invoke r text).1 = r.function.outcome r.name text := by
  rw [invoke, Function.outcome]
  cases Argument.ofText text with
  | error offset => rfl
  | ok argument =>
    dsimp only [classify]
    cases CallStatus.ofAnswer? (r.function.invoke argument.buffer) <;> rfl

/-- The answer of a function to a text does not depend on the handle it came with. -/
theorem Answers.eq_invoke {r : SymbolReference} {o : Outcome Int64}
    (answers : Answers p r.name r.function text o q) : p.invoke r text = (o, q) := by
  cases answers with
  | refused zero first => rw [invoke, Argument.ofText_of_zero zero first]
  | fails copied called negative classified =>
    obtain ⟨argument, copy, bytes⟩ := Argument.ofText_of_no_zero copied
    simp only [invoke, copy, Argument.buffer, bytes, called, classify, classified]
  | answers copied called length =>
    obtain ⟨argument, copy, bytes⟩ := Argument.ofText_of_no_zero copied
    have classified := CallStatus.ofAnswer?_eq_none.mpr length
    simp only [invoke, copy, Argument.buffer, bytes, called, classify, classified]

theorem exists_answers (p : Process) (symbol : String) (f : Function) (text : String) :
    ∃ o q, Answers p symbol f text o q := by
  rcases Argument.zero_cases text with copied | ⟨before, after, zero, first⟩
  · rcases status : CallStatus.ofAnswer? (f.invoke (Utf8.encode text.toList ++ [0])) with _ | status
    · exact ⟨_, _, .answers copied rfl (CallStatus.ofAnswer?_eq_none.mp status)⟩
    · refine ⟨_, _, .fails copied rfl (CallStatus.negative_of_ofAnswer? status) status⟩
  · exact ⟨_, _, .refused zero first⟩

/-! ## All stages -/

/-- The function that is bound has the name that its bridge binds. -/
theorem Binds.name {r : SymbolReference} (bounds : BridgesBound p) (binds : Binds p b h (.ok r) q) :
    r.name = (p.bridge b).symbol := by
  cases binds with
  | cached bound => exact (bounds b r bound).name
  | binds _ resolved => exact (resolve_ok resolved).2.1

/-- The stages of a bridge with a bound function: nothing is loaded and nothing is bound. -/
theorem Calls.eq_call_of_bound {r : SymbolReference} {o : Outcome Int64} (bounds : BridgesBound p)
    (bound : (p.bridge b).bound = some r) (calls : Calls p b text o q) :
    p.call b text = (o, q) := by
  have loaded := ensureLoaded_of_handle (bounds b r bound).handle
  have resolved : p.resolved b = (.ok r, p) := by simp only [Process.resolved, bound]
  have again : ∀ {h o q}, Binds p b h o q → o = .ok r ∧ q = p := by
    intro h o q binds
    cases binds with
    | cached bound' => exact ⟨congrArg _ (Option.some.inj (bound'.symm.trans bound)), rfl⟩
    | panics none | fails none | binds none => exact absurd (bound.symm.trans none) (by simp)
  rw [Process.call, resolved]
  cases calls with
  | loadPanics load | notLoaded load =>
    exact absurd (loaded.symm.trans load.eq_ensureLoaded) (by simp)
  | bindPanics load bind | notBound load bind =>
    obtain ⟨-, rfl⟩ := Prod.mk.inj (loaded.symm.trans load.eq_ensureLoaded)
    exact absurd (again bind).1 (by simp)
  | called load bind answer =>
    obtain ⟨-, rfl⟩ := Prod.mk.inj (loaded.symm.trans load.eq_ensureLoaded)
    obtain ⟨ok, rfl⟩ := again bind
    obtain rfl := Outcome.ok.inj ok
    rw [← bind.name bounds] at answer
    exact answer.eq_invoke

/-- **A call ends as its stages do**, wherever a bridge with a bound function has a loader
with its handle. -/
theorem Calls.eq_call {o : Outcome Int64} (bounds : BridgesBound p) (calls : Calls p b text o q) :
    p.call b text = (o, q) := by
  rcases none : (p.bridge b).bound with _ | r
  swap
  · exact calls.eq_call_of_bound bounds none
  have loads := stays_ensureLoaded p (p.bridge b).loader
  have bridges := bridges_ensureLoaded p (p.bridge b).loader
  cases calls with
  | loadPanics load | notLoaded load =>
    simp only [Process.call, Process.resolved, none, load.eq_ensureLoaded]
  | bindPanics load bind | notBound load bind =>
    rw [Process.call, resolved_of_binds none load.eq_ensureLoaded bind]
  | called load bind answer =>
    rw [load.eq_ensureLoaded] at loads bridges
    have name := bind.name (bounds.of_eq loads.toGrows bridges)
    rw [loads.symbol_eq] at name
    rw [← name] at answer
    rw [Process.call, resolved_of_binds none load.eq_ensureLoaded bind]
    exact answer.eq_invoke

/-- A call has an end. -/
theorem exists_calls (p : Process) (b : BridgeId) (text : String) :
    ∃ o q, Calls p b text o q := by
  have load := loads_ensureLoaded p (p.bridge b).loader
  rcases loaded : p.ensureLoaded (p.bridge b).loader with ⟨o, q⟩
  rw [loaded] at load
  cases o with
  | panic => exact ⟨_, _, .loadPanics load⟩
  | error e => exact ⟨_, _, .notLoaded load⟩
  | ok h =>
    obtain ⟨o, r, binds⟩ := exists_binds q b h
    cases o with
    | panic => exact ⟨_, _, .bindPanics load binds⟩
    | error e => exact ⟨_, _, .notBound load binds⟩
    | ok f =>
      obtain ⟨o, s, answers⟩ := exists_answers r (p.bridge b).symbol f.function text
      exact ⟨_, _, .called load binds answers⟩

theorem call_iff_calls {o : Outcome Int64} (bounds : BridgesBound p) :
    p.call b text = (o, q) ↔ Calls p b text o q := by
  refine ⟨fun call => ?_, fun calls => calls.eq_call bounds⟩
  obtain ⟨o', q', calls⟩ := exists_calls p b text
  obtain ⟨rfl, rfl⟩ := Prod.mk.inj ((calls.eq_call bounds).symm.trans call)
  exact calls

/-! ## What the stages leave behind -/

theorem Binds.stays {o : Outcome SymbolReference} (binds : Binds p b h o q) : Stays p q := by
  have heard := heard_resolve p h (p.bridge b).symbol .callable
  cases binds with
  | cached => exact .refl p
  | panics _ resolved =>
    rw [resolved] at heard
    exact heard.stays
  | fails _ resolved =>
    rw [resolved] at heard
    exact (heard.trans (heard_note ..)).stays
  | binds _ resolved =>
    rw [resolved] at heard
    exact (heard.trans (heard_note ..)).stays.trans (stays_storeSymbol ..)

theorem Answers.heard {symbol text : String} {f : Function} {o : Outcome Int64}
    (answers : Answers p symbol f text o q) : Heard p q := by
  cases answers with
  | refused => exact .refl p
  | fails | answers => exact heard_note ..

/-- A call goes on from where its request for the handle has come to. -/
theorem stays_call_of_load (bounds : BridgesBound p) (b : BridgeId) (text : String) :
    Stays (p.ensureLoaded (p.bridge b).loader).2 (p.call b text).2 := by
  have calls : Calls p b text (p.call b text).1 (p.call b text).2 := (call_iff_calls bounds).mp rfl
  generalize (p.call b text).1 = o, (p.call b text).2 = q at calls ⊢
  cases calls with
  | loadPanics load | notLoaded load => rw [load.eq_ensureLoaded]; exact .refl _
  | bindPanics load bind | notBound load bind => rw [load.eq_ensureLoaded]; exact bind.stays
  | called load bind answer =>
    rw [load.eq_ensureLoaded]
    exact bind.stays.trans answer.heard.stays

end Process

namespace Session

/-- **A call answers with the first of its stages that fails**, in every session that is
reached, and the status of a failed call tells the number that the function answered. -/
theorem call_ends_by_stages (host : Host) (cs : List Command) (b : BridgeId) (text : String) :
    (∀ o q, ((start host).after cs).process.call b text = (o, q) ↔
      ((start host).after cs).process.Calls b text o q) ∧
    (∀ raw raw' status, CallStatus.ofAnswer? raw = some status →
      CallStatus.ofAnswer? raw' = some status → raw = raw') ∧
    (∀ raw code, CallStatus.ofAnswer? raw = some (.unknown code) →
      code = raw ∧ code ∉ [(-1 : Int64), -2, -3]) ∧
    ∀ raw, (∃ status, CallStatus.ofAnswer? raw = some status) ↔ raw < 0 := by
  refine ⟨fun o q => ?_, fun raw raw' status h h' => ?_, fun raw code h => ?_, fun raw => ?_⟩
  · exact Process.call_iff_calls (kept_after host cs).rest.bounds
  · rw [← CallStatus.code_of_ofAnswer? h, CallStatus.code_of_ofAnswer? h']
  · obtain ⟨rfl, null, encoding, panicked⟩ := CallStatus.eq_of_unknown h
    refine ⟨rfl, fun known => ?_⟩
    rcases List.mem_cons.mp known with rfl | known
    · exact null rfl
    · rcases List.mem_cons.mp known with rfl | known
      · exact encoding rfl
      · exact panicked (List.mem_singleton.mp known)
  · refine ⟨fun ⟨status, h⟩ => CallStatus.negative_of_ofAnswer? h, fun negative => ?_⟩
    rw [← Option.isSome_iff_exists, ← Option.ne_none_iff_isSome]
    exact fun none => Int64.not_le.mpr negative (CallStatus.ofAnswer?_eq_none.mp none)

end Session
end Linkage
