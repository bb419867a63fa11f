import Linkage.Proofs.Loading.Notices
import Linkage.Proofs.Session.Acts

/-!
# What binding and calling tell

Each stage of a call tells how it has ended, and this is all that is told but for what single
steps tell on the way.  `bindNotices` and `answerNotices` are what binding and the bound function
tell, each read off the result of its stage, and `callNotices` puts them behind what loading
tells.  A stage that has been through once is left out from then on, and so are its notices; a
stage that panics tells of nothing.

The stages tell in words of their own, so each notice of a call is counted in one stage
(`said_callNotices`).  What is told of the function is read off the answer of the call as well
(`said_call`).  A length is told, and a status is, unless it is the failure of a load.
-/

namespace Linkage
namespace Process

variable {p q : Process} {l : LoaderId} {b : BridgeId} {h : Handle} {text : String}

/-! ## Binding -/

/-- What binding the name of a bridge tells. -/
def bindNotices (p : Process) (b : BridgeId) (h : Handle) : List Notice :=
  p.descriptorNotices h (p.bridge b).symbol .callable ++
    match (p.bind b h).1 with
    | .ok r => [.bound r.name r.signature]
    | .error e => [.bindingFailed (p.bridge b).symbol e]
    | .panic => []

theorem tells_bind (p : Process) (b : BridgeId) (h : Handle) :
    Tells p (p.bind b h).2 (p.bindNotices b h) := by
  have resolved := tells_resolve p h (p.bridge b).symbol .callable
  have heard := heard_resolve p h (p.bridge b).symbol .callable
  unfold bindNotices bind
  rcases resolve : p.resolve h (p.bridge b).symbol .callable with ⟨r | e | _, q⟩ <;>
    rw [resolve] at resolved heard
  · exact resolved.trans (tells_note ..)
  · dsimp only
    rw [heard.bridge]
    exact resolved.trans (tells_note ..)
  · exact resolved.trans (.refl q)

/-! ## Calling -/

/-- What a bound function's answer to a text tells. -/
def answerNotices (r : SymbolReference) (text : String) : List Notice :=
  match r.function.outcome r.name text with
  | .ok n => [.called r.name text.utf8ByteSize n]
  | .error (.invocation symbol status) => [.callFailed symbol status]
  | _ => []

theorem tells_invoke (p : Process) (r : SymbolReference) (text : String) :
    Tells p (p.invoke r text).2 (answerNotices r text) := by
  unfold invoke answerNotices Function.outcome
  cases Argument.ofText text with
  | error offset => exact .refl p
  | ok argument =>
    dsimp only [classify]
    cases CallStatus.ofAnswer? (r.function.invoke argument.buffer) with
    | none => exact tells_note ..
    | some status => exact tells_note ..

/-- What a bridge tells on the way to its bound function. -/
def resolvedNotices (p : Process) (b : BridgeId) : List Notice :=
  match (p.bridge b).bound with
  | some _ => []
  | none => p.loadNotices (p.bridge b).loader ++
      behind (p.ensureLoaded (p.bridge b).loader) fun h q => q.bindNotices b h

theorem tells_resolved (p : Process) (b : BridgeId) :
    Tells p (p.resolved b).2 (p.resolvedNotices b) := by
  rw [resolved_eq, resolvedNotices]
  cases (p.bridge b).bound with
  | some r => exact .refl p
  | none =>
    refine (tells_ensureLoaded ..).andThen fun h q _ => ?_
    have bound := tells_bind q b h
    rcases bind : q.bind b h with ⟨r | e | _, q'⟩ <;> rw [bind] at bound
    · exact bound.then_nothing (.of_journal rfl)
    · exact bound
    · exact bound

/-- What a call tells. -/
def callNotices (p : Process) (b : BridgeId) (text : String) : List Notice :=
  p.resolvedNotices b ++ behind (p.resolved b) fun r _ => answerNotices r text

/-- **A call tells what its stages tell.** -/
theorem tells_call (p : Process) (b : BridgeId) (text : String) :
    Tells p (p.call b text).2 (p.callNotices b text) := by
  rw [call_eq_andThen]
  exact (tells_resolved p b).andThen fun r q _ => tells_invoke q r text

/-- What an act tells. -/
def actNotices (p : Process) : Act → List Notice
  | .load l => p.loadNotices l
  | .bind l name declared => p.loadNotices l ++
      behind (p.ensureLoaded l) fun h q => q.descriptorNotices h name declared
  | .call b text => p.callNotices b text

theorem tells_perform (p : Process) (x : Act) : Tells p (p.perform x).2 (p.actNotices x) := by
  cases x with
  | load l =>
    rw [perform, andThen_ok]
    exact tells_ensureLoaded p l
  | bind l name declared =>
    refine (tells_ensureLoaded p l).andThen fun h q _ => ?_
    rw [andThen_ok]
    exact tells_resolve q h name declared
  | call b text =>
    rw [perform, andThen_ok]
    exact tells_call p b text

/-! ## How often -/

/-- The words in which a binding tells. -/
def bindWords : List String :=
  Notice.checkWords ++ ["native symbol bound", "symbol resolution failed"]

/-- The words in which a function that is called tells. -/
def answerWords : List String := ["native call", "native call failed"]

theorem within_bindNotices (p : Process) (b : BridgeId) (h : Handle) :
    Notice.Within bindWords (p.bindNotices b h) := by
  refine ((within_descriptorNotices p h (p.bridge b).symbol .callable).mono
    (List.subset_append_left ..)).append ?_
  split
  · exact .singleton (by simp [Notice.words])
  · exact .singleton (by simp [Notice.words])
  · exact .nil

theorem within_answerNotices (r : SymbolReference) (text : String) :
    Notice.Within answerWords (answerNotices r text) := by
  unfold answerNotices
  split
  · exact .singleton (by simp [Notice.words, answerWords])
  · exact .singleton (by simp [Notice.words, answerWords])
  · exact .nil

/-- The bindings that a call makes, if it makes one. -/
def callBindings (p : Process) (b : BridgeId) : List (Outcome SymbolReference) :=
  match (p.bridge b).bound with
  | some _ => []
  | none =>
    match p.ensureLoaded (p.bridge b).loader with
    | (.ok h, q) => [(q.bind b h).1]
    | _ => []

/-- The answers of functions that a call gets, if it comes to one. -/
def callAnswers (p : Process) (b : BridgeId) (text : String) : List (Outcome Int64) :=
  match (p.resolved b).1 with
  | .ok r => [r.function.outcome r.name text]
  | _ => []

theorem said_bindNotices (p : Process) (b : BridgeId) (h : Handle) :
    Notice.said "native symbol bound" (p.bindNotices b h) =
        [(p.bind b h).1].countP Outcome.isOk ∧
      Notice.said "symbol resolution failed" (p.bindNotices b h) =
        [(p.bind b h).1].countP Outcome.isError := by
  have checked := within_descriptorNotices p h (p.bridge b).symbol .callable
  unfold bindNotices
  rw [Notice.said_append, Notice.said_append, checked.said_eq_zero (by simp [Notice.checkWords]),
    checked.said_eq_zero (by simp [Notice.checkWords])]
  rcases p.bind b h with ⟨r | e | _, q⟩ <;> simp [Notice.words, Outcome.isOk, Outcome.isError]

theorem said_answerNotices (r : SymbolReference) (text : String) :
    Notice.said "native call" (answerNotices r text) =
        [r.function.outcome r.name text].countP Outcome.isOk ∧
      Notice.said "native call failed" (answerNotices r text) =
        [r.function.outcome r.name text].countP Outcome.isInvocation := by
  unfold answerNotices
  rcases r.function.outcome r.name text with n | e | _
  · simp [Notice.words, Outcome.isOk, Outcome.isInvocation]
  · cases e <;>
      simp [Notice.words, Outcome.isOk, Outcome.isInvocation, BridgeError.isInvocation]
  · simp [Outcome.isOk, Outcome.isInvocation]

/-- What a call tells of loading is what its request for the handle tells. -/
theorem said_callNotices_of_load {words : String} (unbound : words ∉ bindWords)
    (unanswered : words ∉ answerWords) (p : Process) (b : BridgeId) (text : String) :
    Notice.said words (p.callNotices b text) =
      match (p.bridge b).bound with
      | some _ => 0
      | none => Notice.said words (p.loadNotices (p.bridge b).loader) := by
  have answered : Notice.said words (behind (p.resolved b) fun r _ => answerNotices r text) = 0 :=
    (within_behind fun r _ => within_answerNotices r text).said_eq_zero unanswered
  rw [callNotices, Notice.said_append, answered, resolvedNotices]
  cases (p.bridge b).bound with
  | some r => rfl
  | none =>
    have bound : Notice.said words (behind (p.ensureLoaded (p.bridge b).loader)
        fun h q => q.bindNotices b h) = 0 :=
      (within_behind fun h q => within_bindNotices q b h).said_eq_zero unbound
    dsimp only
    rw [Notice.said_append, bound]
    rfl

theorem within_resolvedNotices (p : Process) (b : BridgeId) :
    Notice.Within (loadWords ++ bindWords) (p.resolvedNotices b) := by
  unfold resolvedNotices
  split
  · exact .nil
  · exact ((within_loadNotices p (p.bridge b).loader).mono (List.subset_append_left ..)).append
      (within_behind fun h q => (within_bindNotices q b h).mono (List.subset_append_right ..))

/-- What a call tells of binding is what the binding tells that it makes. -/
theorem said_callNotices_of_bind {words : String} (unloaded : words ∉ loadWords)
    (unanswered : words ∉ answerWords) (p : Process) (b : BridgeId) (text : String) :
    Notice.said words (p.callNotices b text) =
      match (p.bridge b).bound with
      | some _ => 0
      | none =>
        match p.ensureLoaded (p.bridge b).loader with
        | (.ok h, q) => Notice.said words (q.bindNotices b h)
        | _ => 0 := by
  have answered : Notice.said words (behind (p.resolved b) fun r _ => answerNotices r text) = 0 :=
    (within_behind fun r _ => within_answerNotices r text).said_eq_zero unanswered
  rw [callNotices, Notice.said_append, answered, resolvedNotices]
  cases (p.bridge b).bound with
  | some r => rfl
  | none =>
    have loaded := (within_loadNotices p (p.bridge b).loader).said_eq_zero unloaded
    dsimp only
    rw [Notice.said_append, loaded, Nat.zero_add, Nat.add_zero]
    rcases p.ensureLoaded (p.bridge b).loader with ⟨h | e | _, q⟩ <;> rfl

/-- What a call tells of the function is what the function tells that it comes to. -/
theorem said_callNotices_of_answer {words : String} (unbound : words ∉ loadWords ++ bindWords)
    (p : Process) (b : BridgeId) (text : String) :
    Notice.said words (p.callNotices b text) =
      match (p.resolved b).1 with
      | .ok r => Notice.said words (answerNotices r text)
      | _ => 0 := by
  rw [callNotices, Notice.said_append, (within_resolvedNotices p b).said_eq_zero unbound,
    Nat.zero_add]
  rcases p.resolved b with ⟨r | e | _, q⟩ <;> rfl

/-- **What a call tells is told once for each stage that ends so.** -/
theorem said_callNotices (p : Process) (b : BridgeId) (text : String) :
    Notice.said "native library loaded" (p.callNotices b text) =
        (p.callAttempts b (p.bridge b).loader).countP Outcome.isOk ∧
      Notice.said "native library load failed" (p.callNotices b text) =
        (p.callAttempts b (p.bridge b).loader).countP Outcome.isError ∧
      Notice.said "native symbol bound" (p.callNotices b text) =
        (p.callBindings b).countP Outcome.isOk ∧
      Notice.said "symbol resolution failed" (p.callNotices b text) =
        (p.callBindings b).countP Outcome.isError ∧
      Notice.said "native call" (p.callNotices b text) =
        (p.callAnswers b text).countP Outcome.isOk ∧
      Notice.said "native call failed" (p.callNotices b text) =
        (p.callAnswers b text).countP Outcome.isInvocation := by
  have loading : ∀ {words : String} {P : Outcome Handle → Bool}, words ∉ bindWords →
      words ∉ answerWords →
      Notice.said words (p.loadNotices (p.bridge b).loader) =
        (p.attemptsOf (p.bridge b).loader (p.bridge b).loader).countP P →
      Notice.said words (p.callNotices b text) =
        (p.callAttempts b (p.bridge b).loader).countP P := by
    intro words P unbound unanswered each
    rw [said_callNotices_of_load unbound unanswered, callAttempts]
    cases (p.bridge b).bound with
    | some r => rfl
    | none => exact each
  have binding : ∀ {words : String} {P : Outcome SymbolReference → Bool}, words ∉ loadWords →
      words ∉ answerWords →
      (∀ (h : Handle) (q : Process),
        Notice.said words (q.bindNotices b h) = [(q.bind b h).1].countP P) →
      Notice.said words (p.callNotices b text) = (p.callBindings b).countP P := by
    intro words P unloaded unanswered each
    rw [said_callNotices_of_bind unloaded unanswered, callBindings]
    cases (p.bridge b).bound with
    | some r => rfl
    | none =>
      rcases p.ensureLoaded (p.bridge b).loader with ⟨h | e | _, q⟩
      · exact each h q
      · rfl
      · rfl
  have answering : ∀ {words : String} {P : Outcome Int64 → Bool}, words ∉ loadWords ++ bindWords →
      (∀ r : SymbolReference, Notice.said words (answerNotices r text) =
        [r.function.outcome r.name text].countP P) →
      Notice.said words (p.callNotices b text) = (p.callAnswers b text).countP P := by
    intro words P unbound each
    rw [said_callNotices_of_answer unbound, callAnswers]
    cases (p.resolved b).1 with
    | ok r => exact each r
    | error | panic => rfl
  obtain ⟨loaded, failed⟩ := said_loadNotices p (p.bridge b).loader
  exact ⟨loading (by decide) (by decide) loaded, loading (by decide) (by decide) failed,
    binding (by decide) (by decide) fun h q => (said_bindNotices q b h).1,
    binding (by decide) (by decide) fun h q => (said_bindNotices q b h).2,
    answering (by decide) fun r => (said_answerNotices r text).1,
    answering (by decide) fun r => (said_answerNotices r text).2⟩

/-- A call adds the libraries that its request for the handle adds. -/
theorem libraries_call (p : Process) (b : BridgeId) (text : String) :
    (p.call b text).2.libraries =
      match (p.bridge b).bound with
      | some _ => p.libraries
      | none => (p.ensureLoaded (p.bridge b).loader).2.libraries := by
  have resolved : (p.resolved b).2.libraries =
      match (p.bridge b).bound with
      | some _ => p.libraries
      | none => (p.ensureLoaded (p.bridge b).loader).2.libraries := by
    rw [resolved_eq]
    cases (p.bridge b).bound with
    | some r => rfl
    | none =>
      rcases p.ensureLoaded (p.bridge b).loader with ⟨h | e | _, q⟩
      · have heard := heard_bind q b h
        dsimp only [andThen]
        rcases bind : q.bind b h with ⟨r | e | _, q'⟩ <;> rw [bind] at heard <;>
          exact heard.libraries
      · rfl
      · rfl
  rw [call_eq_andThen, ← resolved]
  rcases p.resolved b with ⟨r | e | _, q⟩
  · exact (heard_invoke q r text).libraries
  · rfl
  · rfl

/-! ## What a call answers -/

theorem outcome_call (p : Process) (b : BridgeId) (text : String) :
    (p.call b text).1 =
      match (p.resolved b).1 with
      | .ok r => r.function.outcome r.name text
      | .error e => .error e
      | .panic => .panic := by
  rw [call_eq_andThen]
  rcases p.resolved b with ⟨r | e | _, q⟩
  · exact outcome_invoke q r text
  · rfl
  · rfl

/-- Binding does not call anything, and so does not fail with a status. -/
theorem isInvocation_resolve (p : Process) (h : Handle) (name : String) (declared : Signature) :
    (p.resolve h name declared).1.isInvocation = false := by
  rcases found : (p.findSymbol h name).1 with (_ | f) | e | _
  · rw [resolve_of_missing found]
    rfl
  · by_cases callable : declared = .callable
    · subst callable
      rw [resolve_of_found found]
      rcases described : p.findDescriptor h name with (_ | g) | e | _
      · rfl
      · dsimp only
        split <;> rfl
      · exact absurd described (findSymbol_ne_error _ h _ e)
      · rfl
    · rw [resolve_of_uncallable found callable]
      rfl
  · exact absurd found (findSymbol_ne_error p h name e)
  · rw [resolve_of_panic found]
    rfl

theorem isInvocation_bind (p : Process) (b : BridgeId) (h : Handle) :
    (p.bind b h).1.isInvocation = false := by
  have resolved := isInvocation_resolve p h (p.bridge b).symbol .callable
  unfold bind
  rcases resolve : p.resolve h (p.bridge b).symbol .callable with ⟨r | e | _, q⟩ <;>
    rw [resolve] at resolved
  · rfl
  · exact resolved
  · rfl

/-- On the way to its bound function a bridge fails where its attempt to load has failed, and with
a status only there: then it is one that a source has made up. -/
theorem isError_resolved (p : Process) (b : BridgeId) :
    ((p.callAttempts b (p.bridge b).loader).any Outcome.isError → (p.resolved b).1.isError) ∧
      ((p.resolved b).1.isInvocation →
        (p.callAttempts b (p.bridge b).loader).any Outcome.isError) := by
  rw [resolved_eq, callAttempts]
  cases (p.bridge b).bound with
  | some r => simp [Outcome.isInvocation]
  | none =>
    dsimp only
    rw [any_isError_attemptsOf]
    rcases p.ensureLoaded (p.bridge b).loader with ⟨h | e | _, q⟩
    · have bound := isInvocation_bind q b h
      dsimp only [andThen]
      rcases bind : q.bind b h with ⟨r | e | _, q'⟩ <;> rw [bind] at bound
      · simp [Outcome.isError, Outcome.isInvocation]
      · simp_all [Outcome.isError]
      · simp [Outcome.isError, Outcome.isInvocation]
    · simp [andThen, Outcome.isError]
    · simp [andThen, Outcome.isError, Outcome.isInvocation]

/-- **A call is told once if it answers with a length, and a failed call once if the function
answers with a status.** -/
theorem said_call (p : Process) (b : BridgeId) (text : String) :
    Notice.said "native call" (p.callNotices b text) =
        [(p.call b text).1].countP Outcome.isOk ∧
      Notice.said "native call failed" (p.callNotices b text) =
        [(p.call b text).1].countP fun o => o.isInvocation &&
          !(p.callAttempts b (p.bridge b).loader).any Outcome.isError := by
  obtain ⟨-, -, -, -, called, failed⟩ := said_callNotices p b text
  obtain ⟨fails, madeUp⟩ := isError_resolved p b
  rw [called, failed, outcome_call, callAnswers]
  cases resolved : (p.resolved b).1 with
  | ok r =>
    have loaded : (p.callAttempts b (p.bridge b).loader).any Outcome.isError = false := by
      rw [Bool.eq_false_iff]
      exact fun failed => absurd (resolved ▸ fails failed) (by simp [Outcome.isError])
    simp [loaded]
  | error e =>
    rw [resolved] at madeUp
    refine ⟨rfl, ?_⟩
    cases status : (Outcome.error e : Outcome Int64).isInvocation with
    | false => simp [status]
    | true =>
      have failed := madeUp status
      simp [failed]
  | panic => exact ⟨rfl, rfl⟩

/-- A failure to load is the answer of the call. -/
theorem call_of_attempt {e : BridgeError}
    (failed : .error e ∈ p.callAttempts b (p.bridge b).loader) (text : String) :
    (p.call b text).1 = .error e := by
  rw [outcome_call, resolved_eq]
  unfold callAttempts at failed
  cases bound : (p.bridge b).bound with
  | some r =>
    rw [bound] at failed
    exact absurd failed List.not_mem_nil
  | none =>
    rw [bound] at failed
    have loaded := ensureLoaded_of_mem_attemptsOf failed
    rcases load : p.ensureLoaded (p.bridge b).loader with ⟨o, q⟩
    rw [load] at loaded
    obtain rfl : o = .error e := loaded
    rfl

/-- A failure to bind is the answer of the call. -/
theorem call_of_binding {e : BridgeError} (failed : .error e ∈ p.callBindings b)
    (text : String) : (p.call b text).1 = .error e := by
  rw [outcome_call, resolved_eq]
  unfold callBindings at failed
  cases bound : (p.bridge b).bound with
  | some r =>
    rw [bound] at failed
    exact absurd failed List.not_mem_nil
  | none =>
    rw [bound] at failed
    rcases load : p.ensureLoaded (p.bridge b).loader with ⟨h | e' | _, q⟩ <;> rw [load] at failed
    · have bound : .error e = (q.bind b h).1 := List.mem_singleton.mp failed
      dsimp only [andThen]
      rcases bind : q.bind b h with ⟨o, r⟩
      rw [bind] at bound
      obtain rfl : .error e = o := bound
      rfl
    · exact absurd failed List.not_mem_nil
    · exact absurd failed List.not_mem_nil

/-- A call that ends with a status has loaded, where no source makes up a status. -/
theorem Truthful.call (h : p.Truthful) (status : (p.call b text).1.isInvocation) :
    (p.callAttempts b (p.bridge b).loader).any Outcome.isError = false := by
  rw [outcome_call, resolved_eq] at status
  rw [callAttempts]
  cases bound : (p.bridge b).bound with
  | some r => rfl
  | none =>
    have truth := h.ensureLoaded (p.bridge b).loader
    dsimp only
    rw [any_isError_attemptsOf]
    rw [bound] at status
    rcases load : p.ensureLoaded (p.bridge b).loader with ⟨i | e | _, q⟩
    · rfl
    · rw [load] at truth status
      exact absurd (status.symm.trans truth) (by simp)
    · rfl

/-! ## Acts -/

/-- Behind a load, the check of a descriptor is told in words of its own. -/
theorem within_checking (p : Process) (l : LoaderId) (name : String) (declared : Signature) :
    Notice.Within Notice.checkWords
      (behind (p.ensureLoaded l) fun h q => q.descriptorNotices h name declared) :=
  within_behind fun h q => within_descriptorNotices q h name declared

/-- The attempts on its loader that an act makes, if it makes one. -/
def actAttempts (p : Process) : Act → Attempts
  | .load l | .bind l _ _ => p.attemptsOf l l
  | .call b _ => p.callAttempts b (p.bridge b).loader

/-- An act tells of loads and of failed loads as its attempts have come out. -/
theorem said_actNotices (p : Process) (x : Act) :
    Notice.said "native library loaded" (p.actNotices x) =
        (p.actAttempts x).countP Outcome.isOk ∧
      Notice.said "native library load failed" (p.actNotices x) =
        (p.actAttempts x).countP Outcome.isError := by
  cases x with
  | load l => exact said_loadNotices p l
  | bind l name declared =>
    have checked := within_checking p l name declared
    obtain ⟨loaded, failed⟩ := said_loadNotices p l
    simp only [actNotices, Notice.said_append]
    rw [checked.said_eq_zero (by decide), checked.said_eq_zero (by decide)]
    exact ⟨loaded, failed⟩
  | call b text =>
    obtain ⟨loaded, failed, -⟩ := said_callNotices p b text
    exact ⟨loaded, failed⟩

/-- **That a library is open already is told exactly where an attempt succeeds and no library is
opened.** -/
theorem said_reusing (p : Process) (x : Act) :
    Notice.said "reusing process-wide library handle" (p.actNotices x) =
      if (p.actAttempts x).any Outcome.isOk ∧
          (p.perform x).2.libraries.length = p.libraries.length then 1 else 0 := by
  cases x with
  | load l =>
    rw [perform, andThen_ok]
    exact said_reusing_loadNotices p l
  | bind l name declared =>
    have checked := within_checking p l name declared
    have libraries : (p.perform (.bind l name declared)).2.libraries =
        (p.ensureLoaded l).2.libraries := by
      rw [perform]
      rcases p.ensureLoaded l with ⟨h | e | _, q⟩
      · rw [andThen, andThen_ok]
        exact (heard_resolve q h name declared).libraries
      · rfl
      · rfl
    rw [libraries, actNotices, Notice.said_append, checked.said_eq_zero (by decide)]
    exact said_reusing_loadNotices p l
  | call b text =>
    rw [perform, andThen_ok, libraries_call, actNotices,
      said_callNotices_of_load (by decide) (by decide), actAttempts, callAttempts]
    cases (p.bridge b).bound with
    | some r => rfl
    | none => exact said_reusing_loadNotices p (p.bridge b).loader

/-- The candidates that an act has looked at, if it makes an attempt. -/
def actProbed (p : Process) (x : Act) : List Path :=
  if (p.actAttempts x).isEmpty then []
  else p.probed (p.loader (x.loader p)).source (p.loader (x.loader p)).library

theorem inWords_probing_of_attempt (p : Process) (l : LoaderId) :
    Notice.inWords "probing for native library" (p.loadNotices l) =
      (if (p.attemptsOf l l).isEmpty then []
        else p.probed (p.loader l).source (p.loader l).library).map .probing := by
  rw [inWords_loadNotices, attemptsOf]
  cases (p.loader l).handle <;> simp

/-- **What an act probes is told in order, and no other probing is.** -/
theorem inWords_actNotices (p : Process) (x : Act) :
    Notice.inWords "probing for native library" (p.actNotices x) =
      (p.actProbed x).map .probing := by
  cases x with
  | load l => exact inWords_probing_of_attempt p l
  | bind l name declared =>
    have checked := within_checking p l name declared
    rw [actNotices, Notice.inWords_append, checked.inWords_eq_nil (by decide), List.append_nil]
    exact inWords_probing_of_attempt p l
  | call b text =>
    have answered : Notice.Within answerWords
        (behind (p.resolved b) fun r _ => answerNotices r text) :=
      within_behind fun r _ => within_answerNotices r text
    rw [actNotices, callNotices, Notice.inWords_append, answered.inWords_eq_nil (by decide),
      List.append_nil, resolvedNotices, actProbed, actAttempts, callAttempts]
    cases (p.bridge b).bound with
    | some r => rfl
    | none =>
      have bound : Notice.Within bindWords (behind (p.ensureLoaded (p.bridge b).loader)
          fun h q => q.bindNotices b h) := within_behind fun h q => within_bindNotices q b h
      dsimp only
      rw [Notice.inWords_append, bound.inWords_eq_nil (by decide), List.append_nil]
      exact inWords_probing_of_attempt p (p.bridge b).loader

end Process
end Linkage
