import Linkage.Proofs.Session.Turns

/-!
# What a run tells

What is told of loading, binding and calling is told in turns, once for each that ends so
(`Turn.tells_results`), and other commands tell of single steps only (`Aside`).  So what is told
over a whole run is a sum over its turns (`sum_turns`), and so is what changes in its loaders and
bridges.

The two sums are the same.  A loader is told to be loaded in the one turn that gives it its
handle, and a bridge to be bound in the one turn that stores its function; failures are told once
for each, and calls once for each by their answers (`notices_tell_results`).
-/

namespace Linkage

open Process

namespace Session

/-! ## Turns -/

namespace Turn

variable {t : Turn}

/-- What it tells: the notices that it adds to the journal. -/
def notices (t : Turn) : List Notice :=
  Linkage.notices (t.after.journal.drop t.before.journal.length)

/-- The candidates that it looks at. -/
def probed (t : Turn) : List Path := t.before.actProbed t.act

/-- It is a call that is answered with a length. -/
def measures (t : Turn) : Bool := t.bridge?.isSome && t.outcome.isOk

/-- It is a call that is answered with a status, which is not the failure of its load. -/
def endsWithStatus (t : Turn) : Bool :=
  t.bridge?.isSome && t.outcome.isInvocation && !t.attempts.any Outcome.isError

/-- How a turn tells what comes of it: how its attempt to load and its binding have ended, what
the function has answered, whether the library was open already, and which candidates it has
looked at. -/
structure TellsResults (t : Turn) : Prop where
  loaded : Notice.said "native library loaded" t.notices = t.attempts.countP Outcome.isOk
  loadFailed : Notice.said "native library load failed" t.notices =
    t.attempts.countP Outcome.isError
  bound : Notice.said "native symbol bound" t.notices = t.bindings.countP Outcome.isOk
  bindingFailed : Notice.said "symbol resolution failed" t.notices =
    t.bindings.countP Outcome.isError
  called : Notice.said "native call" t.notices = if t.measures then 1 else 0
  callFailed : Notice.said "native call failed" t.notices = if t.endsWithStatus then 1 else 0
  reusing : Notice.said "reusing process-wide library handle" t.notices =
    if t.reuses then 1 else 0
  probing : Notice.inWords "probing for native library" t.notices = t.probed.map .probing

theorem notices_eq (t : Turn) : t.notices = t.before.actNotices t.act :=
  (tells_perform t.before t.act).notices_drop

/-- A turn that is no call tells of loading, and of the check of a descriptor. -/
theorem within_notices (quiet : t.bridge? = none) :
    Notice.Within (loadWords ++ Notice.checkWords) t.notices := by
  rw [notices_eq]
  obtain ⟨p, x⟩ := t
  cases x with
  | load l => exact (within_loadNotices p l).mono (List.subset_append_left ..)
  | bind l name declared =>
    exact ((within_loadNotices p l).mono (List.subset_append_left ..)).append
      ((within_checking p l name declared).mono (List.subset_append_right ..))
  | call b text => exact absurd quiet (by simp [bridge?, Act.bridge?])

/-- **A turn tells what comes of it.** -/
theorem tells_results (t : Turn) : t.TellsResults := by
  obtain ⟨loaded, loadFailed⟩ := said_actNotices t.before t.act
  have reusing := said_reusing t.before t.act
  have probing := inWords_actNotices t.before t.act
  rw [← notices_eq] at loaded loadFailed reusing probing
  have reuses : (if t.attempts.any Outcome.isOk ∧
      t.after.libraries.length = t.before.libraries.length then 1 else 0) =
        if t.reuses then 1 else 0 := by simp [Turn.reuses]
  replace reusing := reusing.trans reuses
  rcases through : t.bridge? with _ | b
  · -- it binds nothing and calls nothing, and tells in no words for that
    have within := within_notices through
    have none : t.bindings = [] := by
      obtain ⟨p, x⟩ := t
      cases x with
      | load | bind => rfl
      | call b text => exact absurd through (by simp [bridge?, Act.bridge?])
    refine ⟨loaded, loadFailed, ?_, ?_, ?_, ?_, reusing, probing⟩
    · rw [within.said_eq_zero (by decide), none]
      rfl
    · rw [within.said_eq_zero (by decide), none]
      rfl
    · rw [within.said_eq_zero (by decide), measures, through]
      rfl
    · rw [within.said_eq_zero (by decide), endsWithStatus, through]
      rfl
  · obtain ⟨text, act⟩ := exists_call through
    obtain ⟨-, -, bound, bindingFailed, -⟩ := said_callNotices t.before b text
    obtain ⟨called, callFailed⟩ := said_call t.before b text
    have told : t.notices = t.before.callNotices b text := by rw [notices_eq, act, actNotices]
    have bindings : t.bindings = t.before.callBindings b := by rw [Turn.bindings, act, actBindings]
    have attempts : t.attempts = t.before.callAttempts b (t.before.bridge b).loader := by
      rw [Turn.attempts, act, actAttempts]
    rw [← told, ← bindings] at bound bindingFailed
    rw [← told] at called
    rw [← told, ← attempts] at callFailed
    refine ⟨loaded, loadFailed, bound, bindingFailed, ?_, ?_, reusing, probing⟩
    · rw [called, measures, through, outcome, act, perform]
      rcases t.before.call b text with ⟨n | e | _, q⟩ <;> rfl
    · rw [callFailed, endsWithStatus, through, outcome, act, perform]
      rcases t.before.call b text with ⟨n | e | _, q⟩
      · rfl
      · exact List.countP_singleton
      · rfl

/-- Where no source makes up a status, a call that ends with one got it from the function. -/
theorem endsWithStatus_eq {b : BridgeId} (truthful : t.before.Truthful)
    (through : t.bridge? = some b) : t.endsWithStatus = t.outcome.isInvocation := by
  obtain ⟨text, act⟩ := exists_call through
  have outcome : t.outcome.isInvocation = (t.before.call b text).1.isInvocation := by
    rw [Turn.outcome, act, perform]
    rcases t.before.call b text with ⟨n | e | _, q⟩ <;> rfl
  have attempts : t.attempts = t.before.callAttempts b (t.before.bridge b).loader := by
    rw [Turn.attempts, act, actAttempts]
  rw [endsWithStatus, through, outcome, attempts]
  cases status : (t.before.call b text).1.isInvocation with
  | false => rfl
  | true =>
    rw [truthful.call status]
    rfl

end Turn

/-! ## Commands that make no turn -/

/-- The words of what is told outside of turns. -/
def asideWords : List String := "probing for native library" :: Notice.checkWords

/-- What a command changes that makes no turn: no loader gets a handle, no bridge gets a
function, and nothing is told but of single steps. -/
structure Aside (p q : Process) (ns : List Notice) : Prop where
  handle : ∀ l, (q.loader l).handle = (p.loader l).handle
  bound : ∀ b, (q.bridge b).bound = (p.bridge b).bound
  tells : Tells p q ns
  within : Notice.Within asideWords ns

namespace Aside

variable {p q : Process} {ns : List Notice}

theorem refl (p : Process) : Aside p p [] := ⟨fun _ => rfl, fun _ => rfl, .refl p, .nil⟩

theorem heard (heard : Heard p q) (tells : Tells p q ns) (within : Notice.Within asideWords ns) :
    Aside p q ns :=
  ⟨fun l => by rw [heard.loader], fun b => by rw [heard.bridge], tells, within⟩

theorem newLoader (p : Process) (library : String) (source : Source) :
    Aside p (p.newLoader library source).2 [] :=
  ⟨handle_newLoader p library source, fun _ => rfl, .of_journal rfl, .nil⟩

theorem newBridge (p : Process) (library symbol : String) (source : Source) :
    Aside p (p.newBridge library symbol source).2 [] where
  handle := handle_newLoader p library source
  bound := fun b => Option.ext fun r =>
    ⟨bound_of_append rfl, (grows_appendBridge (p.newLoader library source).2 _).bound b r⟩
  tells := .of_journal rfl
  within := .nil

end Aside

/-- What a command tells that makes no turn. -/
def asides (s : Session) : Command → List Notice
  | .locate source library =>
    ((s.sources.get? source).map fun x => (s.process.probed x library).map .probing).getD []
  | .bind handle symbol _ declared =>
    ((s.handles.get? handle).map fun h => s.process.descriptorNotices h symbol declared).getD []
  | _ => []

variable {s : Session} {c : Command} {cs : List Command} {t : Turn} {ev : History}
  {words : String}

/-- A command that names nothing tells nothing. -/
theorem aside_withNamed {α : Type} {things : Named α} {name : String} {f : α → Reply × Session}
    {ns : List Notice} (absent : things.get? name = none → ns = [])
    (found : ∀ a, things.get? name = some a → Aside s.process (f a).2.process ns) :
    Aside s.process (s.withNamed things name f).2.process ns := by
  rw [withNamed]
  rcases get : things.get? name with _ | a
  · rw [absent get]
    exact .refl ..
  · exact found a get

theorem aside_makeBridge (s : Session) (name : String) (config : Except Config.Error Config)
    (source : Option String) :
    Aside s.process (s.makeBridge name config source).2.process [] := by
  unfold makeBridge
  split
  · exact .refl ..
  · split
    · exact .newBridge ..
    · split
      · exact .refl ..
      · exact .newBridge ..

/-- **A command that makes no turn tells of single steps only.** -/
theorem aside_step (none : s.turn? c = none)
    (sequential : ∀ bridge text threads, c ≠ .callMany bridge text threads) :
    Aside s.process (s.step c).2.process (s.asides c) := by
  cases c with
  | change | setLibraryPath =>
    exact ⟨fun _ => rfl, fun _ => rfl, .of_journal rfl, .nil⟩
  | enter dir =>
    simp only [step, enter]
    split
    · exact ⟨fun _ => rfl, fun _ => rfl, .of_journal rfl, .nil⟩
    · exact .refl ..
  | drop => exact .refl ..
  | source name base fixed script =>
    simp only [step, makeSource]
    split
    · exact .refl ..
    · rename_i found
      obtain ⟨made, -, rfl⟩ := process_of_originOf found
      exact ⟨fun _ => rfl, fun _ => rfl, .of_journal rfl, .nil⟩
  | bridge => exact aside_makeBridge ..
  | loader name source library =>
    simp only [step, makeLoader]
    split
    · exact .refl ..
    · exact .newLoader ..
  | locate source library =>
    refine aside_withNamed (fun get => by rw [asides, get]; rfl) fun x get => ?_
    have told : s.asides (.locate source library) = (s.process.probed x library).map .probing := by
      rw [asides, get]; rfl
    rw [process_conclude fun _ _ => rfl, told]
    exact .heard (heard_locate ..) (tells_locate ..)
      ((Notice.within_probing _).mono (by simp [asideWords]))
  | look handle symbol =>
    refine aside_withNamed (fun _ => rfl) fun h _ => ?_
    rw [look, process_conclude fun _ _ => rfl]
    exact .heard (heard_findSymbol ..) (tells_findSymbol ..) .nil
  | bind handle symbol keep declared =>
    refine aside_withNamed (fun get => by rw [asides, get]; rfl) fun h get => ?_
    have told : s.asides (.bind handle symbol keep declared) =
        s.process.descriptorNotices h symbol declared := by rw [asides, get]; rfl
    rw [bind, process_conclude fun _ _ => rfl, told]
    exact .heard (heard_resolve ..) (tells_resolve ..)
      ((within_descriptorNotices s.process h symbol declared).mono (by simp [asideWords]))
  | describeLoader | describeHandle | describeBridge | invoke =>
    exact aside_withNamed (fun _ => rfl) fun _ _ => .refl ..
  | compare =>
    exact aside_withNamed (fun _ => rfl) fun _ _ =>
      aside_withNamed (fun _ => rfl) fun _ _ => .refl ..
  | load loader keep =>
    have absent := Option.map_eq_none_iff.mp none
    exact aside_withNamed (fun _ => rfl) fun l get => absurd (absent.symm.trans get) (by simp)
  | loadBridge bridge keep =>
    have absent := Option.map_eq_none_iff.mp none
    exact aside_withNamed (fun _ => rfl) fun b get => absurd (absent.symm.trans get) (by simp)
  | call bridge text =>
    have absent := Option.map_eq_none_iff.mp none
    exact aside_withNamed (fun _ => rfl) fun b get => absurd (absent.symm.trans get) (by simp)
  | callMany bridge text threads => exact absurd rfl (sequential bridge text threads)

/-! ## Whole runs -/

/-- **What each turn adds, and nothing else adds to, is a sum over the turns.** -/
theorem sum_turns {f : Process → Nat} {g : Turn → Nat}
    (turn : ∀ t ev, Rest t.before ev → t.act.Valid t.before → f t.after = f t.before + g t)
    (aside : ∀ p q ns, Aside p q ns → f q = f p) (kept : Kept s ev) (sequential : Sequential cs) :
    f (s.after cs).process = f s.process + ((s.turns cs).map g).sum := by
  induction cs generalizing s ev with
  | nil => rfl
  | cons c cs ih =>
    have next := ih (kept.step c).1 sequential.tail
    -- what the first command adds is left to compare: that of its turn, or nothing
    have behind : (s.after (c :: cs)).process = ((s.step c).2.after cs).process := rfl
    rw [behind, next, turns, List.map_append, List.sum_append, ← Nat.add_assoc]
    congr 1
    rcases made : s.turn? c with _ | t
    · exact aside _ _ _ (aside_step made sequential.head)
    · obtain ⟨before, after⟩ := step_of_turn made
      have valid := valid_of_turn kept made
      rw [after, ← before]
      simpa using turn t ev (before ▸ kept.rest) valid

/-- What turns tell. -/
def told (turns : List Turn) : List Notice := turns.flatMap Turn.notices

/-- What some of the turns tell is a sum over all turns. -/
theorem said_told_filter (P : Turn → Bool) (turns : List Turn) :
    Notice.said words (told (turns.filter P)) =
      (turns.map fun t => if P t then Notice.said words t.notices else 0).sum := by
  induction turns with
  | nil => rfl
  | cons t turns ih =>
    rw [List.map_cons, List.sum_cons, ← ih]
    cases h : P t <;> simp [told, h]

/-- What each turn tells once or not at all is told as often as there are turns that tell it. -/
theorem said_told_eq_countP {P : Turn → Bool} {turns : List Turn}
    (each : ∀ t ∈ turns, Notice.said words t.notices = if P t then 1 else 0) :
    Notice.said words (told turns) = turns.countP P := by
  induction turns with
  | nil => rfl
  | cons t turns ih =>
    have rest := ih fun u mem => each u (List.mem_cons_of_mem t mem)
    rw [told, List.flatMap_cons, Notice.said_append, ← told, rest, each t List.mem_cons_self,
      List.countP_cons, Nat.add_comm]

/-- What is told in one turn as often as something comes out so is told in all of them as often
as it does. -/
theorem said_told_eq_flatMap {α : Type} {P : α → Bool} {h : Turn → List α}
    (each : ∀ t : Turn, Notice.said words t.notices = (h t).countP P) (turns : List Turn) :
    Notice.said words (told turns) = (turns.flatMap h).countP P := by
  rw [told, Notice.said_flatMap, List.countP_flatMap]
  exact congrArg List.sum (List.map_congr_left fun t _ => each t)

/-! ### Loaders and bridges -/

/-- **A loader is told to be loaded once for the handle that it has.** -/
theorem said_loaded (host : Host) (sequential : Sequential cs) (l : LoaderId) :
    Notice.said "native library loaded" (told (onLoader l ((start host).turns cs))) =
      (((start host).after cs).process.loader l).handle.toList.length := by
  have sum := sum_turns (f := fun p => (p.loader l).handle.toList.length)
    (g := fun t => if t.loader = l then Notice.said "native library loaded" t.notices else 0)
    (fun t ev rest valid => ?_) (fun p q ns aside => ?_) (kept_start host) sequential
  · rw [onLoader, said_told_filter, sum]
    simp [start, Process.start, Process.loader, default, Loader.fresh]
  · rw [t.tells_results.loaded]
    exact handle_perform rest valid l
  · rw [aside.handle]

/-- **A bridge is told to be bound once for the function that it has bound.** -/
theorem said_bound (host : Host) (sequential : Sequential cs) (b : BridgeId) :
    Notice.said "native symbol bound" (told (through b ((start host).turns cs))) =
      (((start host).after cs).process.bridge b).bound.toList.length := by
  have sum := sum_turns (f := fun p => (p.bridge b).bound.toList.length)
    (g := fun t => if t.bridge? = some b then Notice.said "native symbol bound" t.notices else 0)
    (fun t ev rest valid => ?_) (fun p q ns aside => ?_) (kept_start host) sequential
  · rw [through, said_told_filter, sum]
    simp [start, Process.start, Process.bridge, default]
  · have added : (t.after.bridge b).bound.toList.length =
        (t.before.bridge b).bound.toList.length +
          if t.bridge? = some b then t.bindings.countP Outcome.isOk else 0 :=
      bound_perform valid b
    by_cases own : t.bridge? = some b
    · rw [if_pos own] at added ⊢
      rw [added, t.tells_results.bound]
    · rw [if_neg own] at added ⊢
      exact added
  · rw [aside.bound]

/-- A call through a bridge tells whether it has failed at binding, and how it was answered. -/
theorem said_through (b : BridgeId) (turns : List Turn) :
    Notice.said "symbol resolution failed" (told (through b turns)) =
        (through b turns).countP (·.bindings.any Outcome.isError) ∧
      Notice.said "native call" (told (through b turns)) =
        (through b turns).countP (·.outcome.isOk) ∧
      Notice.said "native call failed" (told (through b turns)) =
        (through b turns).countP (·.endsWithStatus) := by
  refine ⟨said_told_eq_countP fun t _ => ?_, said_told_eq_countP fun t mem => ?_,
    said_told_eq_countP fun t _ => t.tells_results.callFailed⟩
  · rw [t.tells_results.bindingFailed, t.countP_bindings]
  · have own : t.bridge? = some b := of_decide_eq_true (List.mem_filter.mp mem).2
    rw [t.tells_results.called, Turn.measures, own]
    rfl

/-! ### Statuses that sources make up -/

/-- A command that makes no source make up the status of a function. -/
def Command.Truthful : Command → Prop
  | .source _ _ _ script => ∀ kind, kind ≠ .symbol → ∀ symbol status,
      .refuse (.invocation symbol status) ∉ script.on kind
  | _ => True

theorem truthful_after (host : Host) (truthful : ∀ c ∈ cs, c.Truthful) :
    ((start host).after cs).process.Truthful :=
  fun kind uses symbol status => not_mem_script host kind fun _ _ _ _ made =>
    truthful _ made kind uses symbol status

/-- Where no source makes up a status, calls that end with one are told as failed calls. -/
theorem countP_endsWithStatus (host : Host) (truthful : ∀ c ∈ cs, c.Truthful) (b : BridgeId) :
    (through b ((start host).turns cs)).countP (·.endsWithStatus) =
      (through b ((start host).turns cs)).countP (·.outcome.isInvocation) := by
  refine List.countP_congr fun t mem => ?_
  obtain ⟨among, own⟩ := List.mem_filter.mp mem
  obtain ⟨before, c, after, rfl, made⟩ := exists_of_mem_turns among
  have there : t.before.Truthful := by
    rw [(step_of_turn made).1]
    exact truthful_after host fun c mem => truthful c (List.mem_append_left _ mem)
  rw [Turn.endsWithStatus_eq there (of_decide_eq_true own)]

/-! ### Everything that is told -/

/-- **Nothing but turns tells of anything but single steps.** -/
theorem said_journal (host : Host) (sequential : Sequential cs) (other : words ∉ asideWords) :
    Notice.said words (notices ((start host).after cs).process.journal) =
      Notice.said words (told ((start host).turns cs)) := by
  have sum := sum_turns (f := fun p => Notice.said words (notices p.journal))
    (g := fun t => Notice.said words t.notices)
    (fun t ev _ _ => ?_) (fun p q ns aside => ?_) (kept_start host) sequential
  · rw [told, Notice.said_flatMap, sum]
    exact Nat.zero_add _
  · have told := tells_perform t.before t.act
    rw [Turn.notices_eq, Turn.after, told.notices_eq, Notice.said_append]
  · rw [aside.tells.notices_eq, Notice.said_append, aside.within.said_eq_zero other, Nat.add_zero]

/-- The candidates that a command has looked at. -/
def probedBy (s : Session) (c : Command) : List Path :=
  match c with
  | .locate source library =>
    ((s.sources.get? source).map fun x => s.process.probed x library).getD []
  | _ => ((s.turn? c).map Turn.probed).getD []

/-- **What a command probes is told in order, and no other probing is.** -/
theorem inWords_answer (sequential : ∀ bridge text threads, c ≠ .callMany bridge text threads) :
    Notice.inWords "probing for native library" (notices (s.answer c).1.2) =
      (s.probedBy c).map .probing := by
  have reported : notices (s.answer c).1.2 =
      notices ((s.step c).2.process.journal.drop s.process.journal.length) := rfl
  rcases made : s.turn? c with _ | t
  · rw [reported, (aside_step made sequential).tells.notices_drop]
    cases c with
    | locate source library =>
      rw [asides, probedBy]
      cases s.sources.get? source with
      | none => rfl
      | some x => exact Notice.inWords_probing _
    | bind handle symbol keep declared =>
      rw [asides]
      cases s.handles.get? handle with
      | none => rfl
      | some h =>
        exact (within_descriptorNotices s.process h symbol declared).inWords_eq_nil (by decide)
    | load | loadBridge | call => simp [asides, probedBy, made]
    | _ => rfl
  · obtain ⟨before, after⟩ := step_of_turn made
    rw [reported, after, ← before]
    refine t.tells_results.probing.trans ?_
    cases c with
    | load | loadBridge | call => simp [probedBy, made]
    | _ => exact absurd made (by simp [turn?])

/-- **What a run tells.**  Give any commands one after the other.  A loader is told to be loaded
once if it has loaded in the end, and otherwise never, and failed loads as often as attempts on it
have failed; an attempt that panics and a handle that is there already are not told of.  A bridge
is told to be bound once if it has bound a function, and otherwise never; failed bindings are told
once for each call whose binding has given an error, calls once for each that has answered with a
length, and failed calls once for each whose function has answered with a status.  These are all
calls that have ended with a status, unless a source makes up such a failure
(`failures_not_told`).

Each turn tells this of itself (`Turn.TellsResults`), and that a library is open already exactly
if it succeeds in loading and opens none; a failed attempt or binding is what comes of the turn,
and where this is a text that cannot be marshalled no call is told.  Nothing is told outside of
turns but the probing of the disk and the check of descriptors.  What is probed is told by each
command, in order; and a search of directories probes the candidates up to and including the first
that is a file. -/
theorem notices_tell_results (host : Host) (cs : List Command) (sequential : Sequential cs) :
    let s := (start host).after cs
    let turns := (start host).turns cs
    (∀ l, Notice.said "native library loaded" (told (onLoader l turns)) =
          (if (s.process.loader l).state = .loaded then 1 else 0) ∧
        Notice.said "native library load failed" (told (onLoader l turns)) =
          ((start host).allAttempts l cs).countP Outcome.isError) ∧
    (∀ b, Notice.said "native symbol bound" (told (through b turns)) =
          (if (s.process.bridge b).bound.isSome then 1 else 0) ∧
        Notice.said "symbol resolution failed" (told (through b turns)) =
          (through b turns).countP (·.bindings.any Outcome.isError) ∧
        Notice.said "native call" (told (through b turns)) =
          (through b turns).countP (·.outcome.isOk) ∧
        Notice.said "native call failed" (told (through b turns)) =
          (through b turns).countP (·.endsWithStatus) ∧
        ((∀ c ∈ cs, c.Truthful) →
          Notice.said "native call failed" (told (through b turns)) =
            (through b turns).countP (·.outcome.isInvocation))) ∧
    (∀ t ∈ turns, t.TellsResults ∧
        (∀ e, .error e ∈ t.attempts ∨ .error e ∈ t.bindings → t.outcome = .error e) ∧
        ∀ offset, t.outcome = .error (.marshal offset) →
          Notice.said "native call" t.notices = 0 ∧
            Notice.said "native call failed" t.notices = 0) ∧
    (∀ words, words ∉ asideWords →
        Notice.said words (notices s.process.journal) = Notice.said words (told turns)) ∧
    (∀ before c after, cs = before ++ c :: after →
        Notice.inWords "probing for native library"
            (notices (((start host).after before).answer c).1.2) =
          (((start host).after before).probedBy c).map .probing) ∧
    ∀ p dirs library,
      Tells p (p.locateAt (.system dirs) library).2 ((p.searched dirs library).map .probing) ∧
        (p.locateAt (.system dirs) library).1 =
          match (Search.candidates dirs library).find? (p.host.files.isFile p.host.cwd) with
          | some path => .ok path
          | none => .error (.libraryNotFound library (Search.candidates dirs library)) := by
  intro s turns
  refine ⟨fun l => ⟨?_, ?_⟩, fun b => ?_, fun t _ => ⟨t.tells_results, ?_, ?_⟩,
    fun words other => said_journal host sequential other, ?_, tells_locateAt⟩
  · have rests := (rests_after host cs l).isSome_handle
    rw [said_loaded host sequential, if_congr rests.symm rfl rfl]
    cases (s.process.loader l).handle <;> rfl
  · rw [allAttempts_eq sequential]
    exact said_told_eq_flatMap (fun t => t.tells_results.loadFailed) _
  · obtain ⟨bindingFailed, called, callFailed⟩ := said_through b turns
    refine ⟨?_, bindingFailed, called, callFailed, fun truthful => ?_⟩
    · rw [said_bound host sequential]
      cases (s.process.bridge b).bound <;> rfl
    · exact callFailed.trans (countP_endsWithStatus host truthful b)
  · rintro e (failed | failed)
    · exact Turn.outcome_of_attempt failed
    · exact Turn.outcome_of_binding failed
  · intro offset marshal
    rw [t.tells_results.called, t.tells_results.callFailed, Turn.measures, Turn.endsWithStatus,
      marshal]
    cases t.bridge? <;> exact ⟨rfl, rfl⟩
  · rintro before c after rfl
    exact inWords_answer fun bridge text threads same =>
      sequential bridge text threads (List.mem_append_right _ (same ▸ List.mem_cons_self))

/-- Three bridges over one source, which is first not found: one over a function that measures,
one over a function that answers with a status, and one over no function. -/
def retried : List Command :=
  [.source "s" (.linked "l" [("f", .scalarLength), ("g", .constant (-2))]) none ⟨[.fail], [], []⟩,
    .bridge "b" (.ok { Config.default with library := "l", symbol := "f" }) (some "s"),
    .bridge "c" (.ok { Config.default with library := "l", symbol := "g" }) (some "s"),
    .bridge "d" (.ok { Config.default with library := "l", symbol := "h" }) (some "s"),
    .call "b" "a", .call "b" "aé", .call "b" "a\x00", .call "c" "a", .call "d" "a"]

/-- The surroundings of these commands: an empty disk. -/
def retried.host : Host := ⟨.empty, [], none, none, []⟩

/-- The first loader fails once and then loads, and the others come to its library.  The first
bridge tells of the one call that is answered with a length, the second of a failed call, and the
third of a failed binding. -/
theorem notices_tell_results_retried :
    let turns := (start retried.host).turns retried
    (Notice.said "native library loaded" (told (onLoader 0 turns)) = 1 ∧
      Notice.said "native library load failed" (told (onLoader 0 turns)) = 1) ∧
    (Notice.said "native symbol bound" (told (through 0 turns)) = 1 ∧
      Notice.said "native call" (told (through 0 turns)) = 1) ∧
    Notice.said "native call failed" (told (through 1 turns)) = 1 ∧
    Notice.said "symbol resolution failed" (told (through 2 turns)) = 1 := by
  intro turns
  have sequential : Sequential retried := by
    intro bridge text threads mem
    simp [retried] at mem
  have truthful : ∀ c ∈ retried, c.Truthful := by
    intro c mem
    simp only [retried, List.mem_cons, List.not_mem_nil, or_false] at mem
    obtain rfl | rfl | rfl | rfl | rfl | rfl | rfl | rfl | rfl := mem
    · rintro (_ | _ | _) uses symbol status <;> simp [Script.on]
    all_goals trivial
  obtain ⟨loaders, bridges, -⟩ := notices_tell_results retried.host retried sequential
  refine ⟨⟨(loaders 0).1.trans ?_, (loaders 0).2.trans ?_⟩,
    ⟨(bridges 0).1.trans ?_, (bridges 0).2.2.1.trans ?_⟩,
    ((bridges 1).2.2.2.2 truthful).trans ?_, (bridges 2).2.1.trans ?_⟩
  all_goals decide +kernel

/-- A source that refuses to be asked for its library, with the status of a function; and a call
through a bridge over it. -/
def refused : List Command :=
  [.source "s" (.linked "l" [("f", .scalarLength)]) none
      ⟨[.refuse (.invocation "f" .panicked)], [], []⟩,
    .bridge "b" (.ok { Config.default with library := "l", symbol := "f" }) (some "s"),
    .call "b" "a"]

/-- A source whose library panics when a name is looked up in it; and a call through a bridge over
it. -/
def interrupted : List Command :=
  [.source "s" (.linked "l" [("f", .scalarLength)]) none ⟨[], [], [.panic]⟩,
    .bridge "b" (.ok { Config.default with library := "l", symbol := "f" }) (some "s"),
    .call "b" "a"]

/-- **Not every status is told as a failed call, nor every binding that fails.**  The status with
which a source refuses its library is told as a failed load, since no function was called; and of
a binding that panics nothing is told. -/
theorem failures_not_told :
    (Sequential refused ∧
      let turns := (start retried.host).turns refused
      (through 0 turns).map (·.outcome) = [.error (.invocation "f" .panicked)] ∧
        (through 0 turns).countP (·.outcome.isInvocation) = 1 ∧
        Notice.said "native call failed" (told (through 0 turns)) = 0 ∧
        Notice.said "native library load failed" (told (through 0 turns)) = 1) ∧
    (Sequential interrupted ∧
      let turns := (start retried.host).turns interrupted
      (through 0 turns).map (·.outcome) = [.panic] ∧
        (through 0 turns).flatMap (·.bindings) = [.panic] ∧
        Notice.said "symbol resolution failed" (told (through 0 turns)) = 0) := by
  refine ⟨⟨?_, by decide +kernel⟩, ⟨?_, by decide +kernel⟩⟩
  all_goals
    intro bridge text threads mem
    simp [refused, interrupted] at mem

end Session
end Linkage
