import Linkage.Thread

/-!
# Processes without the reports of calls

Nothing that a process does depends on what has been reported in it.  So the reports of how
calls went can be taken out of the journal (`Process.quiet`), and everything goes on as it
would with them: each operation comes out the same on the quiet process, and leaves the quiet
form of what it would have left.  There is one such equation for each operation, up to the
stages of a thread (`Task.advance_quiet`).  The one stage that makes such a report is the call
itself, which leaves a quiet process as it is.
-/

namespace Linkage

/-- Whether a report tells how a call went. -/
def Report.isOfCall : Report → Bool
  | .notice (.called _ _ _) | .notice (.callFailed _ _) => true
  | _ => false

namespace Process

variable {p q : Process} {α : Type}

/-- The process, with the reports of calls taken out of its journal. -/
def quiet (p : Process) : Process := { p with journal := p.journal.filter (!·.isOfCall) }

/-- A result, with the process behind it made quiet. -/
def hush (x : α × Process) : α × Process := (x.1, x.2.quiet)

/-! ## Reports -/

theorem quiet_note {n : Notice} (other : (Report.notice n).isOfCall = false) :
    p.quiet.note n = (p.note n).quiet := by
  simp [quiet, note, other]

theorem quiet_note_of_call {n : Notice} (call : (Report.notice n).isOfCall = true) :
    (p.note n).quiet = p.quiet := by
  simp [quiet, note, call]

theorem quiet_noteAll {ns : List Notice} (others : ∀ n ∈ ns, (Report.notice n).isOfCall = false) :
    p.quiet.noteAll ns = (p.noteAll ns).quiet := by
  have stays : (ns.map Report.notice).filter (!·.isOfCall) = ns.map Report.notice := by
    refine List.filter_eq_self.mpr fun r hr => ?_
    obtain ⟨n, hn, rfl⟩ := List.mem_map.mp hr
    simp [others n hn]
  simp [quiet, noteAll, stays]

theorem quiet_record (watch : Option WatchId) (use : String → Use) :
    p.quiet.record watch use = (p.record watch use).quiet := by
  unfold record
  cases h : watch.bind fun w => p.watches[w]? with
  | none =>
    have h' : (watch.bind fun w => p.quiet.watches[w]?) = none := h
    rw [h']
  | some w =>
    have h' : (watch.bind fun w => p.quiet.watches[w]?) = some w := h
    rw [h']
    simp [quiet, Report.isOfCall]

/-! ## Asking a source -/

theorem quiet_takeVerdict (watch : Option WatchId) (kind : UseKind) :
    p.quiet.takeVerdict watch kind = hush (p.takeVerdict watch kind) := by
  unfold takeVerdict
  cases watch with
  | none => rfl
  | some w =>
    have watches : p.quiet.watches = p.watches := rfl
    dsimp only
    rw [watches]
    cases p.watches[w]? <;> rfl

theorem quiet_ask (watch : Option WatchId) (kind : UseKind) (use : String → Use) :
    p.quiet.ask watch kind use = hush (p.ask watch kind use) := by
  rw [ask, quiet_record, quiet_takeVerdict, ask]

theorem quiet_locateAt (origin : Origin) (library : String) :
    p.quiet.locateAt origin library = hush (p.locateAt origin library) := by
  unfold locateAt
  cases origin with
  | inProcess s =>
    dsimp only
    split <;> rfl
  | system dirs =>
    have probed := @quiet_noteAll p ((Search.probe (p.host.files.isFile p.host.cwd)
      (Search.candidates dirs library)).1.map Notice.probing) (by simp [Report.isOfCall])
    dsimp only [quiet] at probed ⊢
    rw [probed]
    split <;> rfl

theorem quiet_locateUnder (s : Source) (library : String) (v : Verdict) :
    p.quiet.locateUnder s library v = hush (p.locateUnder s library v) := by
  unfold locateUnder
  cases v with
  | pass | supply =>
    dsimp only
    cases s.fixed with
    | some path => rfl
    | none => exact quiet_locateAt ..
  | _ => rfl

theorem quiet_locate (s : Source) (library : String) (owner : Option LoaderId) :
    p.quiet.locate s library owner = hush (p.locate s library owner) := by
  unfold locate
  extract_lets asked asked'
  have same : asked = hush asked' := quiet_ask ..
  rw [same, hush, quiet_locateUnder]

theorem quiet_tableUnder (s : Source) (path : Path) (v : Verdict) :
    p.quiet.tableUnder s path v = hush (p.tableUnder s path v) := by
  have table : p.quiet.tableAt s.origin path = hush (p.tableAt s.origin path) := by
    unfold tableAt
    cases s.origin <;> rfl
  unfold tableUnder
  cases v with
  | pass | place =>
    dsimp only
    rw [table, hush]
    rcases p.tableAt s.origin path with ⟨_ | found, q⟩ <;> rfl
  | _ => rfl

theorem quiet_openLibrary (s : Source) (path : Path) (owner : Option LoaderId) :
    p.quiet.openLibrary s path owner = hush (p.openLibrary s path owner) := by
  unfold openLibrary
  extract_lets asked asked'
  have same : asked = hush asked' := quiet_ask ..
  rw [same, hush, quiet_tableUnder, hush]
  rcases asked'.2.tableUnder s path asked'.1 with ⟨_ | _ | _, q⟩ <;> rfl

/-! ## Looking into a library -/

theorem quiet_findSymbol (h : Handle) (name : String) :
    p.quiet.findSymbol h name = hush (p.findSymbol h name) := by
  have libraries : p.quiet.libraries = p.libraries := rfl
  unfold findSymbol
  rw [libraries]
  cases p.libraries[h]? with
  | none => rfl
  | some lib =>
    dsimp only
    rw [quiet_takeVerdict, hush]
    cases (p.takeVerdict lib.watch .symbol).1 with
    | panic => rfl
    | fail | refuse | pass | place | supply => exact congrArg (Prod.mk _) (quiet_record ..)

theorem quiet_exportedDescriptor (h : Handle) (name : String) :
    p.quiet.exportedDescriptor h name = hush (p.exportedDescriptor h name) := by
  rw [exportedDescriptor, quiet_findSymbol, hush, exportedDescriptor]
  rcases p.findSymbol h (name ++ Signature.suffix) with ⟨(_ | f) | e | _, q⟩ <;> rfl

theorem quiet_resolve (h : Handle) (name : String) (declared : Signature) :
    p.quiet.resolve h name declared = hush (p.resolve h name declared) := by
  rw [resolve, quiet_findSymbol, hush, resolve]
  rcases p.findSymbol h name with ⟨(_ | f) | e | _, q⟩
  · rfl
  · dsimp only
    split
    · rfl
    · rw [quiet_exportedDescriptor, hush]
      rcases q.exportedDescriptor h name with ⟨(_ | text) | e | _, r⟩
      · exact congrArg (Prod.mk _) (quiet_note rfl)
      · dsimp only
        split
        · exact congrArg (Prod.mk _) (quiet_note rfl)
        · rfl
      · rfl
      · rfl
  · rfl
  · rfl

theorem quiet_bind (b : BridgeId) (h : Handle) : p.quiet.bind b h = hush (p.bind b h) := by
  have symbol : p.quiet.bridge b = p.bridge b := rfl
  rw [bind, symbol, quiet_resolve, hush, bind]
  rcases p.resolve h (p.bridge b).symbol .callable with ⟨_ | _ | _, q⟩
  · exact congrArg (Prod.mk _) (quiet_note rfl)
  · exact congrArg (Prod.mk _) (quiet_note rfl)
  · rfl

/-- A call reports how it went, and does nothing else. -/
theorem quiet_classify (r : SymbolReference) (text : String) (answer : Int64) :
    (p.classify r text answer).2.quiet = p.quiet := by
  unfold classify
  split
  · exact quiet_note_of_call rfl
  · exact quiet_note_of_call rfl

theorem quiet_acquire? (k : Lock) (t : ThreadId) :
    p.quiet.acquire? k t = (p.acquire? k t).map quiet := by
  unfold acquire?
  change (if p.held.any _ then _ else _) = _
  split <;> rfl

end Process

namespace Task

open Process

variable {self : ThreadId} {p : Process} {goal : Goal} {s : Stage}

/-- **A stage goes on in a quiet process as it does with all reports**, unless it calls. -/
theorem advance_quiet (silent : ∀ r argument, s ≠ .invoke r argument) :
    advance self p.quiet goal s =
      (advance self p goal s).map fun (q, s') => (q.quiet, s') := by
  have bridge : ∀ b, p.quiet.bridge b = p.bridge b := fun _ => rfl
  have loader : ∀ l, p.quiet.loader l = p.loader l := fun _ => rfl
  have loaderOf : loaderOf p.quiet goal = loaderOf p goal := by cases goal <;> rfl
  cases s with
  | readSymbol =>
    simp only [advance, bridge]
    cases goal <;> cases (p.bridge _).bound <;> rfl
  | readHandle | rereadHandle =>
    simp only [advance, loader, loaderOf]
    split <;> rfl
  | rereadSymbol h =>
    simp only [advance, bridge]
    split <;> rfl
  | enterLoading | enterRegistry path key | enterBinding h =>
    simp only [advance, quiet_acquire?, loaderOf, Option.map_map]
    rfl
  | locate =>
    simp only [advance, loader, loaderOf, quiet_locate, hush]
    rcases p.locate _ _ _ with ⟨_ | _ | _, q⟩ <;> rfl
  | lookUp path key =>
    have registered : p.quiet.registered? key = p.registered? key := rfl
    simp only [advance, registered]
    split
    · exact congrArg (fun q => some (q, _)) (quiet_note rfl)
    · rfl
  | opening path key =>
    simp only [advance, loader, loaderOf, quiet_openLibrary, hush]
    rcases p.openLibrary _ _ _ with ⟨_ | _ | _, q⟩ <;> rfl
  | leaveRegistry o => cases o <;> rfl
  | markLoaded h =>
    simp only [advance, loader, loaderOf]
    exact congrArg (fun q => some (q, _)) (quiet_note (p := p.setState _ _) rfl)
  | markFailed e =>
    simp only [advance, loader, loaderOf]
    exact congrArg (fun q => some (q, _)) (quiet_note (p := p.setState _ _) rfl)
  | bind h =>
    simp only [advance, quiet_bind, hush]
    rcases p.bind _ _ with ⟨_ | _ | _, q⟩ <;> rfl
  | copy r =>
    simp only [advance]
    split <;> rfl
  | invoke r argument => exact absurd rfl (silent r argument)
  | markLoading | storeHandle a | leaveLoading o =>
    simp only [advance, loaderOf]
    rfl
  | findPlace path | register a | storeSymbol r | leaveBinding o | done o => rfl

/-- What a thread gets from the answer to its call. -/
def answerOf : Outcome Int64 → Outcome Answer
  | .ok n => .ok (.length n)
  | .error e => .error e
  | .panic => .panic

theorem advance_invoke (self : ThreadId) (p : Process) (goal : Goal) (r : SymbolReference)
    (argument : Argument) : advance self p goal (.invoke r argument) =
      some ((p.classify r (callOf goal).2 (r.function.invoke argument.buffer)).2,
        .done (answerOf (p.classify r (callOf goal).2 (r.function.invoke argument.buffer)).1)) := by
  simp only [advance]
  rcases p.classify r (callOf goal).2 (r.function.invoke argument.buffer) with ⟨_ | _ | _, q⟩ <;>
    rfl

end Task
end Linkage
