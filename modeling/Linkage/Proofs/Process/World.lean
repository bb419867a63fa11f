import Linkage.Proofs.Process.Verdicts

/-!
# Processes in one world

Loading and binding read little of a process: the host, what the watches have in store, the
libraries that are open and the registry.  Two processes that agree in this are in one world
(`SameWorld`), whatever loaders and bridges they have and whatever has been reported in them.
An operation that is given the same source, path or name comes out alike in both (`Alike`
speaks of one library and of the next outcome only; `Agrees` also of the world behind), so what
one object of a process meets with is what another one would, made the same way.
-/

namespace Linkage
namespace Process

variable {p q r p' q' : Process}

/-- What a source and a library can see of two processes is the same. -/
structure SameWorld (p q : Process) : Prop where
  host : q.host = p.host
  watches : q.watches = p.watches
  libraries : q.libraries = p.libraries
  registry : q.registry = p.registry

/-- Two operations come out alike, and leave one world behind. -/
structure Agrees {α : Type} (a b : α × Process) : Prop where
  outcome : b.1 = a.1
  world : SameWorld a.2 b.2

/-- What comes out alike has one outcome. -/
theorem Agrees.split {α : Type} {x y : α × Process} (h : Agrees x y) :
    ∃ a p q, x = (a, p) ∧ y = (a, q) ∧ SameWorld p q :=
  ⟨x.1, x.2, y.2, rfl, Prod.ext h.outcome rfl, h.world⟩

namespace SameWorld

theorem symm (h : SameWorld p q) : SameWorld q p :=
  ⟨h.host.symm, h.watches.symm, h.libraries.symm, h.registry.symm⟩

theorem trans (h : SameWorld p q) (h' : SameWorld q r) : SameWorld p r where
  host := h'.host.trans h.host
  watches := h'.watches.trans h.watches
  libraries := h'.libraries.trans h.libraries
  registry := h'.registry.trans h.registry

/-- What only reports, or writes to loaders and bridges, stays in the world. -/
theorem step (h : SameWorld p q) (hp : SameWorld p p') (hq : SameWorld q q') : SameWorld p' q' :=
  hp.symm.trans (h.trans hq)

theorem of_heard (heard : Heard p q) (watches : q.watches = p.watches) : SameWorld p q :=
  ⟨heard.host, watches, heard.libraries, heard.registry⟩

theorem note (h : SameWorld p q) (n n' : Notice) : SameWorld (p.note n) (q.note n') :=
  ⟨h.host, h.watches, h.libraries, h.registry⟩

theorem setState (h : SameWorld p q) (l k : LoaderId) (s s' : LoadState) :
    SameWorld (p.setState l s) (q.setState k s') :=
  ⟨h.host, h.watches, h.libraries, h.registry⟩

theorem storeHandle (h : SameWorld p q) (l k : LoaderId) (i j : Handle) :
    SameWorld (p.storeHandle l i) (q.storeHandle k j) :=
  ⟨h.host, h.watches, h.libraries, h.registry⟩

theorem storeSymbol (h : SameWorld p q) (b d : BridgeId) (f g : SymbolReference) :
    SameWorld (p.storeSymbol b f) (q.storeSymbol d g) :=
  ⟨h.host, h.watches, h.libraries, h.registry⟩

theorem register (h : SameWorld p q) (key : Path) (i : Handle) :
    SameWorld (p.register key i) (q.register key i) :=
  ⟨h.host, h.watches, h.libraries, congrArg (· ++ [(key, i)]) h.registry⟩

theorem registered? (h : SameWorld p q) (key : Path) : q.registered? key = p.registered? key := by
  rw [Process.registered?, h.registry, Process.registered?]

theorem pathOf (h : SameWorld p q) (i : Handle) : q.pathOf i = p.pathOf i := by
  rw [Process.pathOf, h.libraries, Process.pathOf]

/-! ## Asking a source -/

theorem record (h : SameWorld p q) (watch : Option WatchId) (use use' : String → Use) :
    SameWorld (p.record watch use) (q.record watch use') :=
  h.step (of_heard (heard_record ..) (watches_record ..))
    (of_heard (heard_record ..) (watches_record ..))

theorem takeVerdict (h : SameWorld p q) (watch : Option WatchId) (kind : UseKind) :
    Agrees (p.takeVerdict watch kind) (q.takeVerdict watch kind) := by
  unfold Process.takeVerdict
  cases watch with
  | none => exact ⟨rfl, h⟩
  | some w =>
    dsimp only
    rw [h.watches]
    cases p.watches[w]? with
    | none => exact ⟨rfl, h⟩
    | some watched => exact ⟨rfl, ⟨h.host, rfl, h.libraries, h.registry⟩⟩

theorem ask (h : SameWorld p q) (watch : Option WatchId) (kind : UseKind)
    (use use' : String → Use) : Agrees (p.ask watch kind use) (q.ask watch kind use') :=
  (h.record watch use use').takeVerdict watch kind

/-- A source says the same in both, whoever asks. -/
theorem locate (h : SameWorld p q) (s : Source) (library : String)
    (owner owner' : Option LoaderId) :
    Agrees (p.locate s library owner) (q.locate s library owner') := by
  unfold Process.locate
  extract_lets asked asked'
  have agrees : Agrees asked asked' := h.ask ..
  rw [agrees.outcome]
  refine ⟨?_, agrees.world.step (of_heard (heard_locateUnder ..) (watches_locateUnder ..))
    (of_heard (heard_locateUnder ..) (watches_locateUnder ..))⟩
  exact locateUnder_congr (congrArg Host.files agrees.world.host)
    (congrArg Host.cwd agrees.world.host) ..

theorem tableUnder (h : SameWorld p q) (s : Source) (path : Path) (v : Verdict) :
    Agrees (p.tableUnder s path v) (q.tableUnder s path v) := by
  have table : Agrees (p.tableAt s.origin path) (q.tableAt s.origin path) := by
    unfold tableAt
    cases s.origin with
    | inProcess t => exact ⟨rfl, h⟩
    | system dirs =>
      dsimp only
      rw [h.host]
      exact ⟨rfl, rfl, h.watches, h.libraries, h.registry⟩
  unfold Process.tableUnder
  split
  all_goals first
    | exact ⟨rfl, h⟩
    | (obtain ⟨found, p', q', hp, hq, world⟩ := table.split
       rw [hp, hq]
       cases found <;> exact ⟨rfl, world⟩)

/-- A source opens the same in both, under the same number. -/
theorem openLibrary (h : SameWorld p q) (s : Source) (path : Path)
    (owner owner' : Option LoaderId) :
    Agrees (p.openLibrary s path owner) (q.openLibrary s path owner') := by
  unfold Process.openLibrary
  extract_lets asked asked'
  have agrees : Agrees asked asked' := h.ask ..
  obtain ⟨o, p', q', hp, hq, world⟩ := (agrees.world.tableUnder s path asked.1).split
  rw [agrees.outcome, hp, hq]
  cases o with
  | panic => exact ⟨rfl, world⟩
  | error e => exact ⟨rfl, world⟩
  | ok found =>
    exact ⟨congrArg (Outcome.ok ∘ List.length) world.libraries, world.host, world.watches,
      congrArg (· ++ [_]) world.libraries, world.registry⟩

/-! ## Looking into a library -/

theorem findSymbol (h : SameWorld p q) (i : Handle) (name : String) :
    Agrees (p.findSymbol i name) (q.findSymbol i name) := by
  unfold Process.findSymbol
  rw [h.libraries]
  cases p.libraries[i]? with
  | none => exact ⟨rfl, h⟩
  | some lib =>
    dsimp only
    obtain ⟨v, p', q', hp, hq, world⟩ := (h.takeVerdict lib.watch .symbol).split
    rw [hp, hq]
    cases v with
    | panic => exact ⟨rfl, world⟩
    | fail | refuse | pass | place | supply =>
      have recorded := world.record lib.watch
      exact ⟨rfl, recorded (fun label => .symbol label name _) fun label => .symbol label name _⟩

theorem exportedDescriptor (h : SameWorld p q) (i : Handle) (name : String) :
    Agrees (p.exportedDescriptor i name) (q.exportedDescriptor i name) := by
  obtain ⟨o, p', q', hp, hq, world⟩ := (h.findSymbol i (name ++ Signature.suffix)).split
  rw [Process.exportedDescriptor, Process.exportedDescriptor, hp, hq]
  rcases o with (_ | f) | e | _ <;> exact ⟨rfl, world⟩

theorem resolve (h : SameWorld p q) (i : Handle) (name : String) (declared : Signature) :
    Agrees (p.resolve i name declared) (q.resolve i name declared) := by
  obtain ⟨o, p', q', hp, hq, world⟩ := (h.findSymbol i name).split
  rw [Process.resolve, Process.resolve, hp, hq]
  rcases o with (_ | f) | e | _
  · exact ⟨congrArg (Outcome.error ∘ BridgeError.symbolNotFound name) (world.pathOf i), world⟩
  · dsimp only
    split
    · exact ⟨rfl, world⟩
    obtain ⟨o, p'', q'', hp, hq, world⟩ := (world.exportedDescriptor i name).split
    rw [hp, hq]
    rcases o with (_ | text) | e | _
    · exact ⟨rfl, world.note ..⟩
    · dsimp only
      split
      · exact ⟨rfl, world.note ..⟩
      · exact ⟨rfl, world⟩
    · exact ⟨rfl, world⟩
    · exact ⟨rfl, world⟩
  · exact ⟨rfl, world⟩
  · exact ⟨rfl, world⟩

/-- Bridges that bind the same name bind the same in a library. -/
theorem bind (h : SameWorld p q) {b d : BridgeId} (i : Handle)
    (symbol : (q.bridge d).symbol = (p.bridge b).symbol) : Agrees (p.bind b i) (q.bind d i) := by
  obtain ⟨o, p', q', hp, hq, world⟩ := (h.resolve i (p.bridge b).symbol .callable).split
  rw [Process.bind, Process.bind, symbol, hp, hq]
  rcases o with _ | _ | _
  · exact ⟨rfl, world.note ..⟩
  · exact ⟨rfl, world.note ..⟩
  · exact ⟨rfl, world⟩

/-- A bound function answers the same in both. -/
theorem invoke (h : SameWorld p q) (f : SymbolReference) (text : String) :
    Agrees (p.invoke f text) (q.invoke f text) := by
  unfold Process.invoke
  split
  · exact ⟨rfl, h⟩
  · unfold classify
    split
    · exact ⟨rfl, h.note ..⟩
    · exact ⟨rfl, h.note ..⟩

/-! ## Loading -/

/-- Loaders that load the same library from the same source load alike. -/
theorem load (h : SameWorld p q) {l k : LoaderId}
    (library : (q.loader k).library = (p.loader l).library)
    (source : (q.loader k).source = (p.loader l).source) : Agrees (p.load l) (q.load k) := by
  obtain ⟨o, p', q', hp, hq, world⟩ :=
    (h.locate (p.loader l).source (p.loader l).library (some l) (some k)).split
  rw [Process.load, Process.load, library, source, hp, hq]
  rcases o with path | e | _
  · dsimp only
    rw [world.registered?, world.host]
    split
    · exact ⟨rfl, world.note ..⟩
    obtain ⟨o, p'', q'', hp, hq, world⟩ :=
      (world.openLibrary (p.loader l).source path (some l) (some k)).split
    rw [hp, hq]
    rcases o with i | e | _
    · exact ⟨rfl, world.register ..⟩
    · exact ⟨rfl, world⟩
    · exact ⟨rfl, world⟩
  · exact ⟨rfl, world⟩
  · exact ⟨rfl, world⟩

end SameWorld
end Process
end Linkage
