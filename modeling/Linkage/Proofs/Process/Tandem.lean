import Linkage.Proofs.Process.Footprint

/-!
# Operations in two processes that mirror each other

An operation that keeps to its footprint does the same in a process and in one that mirrors it
there.  It ends alike, and what it leaves comes from the two processes by the same edits
(`Tandem`); only the handle that it gets may be another number.  Operations that go on with what
others have come to are put together by `Tandem.andThen`.

This module has the uses of a source and of an opened library.
-/

namespace Linkage

/-- An outcome, the result of which is changed. -/
def Outcome.map {α β : Type} (f : α → β) : Outcome α → Outcome β
  | .ok a => .ok (f a)
  | .error e => .error e
  | .panic => .panic

section

variable {α β γ : Type} (o : Outcome α)

theorem Outcome.map_map (f : α → β) (g : β → γ) : (o.map f).map g = o.map (g ∘ f) := by
  cases o <;> rfl

variable {o}

theorem Outcome.map_congr {f g : α → β} (same : ∀ a, o = .ok a → f a = g a) :
    o.map f = o.map g := by
  cases o with
  | ok a => exact congrArg Outcome.ok (same a rfl)
  | error | panic => rfl

theorem Outcome.map_eq_self {f : α → α} (same : ∀ a, o = .ok a → f a = a) : o.map f = o := by
  cases o with
  | ok a => exact congrArg Outcome.ok (same a rfl)
  | error | panic => rfl

end

namespace Process

variable {F : Footprint} {n d : Nat} {p q p' q' : Process} {α β : Type} {f : α → α} {g : β → β}
  {x y : Outcome α × Process} {k k' : α → Process → Outcome β × Process}

/-! ## Operations one after the other -/

/-- Goes on with the result of an operation, if there is one. -/
def andThen (x : Outcome α × Process) (k : α → Process → Outcome β × Process) :
    Outcome β × Process :=
  match x with
  | (.ok a, p) => k a p
  | (.error e, p) => (.error e, p)
  | (.panic, p) => (.panic, p)

theorem andThen_ok {f : α → β} (x : Outcome α × Process) :
    (andThen x fun a p => (.ok (f a), p)).2 = x.2 := by
  obtain ⟨_ | _ | _, p⟩ := x <;> rfl

/-- A failure is passed on. -/
theorem andThen_of_error {e : BridgeError} (failed : x.1 = .error e) :
    (andThen x k).1 = .error e := by
  obtain ⟨_ | _ | _, p⟩ := x
  · cases failed
  · exact congrArg Outcome.error (Outcome.error.inj failed)
  · cases failed

/-- An operation in two processes ends alike in both and makes the same edits in them; `f` says
what its result is in the second. -/
structure Tandem (F : Footprint) (n d : Nat) (f : α → α) (p q : Process)
    (x y : Outcome α × Process) : Prop where
  outcome : y.1 = x.1.map f
  along : Along F n d p q x.2 y.2

/-- What is alike behind the same edits is alike. -/
theorem Tandem.behind (t : Tandem F n d f p' q' x y) (along : Along F n d p q p' q') :
    Tandem F n d f p q x y := ⟨t.outcome, along.trans t.along⟩

/-- What goes on alike behind what is alike is alike. -/
theorem Tandem.andThen (t : Tandem F n d f p q x y)
    (next : ∀ a p' q', x = (.ok a, p') → Along F n d p q p' q' →
      Tandem F n d g p' q' (k a p') (k' (f a) q')) :
    Tandem F n d g p q (andThen x k) (andThen y k') := by
  obtain ⟨o, p'⟩ := x
  obtain ⟨o', q'⟩ := y
  obtain ⟨rfl, along⟩ := t
  cases o with
  | panic | error => exact ⟨rfl, along⟩
  | ok a =>
    exact (next a p' q' rfl along).behind along

/-- A result that both have is the end of it. -/
theorem Tandem.done (along : Along F n d p q p' q') (o : Outcome α) (f : α → α) :
    Tandem F n d f p q (o, p') (o.map f, q') := ⟨rfl, along⟩

/-! ## Reports -/

theorem edits_reports (p : Process) (rs : List Report) :
    p.edits (rs.map Edit.report) = { p with journal := p.journal ++ rs } := by
  induction rs generalizing p with
  | nil => rw [List.append_nil, List.map_nil, edits_nil]
  | cons r rs ih =>
    rw [List.map_cons, edits_cons, ih, Edit.run, List.append_assoc]
    rfl

theorem along_reports (rs : List Report) :
    Along F n d p q { p with journal := p.journal ++ rs }
      { q with journal := q.journal ++ rs } := by
  refine ⟨rs.map Edit.report, fun e he => ?_, (edits_reports p rs).symm, ?_⟩
  · obtain ⟨r, -, rfl⟩ := List.mem_map.mp he
    trivial
  · rw [← edits_reports, List.map_map]
    rfl

theorem along_note (note : Notice) : Along F n d p q (p.note note) (q.note note) :=
  along_reports [.notice note]

namespace Mirrors

variable {kind : UseKind} {watch : Option WatchId}

theorem record (m : Mirrors F n d p q) (watch : Option WatchId) (use : String → Use) :
    Along F n d p q (p.record watch use) (q.record watch use) := by
  have labels : (watch.bind fun w => q.watches[w]?).map Watch.label =
      (watch.bind fun w => p.watches[w]?).map Watch.label := by
    cases watch with
    | none => rfl
    | some w => exact m.labels w
  unfold Process.record
  rcases hp : watch.bind fun w => p.watches[w]? with _ | w
  · rw [hp, Option.map_none, Option.map_eq_none_iff] at labels
    rw [labels]
    exact .refl ..
  · rw [hp, Option.map_some, Option.map_eq_some_iff] at labels
    obtain ⟨w', hq, same⟩ := labels
    rw [hq]
    dsimp only
    rw [← same]
    exact along_reports _

/-! ## Uses of a source -/

theorem ask (m : Mirrors F n d p q) (kind : UseKind) (use : String → Use) :
    (q.ask (F.watch kind) kind use).1 = (p.ask (F.watch kind) kind use).1 ∧
      Along F n d p q (p.ask (F.watch kind) kind use).2 (q.ask (F.watch kind) kind use).2 := by
  have within : (Edit.take (F.watch kind) kind).Within F := rfl
  refine ⟨?_, (m.record _ use).trans (.edit within)⟩
  rw [(ask_spec q _ kind use).1, (ask_spec p _ kind use).1, m.verdict]

theorem locateAt (m : Mirrors F n d p q) (origin : Origin) (library : String) :
    Tandem F n d id p q (p.locateAt origin library) (q.locateAt origin library) := by
  unfold Process.locateAt
  cases origin with
  | inProcess s =>
    dsimp only
    split <;> exact .done (.refl ..) _ id
  | system dirs =>
    dsimp only
    rw [m.files, m.cwd]
    split <;> exact .done (along_reports _) _ id

theorem locateUnder (m : Mirrors F n d p q) (s : Source) (library : String) (v : Verdict) :
    Tandem F n d id p q (p.locateUnder s library v) (q.locateUnder s library v) := by
  unfold Process.locateUnder
  cases v with
  | panic | fail | refuse | place => exact .done (.refl ..) _ id
  | pass | supply =>
    dsimp only
    cases s.fixed with
    | some path => exact .done (.refl ..) _ id
    | none => exact m.locateAt ..

theorem ownerState (m : Mirrors F n d p q) :
    q.ownerState (some F.loader) = p.ownerState (some F.loader) := by
  rw [Process.ownerState, Option.map_some, m.loader_eq]
  rfl

/-- A source says where a library is in both. -/
theorem locate (m : Mirrors F n d p q) {s : Source} (hs : s.watch = F.source) (library : String) :
    Tandem F n d id p q (p.locate s library (some F.loader))
      (q.locate s library (some F.loader)) := by
  unfold Process.locate
  rw [m.ownerState]
  have watch : s.watch = F.watch .locate := hs
  rw [watch]
  extract_lets asked asked'
  obtain ⟨same, along⟩ : asked'.1 = asked.1 ∧ Along F n d p q asked.2 asked'.2 := m.ask .locate _
  rw [same]
  exact ((m.along along).locateUnder s library asked.1).behind along

theorem tableAt (m : Mirrors F n d p q) (origin : Origin) (path : Path) :
    (q.tableAt origin path).1 = (p.tableAt origin path).1 ∧
      Along F n d p q (p.tableAt origin path).2 (q.tableAt origin path).2 := by
  unfold Process.tableAt
  cases origin with
  | inProcess s => exact ⟨rfl, .refl ..⟩
  | system dirs =>
    have within : (Edit.map path).Within F := trivial
    exact ⟨congrArg (Option.map SymbolTable.mapped) (m.answers path), .edit within⟩

theorem tableUnder (m : Mirrors F n d p q) (s : Source) (path : Path) (v : Verdict) :
    Tandem F n d id p q (p.tableUnder s path v) (q.tableUnder s path v) := by
  unfold Process.tableUnder
  cases v with
  | panic | fail | refuse | supply => exact .done (.refl ..) _ id
  | pass | place =>
    obtain ⟨same, along⟩ := m.tableAt s.origin path
    rcases hp : p.tableAt s.origin path with ⟨o, p'⟩
    rcases hq : q.tableAt s.origin path with ⟨o', q'⟩
    rw [hp, hq] at same along
    obtain rfl : o' = o := same
    cases o' with
    | none => exact .done along _ id
    | some table => exact .done along _ id

theorem openLibrary_eq (p : Process) (s : Source) (path : Path) (owner : Option LoaderId) :
    p.openLibrary s path owner =
      let asked := p.ask s.watch .opening fun label => .opening label path (p.ownerState owner)
      Process.andThen (asked.2.tableUnder s path asked.1) fun table p =>
        (.ok p.libraries.length, (p.addLibrary ⟨path, table, s.watch⟩).2) := by
  unfold Process.openLibrary
  extract_lets asked
  rcases asked.2.tableUnder s path asked.1 with ⟨_ | _ | _, q⟩ <;> rfl

/-- A source opens a library in both; its handle is the next number in each. -/
theorem openLibrary (m : Mirrors F n d p q) {s : Source} (hs : s.watch = F.source) (path : Path) :
    Tandem F n d (shifted n d) p q (p.openLibrary s path (some F.loader))
      (q.openLibrary s path (some F.loader)) := by
  rw [openLibrary_eq, openLibrary_eq, m.ownerState]
  have watch : s.watch = F.watch .opening := hs
  rw [watch]
  extract_lets asked asked'
  obtain ⟨same, along⟩ : asked'.1 = asked.1 ∧ Along F n d p q asked.2 asked'.2 := m.ask .opening _
  have m' := m.along along
  rw [same]
  refine ((m'.tableUnder s path asked.1).andThen fun table p' q' _ behind => ?_).behind along
  have within : (Edit.opened ⟨path, table, F.watch .opening⟩).Within F := trivial
  exact ⟨congrArg Outcome.ok (m'.along behind).next, .edit within⟩

/-! ## Uses of an opened library -/

/-- A name is found in a library in both. -/
theorem findSymbol (m : Mirrors F n d p q) {h : Handle}
    (looked : ∀ lib, p.libraries[h]? = some lib → lib.watch = F.library) (name : String) :
    Tandem F n d id p q (p.findSymbol h name) (q.findSymbol (shifted n d h) name) := by
  unfold Process.findSymbol
  rw [m.opened]
  rcases here : p.libraries[h]? with _ | lib
  · exact .done (.refl ..) _ id
  · have watch : lib.watch = F.watch .symbol := looked lib here
    have within : (Edit.take (F.watch .symbol) .symbol).Within F := rfl
    have taken : Along F n d p q (p.takeVerdict (F.watch .symbol) .symbol).2
      (q.takeVerdict (F.watch .symbol) .symbol).2 := .edit within
    have verdict : (q.takeVerdict (F.watch .symbol) .symbol).1 =
        (p.takeVerdict (F.watch .symbol) .symbol).1 := by
      rw [(takeVerdict_spec q _ _).1, (takeVerdict_spec p _ _).1, m.verdict]
    have recorded := fun use => taken.trans ((m.along taken).record (F.watch .symbol) use)
    dsimp only
    rw [watch, verdict]
    cases (p.takeVerdict (F.watch .symbol) .symbol).1 with
    | panic => exact .done taken _ id
    | fail | refuse => exact .done (recorded _) _ id
    | pass | place | supply => exact .done (recorded _) _ id

end Mirrors

theorem exportedDescriptor_eq (p : Process) (h : Handle) (name : String) :
    p.exportedDescriptor h name = andThen (p.findSymbol h (name ++ Signature.suffix))
      fun found q => (.ok (found.map descriptorText), q) := by
  unfold exportedDescriptor
  rcases p.findSymbol h (name ++ Signature.suffix) with ⟨(_ | f) | e | _, q⟩ <;> rfl

/-- What comes of a function that is there, and the text of the signature exported for it. -/
def checked (h : Handle) (name : String) (declared : Signature) (f : Function)
    (text : Option String) (p : Process) : Outcome SymbolReference × Process :=
  match text with
  | some text =>
    if Signature.parse? text = some declared then
      (.ok ⟨h, name, declared, f⟩, p.note (.descriptorVerified name declared))
    else (.error (.signatureMismatch name declared.text text), p)
  | none => (.ok ⟨h, name, declared, f⟩, p.note (.descriptorAbsent name))

theorem resolve_eq (p : Process) (h : Handle) (name : String) (declared : Signature) :
    p.resolve h name declared = andThen (p.findSymbol h name) fun found q =>
      match found with
      | none => (.error (.symbolNotFound name (q.pathOf h)), q)
      | some f =>
        if declared ≠ .callable then
          (.error (.signatureMismatch name declared.text onlyCallable), q)
        else andThen (q.exportedDescriptor h name) (checked h name declared f) := by
  unfold resolve
  rcases p.findSymbol h name with ⟨(_ | f) | e | _, q⟩
  · rfl
  · dsimp only [andThen]
    congr 1
    rcases q.exportedDescriptor h name with ⟨(_ | text) | e | _, r⟩ <;> rfl
  · rfl
  · rfl

namespace Mirrors

theorem exportedDescriptor (m : Mirrors F n d p q) {h : Handle}
    (looked : ∀ lib, p.libraries[h]? = some lib → lib.watch = F.library) (name : String) :
    Tandem F n d id p q (p.exportedDescriptor h name)
      (q.exportedDescriptor (shifted n d h) name) := by
  rw [exportedDescriptor_eq, exportedDescriptor_eq]
  exact (m.findSymbol looked _).andThen fun found p' q' _ _ => .done (.refl ..) _ id

/-- A name is checked against a signature in both. -/
theorem resolve (m : Mirrors F n d p q) {h : Handle}
    (looked : ∀ lib, p.libraries[h]? = some lib → lib.watch = F.library) (name : String)
    (declared : Signature) :
    Tandem F n d (SymbolReference.rename (shifted n d)) p q (p.resolve h name declared)
      (q.resolve (shifted n d h) name declared) := by
  rw [resolve_eq, resolve_eq]
  refine (m.findSymbol looked name).andThen fun found p' q' hp along => ?_
  have m' := m.along along
  have libraries : p'.libraries = p.libraries := by
    have heard := heard_findSymbol p h name
    rw [hp] at heard
    exact heard.libraries
  cases found with
  | none =>
    dsimp only [id]
    rw [m'.pathOf]
    exact .done (.refl ..) _ _
  | some f =>
    dsimp only [id]
    split
    · exact .done (.refl ..) _ _
    · refine (m'.exportedDescriptor (libraries ▸ looked) name).andThen fun text p'' q'' _ _ => ?_
      cases text with
      | none => exact .done (along_note _) _ (SymbolReference.rename (shifted n d))
      | some text =>
        dsimp only [checked, id]
        split
        · exact .done (along_note _) _ (SymbolReference.rename (shifted n d))
        · exact .done (.refl ..) _ _

end Mirrors
end Process
end Linkage
