import Linkage.Proofs.Process.Frame

/-!
# The verdicts to come

How a use of a source ends depends on little: the verdict that is next for its kind, the
disk and the working directory, and what the platform's loader has mapped.  Nothing else
in the process matters, however far it has gone on meanwhile.  So what a source will do
can be said beforehand, of the process as it is now and the verdicts that are still to
come (`coming`), and it is read off behind any number of other uses
(`locateUnder_congr`, `tableUnder_congr`, `Alike.bind`).
-/

namespace Linkage

/-- The verdicts of a script on one kind of use. -/
def Script.on (s : Script) : Process.UseKind → List Verdict
  | .locate => s.locate
  | .opening => s.opening
  | .symbol => s.symbol

/-- Behind the last verdict of a list every use passes. -/
theorem nextVerdict_eq (vs : List Verdict) : nextVerdict vs = (vs.getD 0 .pass, vs.drop 1) := by
  cases vs <;> rfl

namespace Process

variable {p q : Process} {s : Source} {watch : Option WatchId} {kind : UseKind} {h : Handle}

/-- The verdicts still to come on the uses of one kind. -/
def coming (p : Process) (watch : Option WatchId) (kind : UseKind) : List Verdict :=
  ((watch.bind fun w => p.watches[w]?).map fun w => w.script.on kind).getD []

/-- The verdict on a use to come, by its number. -/
def verdict (p : Process) (watch : Option WatchId) (kind : UseKind) (n : Nat) : Verdict :=
  (p.coming watch kind).getD n .pass

theorem coming_of_watches (same : q.watches = p.watches) (watch : Option WatchId) (kind : UseKind) :
    q.coming watch kind = p.coming watch kind := by
  rw [coming, same, coming]

theorem takeFrom_eq (s : Script) (kind : UseKind) :
    (takeFrom s kind).1 = (s.on kind).getD 0 .pass ∧
      ∀ k, (takeFrom s kind).2.on k = if k = kind then (s.on kind).drop 1 else s.on k := by
  cases kind
  all_goals
    refine ⟨congrArg Prod.fst (nextVerdict_eq _), fun k => ?_⟩
    cases k <;> simp [takeFrom, nextVerdict_eq, Script.on]

/-- A use takes the first verdict of its kind, and leaves those of the other kinds. -/
theorem takeVerdict_spec (p : Process) (watch : Option WatchId) (kind : UseKind) :
    (p.takeVerdict watch kind).1 = p.verdict watch kind 0 ∧
      ∀ k, (p.takeVerdict watch kind).2.coming watch k =
        if k = kind then (p.coming watch kind).drop 1 else p.coming watch k := by
  cases watch with
  | none =>
    refine ⟨by simp [takeVerdict, verdict, coming], fun k => ?_⟩
    simp [takeVerdict, coming]
  | some w =>
    rcases here : p.watches[w]? with _ | watched
    · refine ⟨by simp [takeVerdict, here, verdict, coming], fun k => ?_⟩
      simp [takeVerdict, here, coming]
    · obtain ⟨first, rest⟩ := takeFrom_eq watched.script kind
      have hlt := (List.getElem?_eq_some_iff.mp here).1
      refine ⟨by simp [takeVerdict, here, verdict, coming, first], fun k => ?_⟩
      simp [takeVerdict, coming, here, List.getElem?_set_self hlt, rest]

theorem watches_record (p : Process) (watch : Option WatchId) (use : String → Use) :
    (p.record watch use).watches = p.watches := by
  unfold record
  split <;> rfl

theorem ask_spec (p : Process) (watch : Option WatchId) (kind : UseKind) (use : String → Use) :
    (p.ask watch kind use).1 = p.verdict watch kind 0 ∧
      ∀ k, (p.ask watch kind use).2.coming watch k =
        if k = kind then (p.coming watch kind).drop 1 else p.coming watch k := by
  have recorded := coming_of_watches (watches_record p watch use) watch
  obtain ⟨first, rest⟩ := takeVerdict_spec (p.record watch use) watch kind
  refine ⟨first.trans (by rw [verdict, recorded, verdict]), fun k => (rest k).trans ?_⟩
  rw [recorded, recorded]

/-! ## Where a library is -/

theorem watches_locateUnder (p : Process) (s : Source) (library : String) (v : Verdict) :
    (p.locateUnder s library v).2.watches = p.watches := by
  have located : (p.locateAt s.origin library).2.watches = p.watches := by
    unfold locateAt
    cases s.origin with
    | inProcess => dsimp only; split <;> rfl
    | system => dsimp only; split <;> rfl
  unfold locateUnder
  split
  all_goals first
    | rfl
    | (split
       · rfl
       · exact located)

/-- Where a library is depends on the disk and the working directory. -/
theorem locateUnder_congr (files : q.host.files = p.host.files) (cwd : q.host.cwd = p.host.cwd)
    (s : Source) (library : String) (v : Verdict) :
    (q.locateUnder s library v).1 = (p.locateUnder s library v).1 := by
  have located : (q.locateAt s.origin library).1 = (p.locateAt s.origin library).1 := by
    unfold locateAt
    cases s.origin with
    | inProcess => dsimp only; split <;> rfl
    | system => dsimp only; rw [files, cwd]; split <;> rfl
  unfold locateUnder
  split
  all_goals first
    | rfl
    | (split
       · rfl
       · exact located)

theorem locate_spec (p : Process) (s : Source) (library : String) (owner : Option LoaderId) :
    (p.locate s library owner).1 = (p.locateUnder s library (p.verdict s.watch .locate 0)).1 ∧
      ∀ k, (p.locate s library owner).2.coming s.watch k =
        if k = .locate then (p.coming s.watch .locate).drop 1 else p.coming s.watch k := by
  unfold locate
  extract_lets asked
  obtain ⟨first, rest⟩ : asked.1 = _ ∧ _ := ask_spec p s.watch .locate _
  have heard : Heard p asked.2 := heard_ask ..
  refine ⟨?_, fun k => ?_⟩
  · rw [first]
    exact locateUnder_congr (by rw [heard.host]) (by rw [heard.host]) ..
  · rw [coming_of_watches (watches_locateUnder ..)]
    exact rest k

/-! ## Opening a library -/

theorem watches_tableUnder (p : Process) (s : Source) (path : Path) (v : Verdict) :
    (p.tableUnder s path v).2.watches = p.watches := by
  have same : (p.tableAt s.origin path).2.watches = p.watches := by
    unfold tableAt
    split <;> rfl
  unfold tableUnder
  split
  all_goals first
    | rfl
    | (split <;> rename_i h <;> rw [h] at same <;> exact same)

/-- What a library holds depends on the disk, the working directory, and what the
platform's loader has mapped. -/
theorem tableUnder_congr (host : q.host = p.host) (s : Source) (path : Path) (v : Verdict) :
    (q.tableUnder s path v).1 = (p.tableUnder s path v).1 := by
  have table : (q.tableAt s.origin path).1 = (p.tableAt s.origin path).1 := by
    unfold tableAt
    rw [host]
    split <;> rfl
  unfold tableUnder
  split
  all_goals first
    | rfl
    | (rcases hq : q.tableAt s.origin path with ⟨_ | _, _⟩ <;>
         rcases hp : p.tableAt s.origin path with ⟨_ | _, _⟩ <;>
         rw [hq, hp] at table <;> simp_all)

/-- A library that is not opened leaves no trace in the platform's loader. -/
theorem host_tableUnder_of_error {path : Path} {v : Verdict} {e : BridgeError}
    (failed : (p.tableUnder s path v).1 = .error e) : (p.tableUnder s path v).2.host = p.host := by
  have refused : (p.tableAt s.origin path).1 = none →
      (p.tableAt s.origin path).2.host = p.host := by
    unfold tableAt
    split
    · simp
    · intro none
      exact host_mapLibrary_of_none (by simpa using none)
  revert failed
  unfold tableUnder
  split
  all_goals first
    | exact fun _ => rfl
    | (split <;> rename_i h <;> rw [h] at refused
       · simp
       · exact fun _ => refused rfl)

theorem coming_openLibrary (p : Process) (s : Source) (path : Path) (owner : Option LoaderId)
    (k : UseKind) : (p.openLibrary s path owner).2.coming s.watch k =
      if k = .opening then (p.coming s.watch .opening).drop 1 else p.coming s.watch k := by
  unfold openLibrary
  extract_lets asked
  obtain ⟨-, rest⟩ : asked.1 = _ ∧ _ := ask_spec p s.watch .opening _
  have same := watches_tableUnder asked.2 s path asked.1
  rw [← rest k]
  split <;> rename_i h <;> rw [h] at same <;> exact coming_of_watches same ..

/-- A request to open a library that fails changes the verdicts to come, and nothing else
that a later request depends on. -/
theorem openLibrary_of_error {path : Path} {e : BridgeError}
    (failed : (p.tableUnder s path (p.verdict s.watch .opening 0)).1 = .error e)
    (owner : Option LoaderId) :
    (p.openLibrary s path owner).1 = .error e ∧ (p.openLibrary s path owner).2.host = p.host := by
  unfold openLibrary
  extract_lets asked
  obtain ⟨first, -⟩ : asked.1 = _ ∧ _ := ask_spec p s.watch .opening _
  have heard : Heard p asked.2 := heard_ask ..
  have failed : (asked.2.tableUnder s path asked.1).1 = .error e := by
    rw [tableUnder_congr heard.host, first, failed]
  have host := (host_tableUnder_of_error failed).trans heard.host
  split <;> rename_i h <;> rw [h] at failed host
  · exact absurd failed (by simp)
  · obtain rfl := Outcome.error.inj failed
    exact ⟨rfl, host⟩
  · exact absurd failed (by simp)

/-- A request to open a library panics where the question what it holds does. -/
theorem openLibrary_of_panic {path : Path}
    (panics : (p.tableUnder s path (p.verdict s.watch .opening 0)).1 = .panic)
    (owner : Option LoaderId) : (p.openLibrary s path owner).1 = .panic := by
  unfold openLibrary
  extract_lets asked
  obtain ⟨first, -⟩ : asked.1 = _ ∧ _ := ask_spec p s.watch .opening _
  have heard : Heard p asked.2 := heard_ask ..
  have panics : (asked.2.tableUnder s path asked.1).1 = .panic := by
    rw [tableUnder_congr heard.host, first, panics]
  split <;> rename_i h <;> rw [h] at panics
  · exact absurd panics (by simp)
  · exact absurd panics (by simp)

/-- A request to open a library that succeeds adds the library. -/
theorem openLibrary_of_ok {path : Path} {table : SymbolTable}
    (opened : (p.tableUnder s path (p.verdict s.watch .opening 0)).1 = .ok table)
    (owner : Option LoaderId) :
    (p.openLibrary s path owner).1 = .ok p.libraries.length ∧
      (p.openLibrary s path owner).2.libraries = p.libraries ++ [⟨path, table, s.watch⟩] := by
  unfold openLibrary
  extract_lets asked
  obtain ⟨first, -⟩ : asked.1 = _ ∧ _ := ask_spec p s.watch .opening _
  have heard : Heard p asked.2 := heard_ask ..
  have opened : (asked.2.tableUnder s path asked.1).1 = .ok table := by
    rw [tableUnder_congr heard.host, first, opened]
  have libraries := (libraries_tableUnder asked.2 s path asked.1).trans heard.libraries
  split <;> rename_i h <;> rw [h] at opened libraries
  · exact absurd opened (by simp)
  · exact absurd opened (by simp)
  · obtain rfl := Outcome.ok.inj opened
    exact ⟨by rw [addLibrary, libraries], by rw [addLibrary, libraries]⟩

/-! ## Binding a name -/

/-- A library answers alike in two processes. -/
structure Alike (p q : Process) (h : Handle) : Prop where
  library : q.libraries[h]? = p.libraries[h]?
  coming : ∀ lib, p.libraries[h]? = some lib →
    q.coming lib.watch .symbol = p.coming lib.watch .symbol

namespace Alike

theorem pathOf (alike : Alike p q h) : q.pathOf h = p.pathOf h := by
  rw [Process.pathOf, alike.library, Process.pathOf]

/-- What is found in a library depends on its functions and the verdicts to come. -/
theorem findSymbol (alike : Alike p q h) (name : String) :
    (q.findSymbol h name).1 = (p.findSymbol h name).1 ∧
      Alike (p.findSymbol h name).2 (q.findSymbol h name).2 h := by
  rcases here : p.libraries[h]? with _ | lib
  · have there : q.libraries[h]? = none := alike.library.trans here
    simp only [Process.findSymbol, here, there]
    exact ⟨trivial, alike⟩
  have there : q.libraries[h]? = some lib := alike.library.trans here
  have same := alike.coming lib here
  obtain ⟨first, rest⟩ := takeVerdict_spec p lib.watch .symbol
  obtain ⟨first', rest'⟩ := takeVerdict_spec q lib.watch .symbol
  have verdict : (q.takeVerdict lib.watch .symbol).1 = (p.takeVerdict lib.watch .symbol).1 := by
    rw [first', first, Process.verdict, same, Process.verdict]
  have taken : (q.takeVerdict lib.watch .symbol).2.coming lib.watch .symbol =
      (p.takeVerdict lib.watch .symbol).2.coming lib.watch .symbol := by
    rw [rest', rest, if_pos rfl, if_pos rfl, same]
  have heard := heard_takeVerdict p lib.watch .symbol
  have heard' := heard_takeVerdict q lib.watch .symbol
  -- whatever is recorded behind the verdict, the library and the verdicts to come are these
  have behind : ∀ {r r' : Process}, r.libraries = p.libraries → r'.libraries = q.libraries →
      r.watches = (p.takeVerdict lib.watch .symbol).2.watches →
      r'.watches = (q.takeVerdict lib.watch .symbol).2.watches → Alike r r' h := by
    intro r r' libraries libraries' watches watches'
    refine ⟨by rw [libraries, libraries', alike.library], fun other hother => ?_⟩
    obtain rfl : lib = other := by
      rw [libraries, here] at hother
      exact Option.some.inj hother
    rw [coming_of_watches watches, coming_of_watches watches', taken]
  simp only [Process.findSymbol, here, there, verdict]
  split
  · exact ⟨rfl, behind heard.libraries heard'.libraries rfl rfl⟩
  all_goals exact ⟨rfl, behind ((heard_record ..).libraries.trans heard.libraries)
    ((heard_record ..).libraries.trans heard'.libraries) (watches_record ..) (watches_record ..)⟩

theorem exportedDescriptor (alike : Alike p q h) (name : String) :
    (q.exportedDescriptor h name).1 = (p.exportedDescriptor h name).1 := by
  have found := (alike.findSymbol (name ++ Signature.suffix)).1
  unfold Process.exportedDescriptor
  rcases hq : q.findSymbol h (name ++ Signature.suffix) with ⟨o, q'⟩
  rcases hp : p.findSymbol h (name ++ Signature.suffix) with ⟨o', p'⟩
  rw [hq, hp] at found
  obtain rfl : o = o' := found
  rcases o with (_ | _) | _ | _ <;> rfl

theorem resolve (alike : Alike p q h) (name : String) (declared : Signature) :
    (q.resolve h name declared).1 = (p.resolve h name declared).1 := by
  have path := alike.pathOf
  obtain ⟨found, behind⟩ := alike.findSymbol name
  unfold Process.resolve
  rcases hq : q.findSymbol h name with ⟨o, q'⟩
  rcases hp : p.findSymbol h name with ⟨o', p'⟩
  have looked := heard_findSymbol q h name
  have looked' := heard_findSymbol p h name
  rw [hq] at looked
  rw [hp] at looked'
  rw [hq, hp] at found behind
  obtain rfl : o = o' := found
  rcases o with (_ | f) | _ | _
  · show Outcome.error _ = Outcome.error _
    rw [looked.pathOf, looked'.pathOf, path]
  · have described := behind.exportedDescriptor name
    dsimp only at described ⊢
    split
    · rfl
    · rcases hq : q'.exportedDescriptor h name with ⟨o, q''⟩
      rcases hp : p'.exportedDescriptor h name with ⟨o', p''⟩
      rw [hq, hp] at described
      obtain rfl : o = o' := described
      rcases o with (_ | text) | _ | _
      · rfl
      · dsimp only
        split <;> rfl
      · rfl
      · rfl
  · rfl
  · rfl

/-- **What a bridge binds in a library depends on the library and the verdicts to come.** -/
theorem bind (alike : Alike p q h) {b : BridgeId}
    (symbol : (q.bridge b).symbol = (p.bridge b).symbol) : (q.bind b h).1 = (p.bind b h).1 := by
  have resolved := alike.resolve (p.bridge b).symbol .callable
  unfold Process.bind
  rw [symbol]
  rcases hq : q.resolve h (p.bridge b).symbol .callable with ⟨o, q'⟩
  rcases hp : p.resolve h (p.bridge b).symbol .callable with ⟨o', p'⟩
  rw [hq, hp] at resolved
  obtain rfl : o = o' := resolved
  rcases o with _ | _ | _ <;> rfl

end Alike
end Process
end Linkage
