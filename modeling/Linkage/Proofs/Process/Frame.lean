import Linkage.Bridge
import Mathlib.Data.List.Basic

/-!
# What the operations of a process leave alone

Most of what happens in a process only reports and asks: it adds to the journal and
takes verdicts from scripts.  `Heard p q` says that `q` differs from `p` in nothing
else, and each operation of that kind has one lemma here that says so; what it leaves
alone is then read off by a projection (`Heard.registry`, `Heard.loader`, ...).

Three operations do more.  A library is opened (`openLibrary_spec`), a handle or a
bound function is written into its cell, and a place is registered.  None of them
takes anything away: `Grows p q` is what every operation has in common --- libraries
and registry are extended at the end, and a cell that has been filled keeps what it
holds.
-/

namespace Linkage
namespace Process

variable {p q r : Process}

/-! ## Reporting and asking -/

/-- `q` is `p` up to what has been reported and the verdicts that have been given. -/
structure Heard (p q : Process) : Prop where
  host : q.host = p.host
  inProcessMade : q.inProcessMade = p.inProcessMade
  libraries : q.libraries = p.libraries
  registry : q.registry = p.registry
  loaders : q.loaders = p.loaders
  bridges : q.bridges = p.bridges
  held : q.held = p.held

namespace Heard

@[refl] theorem refl (p : Process) : Heard p p := ⟨rfl, rfl, rfl, rfl, rfl, rfl, rfl⟩

theorem trans (h : Heard p q) (h' : Heard q r) : Heard p r where
  host := h'.host.trans h.host
  inProcessMade := h'.inProcessMade.trans h.inProcessMade
  libraries := h'.libraries.trans h.libraries
  registry := h'.registry.trans h.registry
  loaders := h'.loaders.trans h.loaders
  bridges := h'.bridges.trans h.bridges
  held := h'.held.trans h.held

theorem loader (h : Heard p q) (l : LoaderId) : q.loader l = p.loader l := by
  rw [Process.loader, h.loaders, Process.loader]

theorem bridge (h : Heard p q) (b : BridgeId) : q.bridge b = p.bridge b := by
  rw [Process.bridge, h.bridges, Process.bridge]

theorem pathOf (h : Heard p q) (i : Handle) : q.pathOf i = p.pathOf i := by
  rw [Process.pathOf, h.libraries, Process.pathOf]

theorem registered? (h : Heard p q) (key : Path) : q.registered? key = p.registered? key := by
  rw [Process.registered?, h.registry, Process.registered?]

end Heard

theorem heard_reports (p : Process) (journal : List Report) (watches : List Watch) :
    Heard p { p with journal := journal, watches := watches } :=
  ⟨rfl, rfl, rfl, rfl, rfl, rfl, rfl⟩

theorem heard_note (p : Process) (n : Notice) : Heard p (p.note n) := heard_reports ..

theorem heard_noteAll (p : Process) (ns : List Notice) : Heard p (p.noteAll ns) :=
  heard_reports ..

theorem heard_record (p : Process) (watch : Option WatchId) (use : String → Use) :
    Heard p (p.record watch use) := by
  unfold record
  split
  · exact heard_reports ..
  · rfl

theorem heard_takeVerdict (p : Process) (watch : Option WatchId) (kind : UseKind) :
    Heard p (p.takeVerdict watch kind).2 := by
  unfold takeVerdict
  split
  · rfl
  · split
    · rfl
    · exact heard_reports ..

theorem heard_ask (p : Process) (watch : Option WatchId) (kind : UseKind) (use : String → Use) :
    Heard p (p.ask watch kind use).2 :=
  (heard_record ..).trans (heard_takeVerdict ..)

theorem heard_locateAt (p : Process) (origin : Origin) (library : String) :
    Heard p (p.locateAt origin library).2 := by
  unfold locateAt
  cases origin with
  | inProcess s => simp only; split <;> rfl
  | system dirs => simp only; split <;> exact heard_noteAll ..

theorem heard_locateUnder (p : Process) (s : Source) (library : String) (v : Verdict) :
    Heard p (p.locateUnder s library v).2 := by
  unfold locateUnder
  split
  all_goals first
    | rfl
    | (split
       · rfl
       · exact heard_locateAt ..)

theorem heard_locate (p : Process) (s : Source) (library : String) (owner : Option LoaderId) :
    Heard p (p.locate s library owner).2 := 
  (heard_ask ..).trans (heard_locateUnder ..)

theorem heard_findSymbol (p : Process) (h : Handle) (name : String) :
    Heard p (p.findSymbol h name).2 := by
  unfold findSymbol
  split
  · rfl
  · rename_i lib _
    have asked := heard_takeVerdict p lib.watch .symbol
    dsimp only
    split <;> dsimp only <;> first | exact asked | exact asked.trans (heard_record ..)

theorem heard_exportedDescriptor (p : Process) (h : Handle) (name : String) :
    Heard p (p.exportedDescriptor h name).2 := by
  have asked := heard_findSymbol p h (name ++ Signature.suffix)
  unfold exportedDescriptor
  split <;> rename_i found <;> rw [found] at asked <;> exact asked

theorem heard_resolve (p : Process) (h : Handle) (name : String) (declared : Signature) :
    Heard p (p.resolve h name declared).2 := by
  have looked := heard_findSymbol p h name
  unfold resolve
  split <;> rename_i found <;> rw [found] at looked
  · exact looked
  · exact looked
  · exact looked
  · split
    · exact looked
    · rename_i q _
      have described := looked.trans (heard_exportedDescriptor q h name)
      split <;> rename_i text <;> rw [text] at described
      · exact described
      · exact described
      · split
        · exact described.trans (heard_note ..)
        · exact described
      · exact described.trans (heard_note ..)

theorem heard_bind (p : Process) (b : BridgeId) (h : Handle) : Heard p (p.bind b h).2 := by
  have resolved := heard_resolve p h (p.bridge b).symbol .callable
  unfold bind
  split <;> rename_i done <;> rw [done] at resolved
  · exact resolved
  · exact resolved.trans (heard_note ..)
  · exact resolved.trans (heard_note ..)

theorem heard_classify (p : Process) (r : SymbolReference) (text : String) (answer : Int64) :
    Heard p (p.classify r text answer).2 := by
  unfold classify
  split <;> exact heard_note ..

theorem heard_invoke (p : Process) (r : SymbolReference) (text : String) :
    Heard p (p.invoke r text).2 := by
  unfold invoke
  split
  · rfl
  · exact heard_classify ..

/-! ## Cells -/

theorem loader_updateLoader (p : Process) (l k : LoaderId) (f : Loader → Loader) :
    (p.updateLoader l f).loader k =
      if l = k ∧ k < p.loaders.length then f (p.loader k) else p.loader k := by
  simp only [loader, updateLoader, List.getD_eq_getElem?_getD, List.getElem?_modify]
  by_cases hk : k < p.loaders.length
  · by_cases hl : l = k <;> simp [hk, hl]
  · simp [hk]

theorem bridge_updateBridge (p : Process) (b c : BridgeId) (f : Bridge → Bridge) :
    (p.updateBridge b f).bridge c =
      if b = c ∧ c < p.bridges.length then f (p.bridge c) else p.bridge c := by
  simp only [bridge, updateBridge, List.getD_eq_getElem?_getD, List.getElem?_modify]
  by_cases hc : c < p.bridges.length
  · by_cases hb : b = c <;> simp [hc, hb]
  · simp [hc]

theorem loader_setState (p : Process) (l k : LoaderId) (s : LoadState) :
    (p.setState l s).loader k =
      if l = k ∧ k < p.loaders.length then { p.loader k with state := s } else p.loader k :=
  loader_updateLoader ..

theorem loader_storeHandle (p : Process) (l k : LoaderId) (h : Handle) :
    (p.storeHandle l h).loader k =
      if l = k ∧ k < p.loaders.length then
        { p.loader k with handle := (p.loader k).handle.or (some h) } else p.loader k :=
  loader_updateLoader ..

theorem bridge_storeSymbol (p : Process) (b c : BridgeId) (r : SymbolReference) :
    (p.storeSymbol b r).bridge c =
      if b = c ∧ c < p.bridges.length then
        { p.bridge c with bound := (p.bridge c).bound.or (some r) } else p.bridge c :=
  bridge_updateBridge ..

@[simp] theorem handle_setState (p : Process) (l k : LoaderId) (s : LoadState) :
    ((p.setState l s).loader k).handle = (p.loader k).handle := by
  rw [loader_setState]
  split <;> rfl

@[simp] theorem library_setState (p : Process) (l k : LoaderId) (s : LoadState) :
    ((p.setState l s).loader k).library = (p.loader k).library := by
  rw [loader_setState]
  split <;> rfl

@[simp] theorem source_setState (p : Process) (l k : LoaderId) (s : LoadState) :
    ((p.setState l s).loader k).source = (p.loader k).source := by
  rw [loader_setState]
  split <;> rfl

@[simp] theorem library_storeHandle (p : Process) (l k : LoaderId) (h : Handle) :
    ((p.storeHandle l h).loader k).library = (p.loader k).library := by
  rw [loader_storeHandle]
  split <;> rfl

@[simp] theorem source_storeHandle (p : Process) (l k : LoaderId) (h : Handle) :
    ((p.storeHandle l h).loader k).source = (p.loader k).source := by
  rw [loader_storeHandle]
  split <;> rfl

/-- The handle that a loader has after one was to be written. -/
theorem handle_storeHandle (p : Process) (l k : LoaderId) (h : Handle) :
    ((p.storeHandle l h).loader k).handle =
      if l = k ∧ k < p.loaders.length then (p.loader k).handle.or (some h)
      else (p.loader k).handle := by
  rw [loader_storeHandle]
  split <;> rfl

@[simp] theorem loader_storeSymbol (p : Process) (b : BridgeId) (r : SymbolReference)
    (l : LoaderId) : (p.storeSymbol b r).loader l = p.loader l := rfl

@[simp] theorem owner_storeSymbol (p : Process) (b c : BridgeId) (r : SymbolReference) :
    ((p.storeSymbol b r).bridge c).loader = (p.bridge c).loader := by
  rw [bridge_storeSymbol]
  split <;> rfl

@[simp] theorem symbol_storeSymbol (p : Process) (b c : BridgeId) (r : SymbolReference) :
    ((p.storeSymbol b r).bridge c).symbol = (p.bridge c).symbol := by
  rw [bridge_storeSymbol]
  split <;> rfl

/-- What a bridge has bound after a function was to be written. -/
theorem bound_storeSymbol (p : Process) (b c : BridgeId) (r : SymbolReference) :
    ((p.storeSymbol b r).bridge c).bound =
      if b = c ∧ c < p.bridges.length then (p.bridge c).bound.or (some r)
      else (p.bridge c).bound := by
  rw [bridge_storeSymbol]
  split <;> rfl

/-! ## Opening a library -/

/-- The platform's loader changes nothing of the host but what it has mapped. -/
theorem host_mapFile (host : Host) (path : Path) :
    (host.mapFile path).2 = { host with mapped := (host.mapFile path).2.mapped } := by
  fun_cases Host.mapFile host path <;> rfl

theorem host_mapLibrary (host : Host) (path : Path) :
    (host.mapLibrary path).2 = { host with mapped := (host.mapLibrary path).2.mapped } := by
  fun_cases Host.mapLibrary host path with
  | case1 => rfl
  | case2 cs _ =>
    fun_cases Host.mapNamed host ⟨String.ofList cs⟩ with
    | case1 | case2 | case3 => rfl
    | case4 => exact host_mapFile ..

/-- A path that the platform's loader refuses leaves no trace in it. -/
theorem host_mapFile_of_none {host : Host} {path : Path}
    (h : (host.mapFile path).1 = none) : (host.mapFile path).2 = host := by
  revert h
  fun_cases Host.mapFile host path with
  | case1 | case3 | case4 => simp
  | case2 id _ index hindex =>
    -- a file that is mapped already is never refused
    have hlt := (List.findIdx?_eq_some_iff_findIdx_eq.mp hindex).1
    simp [List.getElem?_eq_getElem hlt]

theorem host_mapLibrary_of_none {host : Host} {path : Path}
    (h : (host.mapLibrary path).1 = none) : (host.mapLibrary path).2 = host := by
  revert h
  fun_cases Host.mapLibrary host path with
  | case1 => simp
  | case2 cs _ =>
    fun_cases Host.mapNamed host ⟨String.ofList cs⟩ with
    | case1 | case2 | case3 => simp
    | case4 => exact host_mapFile_of_none

/-- What opening a library may change beside the libraries: reports, verdicts, and
what the platform's loader has mapped. -/
structure Asked (p q : Process) : Prop where
  host : q.host = { p.host with mapped := q.host.mapped }
  inProcessMade : q.inProcessMade = p.inProcessMade
  registry : q.registry = p.registry
  loaders : q.loaders = p.loaders
  bridges : q.bridges = p.bridges
  held : q.held = p.held

theorem Heard.asked (h : Heard p q) : Asked p q where
  host := by rw [h.host]
  inProcessMade := h.inProcessMade
  registry := h.registry
  loaders := h.loaders
  bridges := h.bridges
  held := h.held

theorem Asked.trans (h : Asked p q) (h' : Asked q r) : Asked p r where
  host := by rw [h'.host, h.host]
  inProcessMade := h'.inProcessMade.trans h.inProcessMade
  registry := h'.registry.trans h.registry
  loaders := h'.loaders.trans h.loaders
  bridges := h'.bridges.trans h.bridges
  held := h'.held.trans h.held

theorem asked_tableAt (p : Process) (origin : Origin) (path : Path) :
    Asked p (p.tableAt origin path).2 := by
  unfold tableAt
  split
  · exact (Heard.refl p).asked
  · exact ⟨host_mapLibrary .., rfl, rfl, rfl, rfl, rfl⟩

theorem asked_tableUnder (p : Process) (s : Source) (path : Path) (v : Verdict) :
    Asked p (p.tableUnder s path v).2 := by
  have asked := asked_tableAt p s.origin path
  unfold tableUnder
  split
  all_goals first
    | exact (Heard.refl p).asked
    | (split <;> rename_i h <;> rw [h] at asked <;> exact asked)

theorem libraries_tableUnder (p : Process) (s : Source) (path : Path) (v : Verdict) :
    (p.tableUnder s path v).2.libraries = p.libraries := by
  have unchanged : (p.tableAt s.origin path).2.libraries = p.libraries := by
    unfold tableAt
    split <;> rfl
  unfold tableUnder
  split
  all_goals first
    | rfl
    | (split <;> rename_i h <;> rw [h] at unchanged <;> exact unchanged)

/-- Opening a library adds it at the end of the libraries, under the path it was asked
for at, or leaves them alone. -/
theorem openLibrary_spec (p : Process) (s : Source) (path : Path) (owner : Option LoaderId) :
    Asked p (p.openLibrary s path owner).2 ∧
      ((∃ table, (p.openLibrary s path owner).1 = .ok p.libraries.length ∧
          (p.openLibrary s path owner).2.libraries =
            p.libraries ++ [⟨path, table, s.watch⟩]) ∨
        (∀ h, (p.openLibrary s path owner).1 ≠ .ok h) ∧
          (p.openLibrary s path owner).2.libraries = p.libraries) := by
  unfold openLibrary
  extract_lets asked
  have heard : Heard p asked.2 := heard_ask ..
  have reached := heard.asked.trans (asked_tableUnder asked.2 s path asked.1)
  have unchanged := (libraries_tableUnder asked.2 s path asked.1).trans heard.libraries
  split <;> rename_i q h <;> rw [h] at reached unchanged
  · exact ⟨reached, Or.inr ⟨by simp, unchanged⟩⟩
  · exact ⟨reached, Or.inr ⟨by simp, unchanged⟩⟩
  · refine ⟨⟨reached.host, reached.inProcessMade, reached.registry, reached.loaders,
      reached.bridges, reached.held⟩, Or.inl ?_⟩
    simp only at unchanged
    exact ⟨_, by rw [addLibrary, unchanged], by rw [addLibrary, unchanged]⟩

end Process
end Linkage
