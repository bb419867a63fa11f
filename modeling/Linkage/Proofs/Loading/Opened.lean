import Linkage.Proofs.Bridge.Stages
import Linkage.Proofs.Loading.Origins

/-!
# What loaders enter into a history

A library that is opened for a loader over an in-process source holds the functions that are
registered with this source: the source has them at hand, and nothing is looked for on the
disk.  Only a watch that has its source open other functions could make it otherwise
(`Source.Opens`).

So whatever a loader enters into the history has come from its source: the path is an answer of
the source on the host of that load, and the library holds what the source opens
(`Process.Entered`).  A request enters nothing else, and neither does a call
(`entered_of_mem_loadEvents`, `entered_of_mem_callEvents`).
-/

namespace Linkage

open Process

/-- What a source may open, if its watch keeps to the terms. -/
inductive Source.Opens (terms : Terms) (table : SymbolTable) (s : Source) : Prop where
  /-- The watch has it open this. -/
  | supplied (may : terms s.watch .opening (.supply table))
  /-- It is what the origin has: of an in-process source its functions. -/
  | own (functions : ∀ u, s.origin = .inProcess u → table = .registered u.symbols)

namespace Process

variable {p q r : Process} {s : Source} {path : Path} {owner : Option LoaderId} {h : Handle}
  {l k : LoaderId} {b : BridgeId} {around : Host} {a : Load} {e : Event} {terms : Terms}

/-- The library that was opened in a load holds what the source of a loader may open. -/
def Holds (terms : Terms) (p : Process) (k : LoaderId) (a : Load) : Prop :=
  ∃ table, p.libraries[a.handle]? = some ⟨a.path, table, (p.loader k).source.watch⟩ ∧
    (p.loader k).source.Opens terms table

/-- A library was opened for a loader from its source. -/
structure OpenedFor (terms : Terms) (p : Process) (k : LoaderId) (around : Host) (a : Load) :
    Prop where
  valid : k < p.loaders.length
  locates : p.Locates terms k around a.path
  holds : p.Holds terms k a

/-- What an event says of a loader has come from its source. -/
def Entered (terms : Terms) (p : Process) : Event → Prop
  | .located _ _ => True
  | .opened k around a => p.OpenedFor terms k around a
  | .loaded k around a => k < p.loaders.length ∧ p.Locates terms k around a.path

theorem Holds.stays (holds : p.Holds terms k a) (stays : Stays p q) : q.Holds terms k a := by
  rw [Holds, stays.source_eq]
  exact holds.imp fun _ => And.imp_left (opened_of_extends stays.libraries)

theorem OpenedFor.grows (opened : p.OpenedFor terms k around a) (grows : Grows p q) :
    q.OpenedFor terms k around a where
  valid := Nat.lt_of_lt_of_le opened.valid grows.loaders
  locates := opened.locates.grows opened.valid grows
  holds := by
    rw [Holds, grows.source k opened.valid]
    exact opened.holds.imp fun _ => And.imp_left (opened_of_extends grows.libraries)

theorem Entered.grows (entered : p.Entered terms e) (grows : Grows p q) : q.Entered terms e := by
  cases e with
  | located => trivial
  | opened => exact OpenedFor.grows entered grows
  | loaded => exact ⟨Nat.lt_of_lt_of_le entered.1 grows.loaders, entered.2.grows entered.1 grows⟩

/-! ## Opening -/

/-- **What a source opens**: what is linked in is there already. -/
theorem opens_of_tableUnder (within : p.Within terms) {table : SymbolTable}
    (opened : (p.tableUnder s path (p.verdict s.watch .opening 0)).1 = .ok table) :
    s.Opens terms table := by
  have next := within.verdict s.watch .opening 0
  generalize p.verdict s.watch .opening 0 = v at opened next
  cases v with
  | fail | panic | refuse => exact absurd opened (by simp [tableUnder])
  | pass | place =>
    refine .own fun u linked => ?_
    simpa [tableUnder, tableAt, linked, eq_comm] using opened
  | supply other =>
    obtain rfl := Outcome.ok.inj opened
    exact .supplied (next.resolve_left (by simp))

/-- A request to open a library that succeeds has got its functions. -/
theorem table_of_openLibrary (opening : p.openLibrary s path owner = (.ok h, q)) :
    ∃ table, (p.tableUnder s path (p.verdict s.watch .opening 0)).1 = .ok table ∧
      q.libraries[h]? = some ⟨path, table, s.watch⟩ := by
  rcases under : (p.tableUnder s path (p.verdict s.watch .opening 0)).1 with table | e | _
  · obtain ⟨handle, libraries⟩ := openLibrary_of_ok under owner
    rw [opening] at handle libraries
    obtain rfl := Outcome.ok.inj handle
    dsimp only at libraries
    exact ⟨table, rfl, by simp [libraries]⟩
  · have failed := (openLibrary_of_error under owner).1
    exact absurd (congrArg Prod.fst opening) (by simp [failed])
  · have panicked := openLibrary_of_panic under owner
    exact absurd (congrArg Prod.fst opening) (by simp [panicked])

/-- What is opened for a loader holds what its source opens. -/
theorem holds_of_openLibrary (within : p.Within terms)
    (opening : p.openLibrary (p.loader k).source a.path owner = (.ok a.handle, q)) :
    q.Holds terms k a := by
  have asked := (openLibrary_spec p (p.loader k).source a.path owner).1
  rw [opening] at asked
  obtain ⟨table, got, here⟩ := table_of_openLibrary opening
  have same : q.loader k = p.loader k := by rw [loader, asked.loaders, loader]
  rw [Holds, same]
  exact ⟨table, here, opens_of_tableUnder within got⟩

/-! ## Requests and calls -/

/-- An opening is entered by an attempt that has opened a library. -/
theorem of_mem_attemptEvents (mem : .opened k around a ∈ p.attemptEvents l) :
    k = l ∧ around = p.host ∧ (p.load l).1 = .ok a ∧ a.opened = true := by
  unfold attemptEvents at mem
  split at mem
  · rename_i load
    split at mem
    · rename_i new
      obtain ⟨rfl, rfl, rfl⟩ : k = l ∧ around = p.host ∧ a = _ := by simpa using mem
      exact ⟨rfl, rfl, load, new⟩
    · exact absurd mem (by simp)
  · exact absurd mem (by simp)
  · exact absurd mem List.not_mem_nil

theorem of_mem_loadEvents (mem : .opened k around a ∈ p.loadEvents l) :
    k = l ∧ around = p.host ∧ (p.loader l).handle = none ∧
      ((p.setState l .loading).load l).1 = .ok a ∧ a.opened = true := by
  rw [loadEvents] at mem
  split at mem
  · exact absurd mem List.not_mem_nil
  · rename_i handle
    rcases List.mem_append.mp mem with attempt | done
    · obtain ⟨rfl, around, load, new⟩ := of_mem_attemptEvents attempt
      exact ⟨rfl, around, handle, load, new⟩
    · split at done <;> exact absurd done (by simp)

/-- An attempt that opens a library opens it from the source of its loader. -/
theorem holds_of_load (within : p.Within terms) (load : p.load l = (.ok a, q))
    (new : a.opened = true) : q.Holds terms l a := by
  have attempt := attempt_load p l
  rw [load] at attempt
  dsimp only at attempt
  cases attempt with
  | reused => exact absurd new (by simp)
  | @opened path i r _ asked registered opening =>
    have heard := heard_locate p (p.loader l).source (p.loader l).library (some l)
    have dwindles := dwindles_locate p (p.loader l).source (p.loader l).library (some l)
    rw [asked] at heard dwindles
    rw [← heard.loader] at opening
    exact (holds_of_openLibrary (a := ⟨path, _, i, true⟩) (within.dwindles dwindles)
      opening).stays (stays_register ..)

theorem openedFor_of_mem_loadEvents (within : p.Within terms) (valid : l < p.loaders.length)
    (mem : .opened k around a ∈ p.loadEvents l) :
    (p.ensureLoaded l).2.OpenedFor terms k around a := by
  obtain ⟨rfl, rfl, handle, ok, new⟩ := of_mem_loadEvents mem
  have begun : (p.setState k .loading).Within terms := within.dwindles (.of_watches rfl rfl)
  have attempt := attempt_load (p.setState k .loading) k
  rcases load : (p.setState k .loading).load k with ⟨o, q⟩
  rw [load] at ok attempt
  obtain rfl : o = .ok a := ok
  have locates := locates_of_load begun (congrArg Prod.fst load)
  have holds := holds_of_load begun load new
  have all := stays_ensureLoaded p k
  rw [(Loads.loads handle attempt).eq_ensureLoaded] at all ⊢
  refine ⟨all.loaders_eq.symm ▸ valid, ?_, holds.stays ?_⟩
  · refine Locates.stays ?_ all
    rwa [Locates, source_setState, library_setState] at locates
  · exact ((stays_storeHandle ..).trans (stays_setState ..)).trans (heard_note ..).stays

/-- **What a request enters into the history has come from the source of its loader.** -/
theorem entered_of_mem_loadEvents (within : p.Within terms) (valid : l < p.loaders.length)
    (mem : e ∈ p.loadEvents l) : (p.ensureLoaded l).2.Entered terms e := by
  have stays := stays_ensureLoaded p l
  cases e with
  | located => trivial
  | opened k around a => exact openedFor_of_mem_loadEvents within valid mem
  | loaded k around a =>
    obtain ⟨rfl, locates⟩ := locates_of_loaded within mem
    exact ⟨stays.loaders_eq.symm ▸ valid, locates.stays stays⟩

theorem entered_of_mem_callEvents (within : p.Within terms) (bounds : BridgesBound p)
    (valid : (p.bridge b).loader < p.loaders.length) {text : String}
    (mem : e ∈ p.callEvents b) : (p.call b text).2.Entered terms e := by
  rw [callEvents] at mem
  split at mem
  · exact absurd mem List.not_mem_nil
  · have entered := entered_of_mem_loadEvents within valid mem
    exact entered.grows (stays_call_of_load bounds b text).toGrows

end Process
end Linkage
