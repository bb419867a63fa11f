import Linkage.Proofs.Loading.Attempt
import Linkage.Proofs.Loading.Places
import Linkage.Proofs.Process.Dwindling

/-!
# What sources answer

A source that is asked where a library is has one of three answers (`Source.Locates`): the place
that is fixed for it, a place that its watch claims, or what its origin offers, which is for an
in-process source the place that goes with its number and for the system a file that is there
(`Origin.Offers`).  Which places a watch may claim is a matter of its script, and scripts are
only used up; so under the terms on which its sources are watched (`Process.Within`) every load
of a process has its path from the answer of the source of its loader on the host of that load
(`locates_of_loaded`).

An in-process source is made with a number and without functions, and functions are then
registered with it and with its copies, one after the other (`InProcess.Built`); under each
name the one that was registered last is found (`InProcess.Built.get?`).
-/

namespace Linkage

/-! ## Registered functions -/

namespace InProcess

variable {s : InProcess} {functions more : List (String × Function)} {name : String}

/-- The function that was registered last under a name. -/
def lastUnder (functions : List (String × Function)) (name : String) : Option Function :=
  (functions.reverse.find? fun f => f.1 = name).map (·.2)

/-- **The last registration under a name counts**, and without one what was there before. -/
theorem get?_withSymbols (s : InProcess) (functions : List (String × Function)) (name : String) :
    (s.withSymbols functions).symbols.get? name =
      (lastUnder functions name).or (s.symbols.get? name) := by
  induction functions generalizing s with
  | nil => rfl
  | cons f functions ih =>
    have first : (s.withSymbol f.1 f.2).symbols.get? name =
        (([f].find? fun f => f.1 = name).map (·.2)).or (s.symbols.get? name) := by
      by_cases own : f.1 = name
      · subst own
        simp [withSymbol]
      · rw [withSymbol, Named.get?_put_of_ne _ (Ne.symm own)]
        simp [own]
    rw [withSymbols, List.foldl_cons, ← withSymbols, ih, first, lastUnder, lastUnder,
      List.reverse_cons, List.find?_append, Option.map_or, Option.or_assoc]

/-- A source with which these functions have been registered since it was made. -/
def Built (s : InProcess) (functions : List (String × Function)) : Prop :=
  s = (⟨s.id, s.library, []⟩ : InProcess).withSymbols functions

theorem Built.get? (h : s.Built functions) (name : String) :
    s.symbols.get? name = lastUnder functions name := by
  rw [h, get?_withSymbols]
  exact Option.or_none ..

theorem built_new (id : Nat) (library : String) (functions : List (String × Function)) :
    ((⟨id, library, []⟩ : InProcess).withSymbols functions).Built functions := by
  obtain ⟨number, name⟩ := withSymbols_leaves ⟨id, library, []⟩ functions
  rw [Built, number, name]

/-- Functions that are registered with a copy come behind those that were registered before. -/
theorem Built.withSymbols (h : s.Built functions) (more : List (String × Function)) :
    (s.withSymbols more).Built (functions ++ more) := by
  obtain ⟨number, library⟩ := withSymbols_leaves s more
  rw [Built, number, library]
  refine (congrArg (InProcess.withSymbols · more) h).trans ?_
  simp only [InProcess.withSymbols, List.foldl_append]

end InProcess

/-! ## Origins -/

/-- Where an origin may have a library on a host. -/
def Origin.Offers (library : String) (host : Host) (path : Path) : Origin → Prop
  | .inProcess s => library = s.library ∧ path = s.pathOf library
  | .system dirs =>
    path ∈ Search.candidates dirs library ∧ host.files.isFile host.cwd path = true

/-- Where a source may answer that a library is, if its watch keeps to the terms. -/
inductive Source.Locates (terms : Process.Terms) (library : String) (host : Host) (path : Path)
    (s : Source) : Prop where
  /-- Every library is claimed to be here. -/
  | fixed (place : s.fixed = some path)
  /-- The watch claims it to be here. -/
  | claimed (may : terms s.watch .locate (.place path))
  /-- It is where the origin has it. -/
  | offered (free : s.fixed = none) (offers : s.origin.Offers library host path)

/-- A source that, if it is an in-process one, has a number that has been given and functions
that have been registered. -/
structure Source.Sound (made : Nat) (s : Source) : Prop where
  numbered : ∀ t, s.origin = .inProcess t → t.id < made
  built : ∀ t, s.origin = .inProcess t → ∃ functions, t.Built functions

theorem Source.Sound.mono {made more : Nat} {s : Source} (h : s.Sound made) (le : made ≤ more) :
    s.Sound more :=
  ⟨fun t ht => Nat.lt_of_lt_of_le (h.numbered t ht) le, h.built⟩

theorem Source.sound_system (made : Nat) (dirs : List Path) : (Source.system dirs).Sound made :=
  ⟨fun _ ht => Origin.noConfusion ht, fun _ ht => Origin.noConfusion ht⟩

namespace Process

variable {p q : Process} {l k : LoaderId} {host : Host} {path : Path} {a : Load}
  {library : String} {terms : Terms}

/-- Where the source of a loader may answer that its library is. -/
def Locates (terms : Terms) (p : Process) (l : LoaderId) (host : Host) (path : Path) : Prop :=
  (p.loader l).source.Locates terms (p.loader l).library host path

/-! ## What stays as it is -/

theorem Stays.source_eq (h : Stays p q) (l : LoaderId) :
    (q.loader l).source = (p.loader l).source := by
  rcases Nat.lt_or_ge l p.loaders.length with hl | hl
  · exact h.source l hl
  · rw [loader_of_le hl, loader_of_le (h.loaders_eq ▸ hl)]

theorem Stays.library_eq (h : Stays p q) (l : LoaderId) :
    (q.loader l).library = (p.loader l).library := by
  rcases Nat.lt_or_ge l p.loaders.length with hl | hl
  · exact h.library l hl
  · rw [loader_of_le hl, loader_of_le (h.loaders_eq ▸ hl)]

/-- What an origin offers depends on the disk and the working directory. -/
theorem offers_of_host {origin : Origin} {around : Host} (h : origin.Offers library host path)
    (files : around.files = host.files) (cwd : around.cwd = host.cwd) :
    origin.Offers library around path := by
  cases origin with
  | inProcess s => exact h
  | system dirs => exact ⟨h.1, by rw [files, cwd, h.2]⟩

theorem Locates.stays (h : p.Locates terms l host path) (stays : Stays p q) :
    q.Locates terms l host path := by
  rw [Locates, stays.source_eq, stays.library_eq]
  exact h

theorem Locates.of_host {around : Host} (h : p.Locates terms l host path)
    (files : around.files = host.files) (cwd : around.cwd = host.cwd) :
    p.Locates terms l around path := by
  cases h with
  | fixed place => exact .fixed place
  | claimed may => exact .claimed may
  | offered free offers => exact .offered free (offers_of_host offers files cwd)

theorem Locates.grows (h : p.Locates terms l host path) (valid : l < p.loaders.length)
    (grows : Grows p q) : q.Locates terms l host path := by
  rw [Locates, grows.source l valid, grows.library l valid]
  exact h

/-! ## What a source answers -/

theorem offers_of_locateAt {origin : Origin}
    (found : (p.locateAt origin library).1 = .ok path) : origin.Offers library p.host path := by
  unfold locateAt at found
  cases origin with
  | inProcess s =>
    dsimp only at found
    split at found
    · rename_i own
      exact ⟨own, (Outcome.ok.inj found).symm⟩
    · exact absurd found (by simp)
  | system dirs =>
    dsimp only at found
    split at found
    · rename_i probed
      obtain rfl := Outcome.ok.inj found
      exact Search.of_probe probed
    · exact absurd found (by simp)

/-- **What a source answers when it is asked.** -/
theorem locates_of_locate {s : Source} {owner : Option LoaderId} (within : p.Within terms)
    (asked : p.locate s library owner = (.ok path, q)) : s.Locates terms library p.host path := by
  have answer := (locate_spec p s library owner).1
  have next := within.verdict s.watch .locate 0
  rw [asked] at answer
  generalize p.verdict s.watch .locate 0 = v at answer next
  unfold locateUnder at answer
  cases v with
  | fail | panic | refuse => exact absurd answer (by simp)
  | place place =>
    obtain rfl := Outcome.ok.inj answer
    exact .claimed (next.resolve_left (by simp))
  | pass | supply =>
    rcases hs : s.fixed with _ | place
    · exact .offered hs (offers_of_locateAt (by simpa [hs, eq_comm] using answer))
    · exact .fixed (by simpa [hs, eq_comm] using answer)

/-- The path of a load that succeeds is an answer of the source of the loader. -/
theorem locates_of_load (within : p.Within terms) (load : (p.load l).1 = .ok a) :
    p.Locates terms l p.host a.path := by
  have attempt := attempt_load p l
  generalize (p.load l).2 = q at attempt
  rw [load] at attempt
  cases attempt with
  | reused asked | opened asked => exact locates_of_locate within asked

/-! ## Loads and calls -/

theorem dwindles_load (p : Process) (l : LoaderId) : Dwindles p (p.load l).2 := by
  have attempt := attempt_load p l
  have located := dwindles_locate p (p.loader l).source (p.loader l).library (some l)
  have opened : ∀ {path o q r}, p.locate (p.loader l).source (p.loader l).library (some l) =
      (.ok path, q) → q.openLibrary (p.loader l).source path (some l) = (o, r) →
      Dwindles p r := by
    intro path o q r asked opening
    have opened := dwindles_openLibrary q (p.loader l).source path (some l)
    rw [asked] at located
    rw [opening] at opened
    exact located.trans opened
  rcases load : p.load l with ⟨o, q⟩
  rw [load] at attempt
  dsimp only at attempt ⊢
  cases attempt with
  | locatePanics asked | notLocated asked =>
    rw [asked] at located
    exact located
  | reused asked =>
    rw [asked] at located
    exact located.trans (.of_watches rfl rfl)
  | openPanics asked _ opening | notOpened asked _ opening => exact opened asked opening
  | opened asked _ opening => exact (opened asked opening).trans (.of_watches rfl rfl)

theorem dwindles_ensureLoaded (p : Process) (l : LoaderId) :
    Dwindles p (p.ensureLoaded l).2 := by
  rw [ensureLoaded]
  split
  · exact .of_watches rfl rfl
  · have begun : Dwindles p (p.setState l .loading) := .of_watches rfl rfl
    have tried := begun.trans (dwindles_load (p.setState l .loading) l)
    split <;> rename_i load <;> rw [load] at tried
    · exact tried
    · exact tried.trans (.of_watches rfl rfl)
    · exact tried.trans (.of_watches rfl rfl)

theorem dwindles_call (p : Process) (b : BridgeId) (text : String) :
    Dwindles p (p.call b text).2 := by
  have resolved : Dwindles p (p.resolved b).2 := by
    unfold Process.resolved
    split
    · exact .of_watches rfl rfl
    · have loaded := dwindles_ensureLoaded p (p.bridge b).loader
      split <;> rename_i load <;> rw [load] at loaded
      · exact loaded
      · exact loaded
      · rename_i h q
        have bound := loaded.trans (dwindles_bind q b h)
        split <;> rename_i bind <;> rw [bind] at bound
        · exact bound
        · exact bound
        · exact bound.trans (.of_watches rfl rfl)
  unfold call
  split <;> rename_i found <;> rw [found] at resolved
  · exact resolved
  · exact resolved
  · unfold invoke
    split
    · exact resolved
    · exact resolved.trans (dwindles_classify ..)

/-- **What a request enters into the history as a load is where the source of its loader
answers that the library is.** -/
theorem locates_of_loaded (within : p.Within terms) (loaded : .loaded k host a ∈ p.loadEvents l) :
    k = l ∧ p.Locates terms k host a.path := by
  rw [loadEvents] at loaded
  split at loaded
  · exact absurd loaded List.not_mem_nil
  rcases List.mem_append.mp loaded with attempt | done
  · unfold attemptEvents at attempt
    split at attempt
    · split at attempt <;> exact absurd attempt (by simp)
    · exact absurd attempt (by simp)
    · exact absurd attempt List.not_mem_nil
  · split at done
    · rename_i b load
      obtain ⟨rfl, rfl, rfl⟩ : k = l ∧ host = (p.setState l .loading).host ∧ a = b := by
        simpa using done
      have begun : (p.setState k .loading).Within terms := within.dwindles (.of_watches rfl rfl)
      have locates := locates_of_load begun load
      rw [Locates, source_setState, library_setState] at locates
      exact ⟨rfl, locates⟩
    · exact absurd done List.not_mem_nil

end Process
end Linkage
