import Linkage.Proofs.Pool.Origins
import Linkage.Proofs.Session.Reach

/-!
# The sources of a session

Every source of a session was made by a command, with a watch of its own and a script for the
watch; what a name or a loader has is a copy.  The commands of a session alone say which sources
it makes (`makes`), so a condition on the sources of a run is one on this list: where a source
may claim a library to be is a matter of the place and of the script that it was made with
(`Source.Claims`).

`Sourced s made` relates the list to what the session has become.  The watches are numbered in
the order in which the sources were made, the verdicts that are still to come are those of the
scripts, less what has been used up, and names and loaders have no other sources than these,
but for loaders over the disk that nobody watches.  An in-process source among them has a number
that was given, and the functions that were registered with it and with the source that it was
copied from.  Every command keeps this (`Sourced.step`), so it holds behind all commands
(`sourced_after`).
-/

namespace Linkage

open Process

/-- A source claims a library to be at a place if every library is said to be there, or if a
verdict of its script says so. -/
def Source.Claims (s : Source) (script : Script) (path : Path) : Prop :=
  s.fixed = some path ∨ .place path ∈ script.locate

namespace Session

variable {s : Session} {ev : History} {cs : List Command} {made : List (Source × Script)}
  {source : Source} {script : Script}

/-! ## What commands make -/

/-- The source that a command makes, with the script it is made with. -/
def sourceOf? (s : Session) : Command → Option (Source × Script)
  | .source _ base fixed script =>
    (s.originOf base).map fun (origin, _) =>
      (⟨origin, fixed, some s.process.watches.length⟩, script)
  | _ => none

/-- The sources that commands make, in order. -/
def makes (s : Session) : List Command → List (Source × Script)
  | [] => []
  | c :: cs => (s.sourceOf? c).toList ++ (s.step c).2.makes cs

/-- What is made was asked for. -/
theorem mem_of_mem_makes {m : Source × Script} (mem : m ∈ s.makes cs) :
    ∃ name base, .source name base m.1.fixed m.2 ∈ cs := by
  induction cs generalizing s with
  | nil => exact absurd mem List.not_mem_nil
  | cons c cs ih =>
    rcases List.mem_append.mp mem with now | later
    · cases c with
      | source name base fixed script =>
        obtain ⟨⟨origin, p⟩, -, rfl⟩ := Option.map_eq_some_iff.mp (Option.mem_toList.mp now)
        exact ⟨name, base, List.mem_cons_self⟩
      | _ => exact absurd now List.not_mem_nil
    · obtain ⟨name, base, mem⟩ := ih later
      exact ⟨name, base, List.mem_cons_of_mem _ mem⟩

/-- The verdicts of the scripts, each for the watch of its source. -/
def terms (made : List (Source × Script)) : Terms :=
  fun watch kind v => ∃ m ∈ made, m.1.watch = watch ∧ v ∈ m.2.on kind

/-! ## What has been made -/

/-- A source searches the disk with nobody watching, or it is one of those that were made. -/
def Known (made : List (Source × Script)) (source : Source) : Prop :=
  (∃ dirs, source = .system dirs) ∨ ∃ script, (source, script) ∈ made

theorem Known.append (known : Known made source) (more : List (Source × Script)) :
    Known (made ++ more) source :=
  known.imp id fun ⟨script, mem⟩ => ⟨script, List.mem_append_left _ mem⟩

/-- The sources of a session are those that were made. -/
structure Sourced (s : Session) (made : List (Source × Script)) : Prop where
  numbers : made.map (·.1.watch) = (List.range s.process.watches.length).map some
  within : s.process.Within (terms made)
  sound : ∀ m ∈ made, m.1.Sound s.process.inProcessMade
  names : ∀ e ∈ s.sources, ∃ script, (e.2, script) ∈ made
  loaders : ∀ l, Known made (s.process.loader l).source

theorem sourced_start (host : Host) : Sourced (start host) [] where
  numbers := rfl
  within := fun watch kind v mem => by cases watch <;> exact absurd mem List.not_mem_nil
  sound := fun _ mem => absurd mem List.not_mem_nil
  names := fun _ mem => absurd mem List.not_mem_nil
  loaders := fun _ => Or.inl ⟨[], rfl⟩

/-- An in-process source that is made has as its number how many were made before. -/
theorem id_of_linked {library : String} {functions : List (String × Function)} {t : InProcess}
    {p : Process} (found : s.originOf (.linked library functions) = some (.inProcess t, p)) :
    t.id = s.process.inProcessMade := by
  cases found
  exact (InProcess.withSymbols_leaves ..).1

namespace Sourced

/-- A watch says no more than what is in the script of its source. -/
theorem mem_script (h : Sourced s made) (mem : (source, script) ∈ made) {kind : UseKind}
    {v : Verdict} (may : terms made source.watch kind v) : v ∈ script.on kind := by
  obtain ⟨m, among, watch, ready⟩ := may
  have distinct : (made.map (·.1.watch)).Nodup :=
    h.numbers ▸ List.nodup_range.map (Option.some_injective _)
  obtain rfl := List.inj_on_of_nodup_map distinct among mem watch
  exact ready

/-- A source that nobody watches has nothing said for it. -/
theorem not_terms_none (h : Sourced s made) {kind : UseKind} {v : Verdict} :
    ¬ terms made none kind v := by
  rintro ⟨m, among, watch, -⟩
  have numbered : m.1.watch ∈ (List.range s.process.watches.length).map some :=
    h.numbers ▸ List.mem_map_of_mem among
  simp [watch] at numbered

/-! ## Changes to a session -/

/-- Sources are used, and none is made. -/
theorem goesOn (h : Sourced s made) {s' : Session} (dwindles : s.process.Dwindles s'.process)
    (loaders : ∀ l, (s'.process.loader l).source = (s.process.loader l).source)
    (names : s'.sources ⊆ s.sources) : Sourced s' made where
  numbers := dwindles.count.symm ▸ h.numbers
  within := h.within.dwindles dwindles
  sound := dwindles.inProcessMade.symm ▸ h.sound
  names := fun e mem => h.names e (names mem)
  loaders := fun l => loaders l ▸ h.loaders l

/-- The answer of an operation is kept under names that stand for no source. -/
theorem conclude {α : Type} (h : Sourced s made) {kept : Session → α → Reply × Session}
    {r : Outcome α × Process} (dwindles : s.process.Dwindles r.2)
    (loaders : ∀ l, (r.2.loader l).source = (s.process.loader l).source)
    (names : ∀ s a, (kept s a).2.process = s.process ∧ (kept s a).2.sources = s.sources) :
    Sourced (s.conclude kept r).2 made := by
  obtain ⟨o, p⟩ := r
  cases o with
  | panic | error => exact h.goesOn dwindles loaders (List.Subset.refl _)
  | ok a =>
    obtain ⟨process, sources⟩ := names (s.withProcess p) a
    refine h.goesOn ?_ ?_ ?_
    · exact process.symm ▸ dwindles
    · exact process.symm ▸ loaders
    · exact sources.symm ▸ List.Subset.refl _

/-- A command that names nothing changes nothing. -/
theorem withNamed {α : Type} (h : Sourced s made) {things : Named α} {name : String}
    {f : α → Reply × Session}
    (found : ∀ a, things.get? name = some a → Sourced (f a).2 made) :
    Sourced (s.withNamed things name f).2 made := by
  rw [Session.withNamed]
  rcases get : things.get? name with _ | a
  · exact h
  · exact found a get

/-- A loader is made over a source that is known. -/
theorem withLoader (h : Sourced s made) (known : Known made source) {s' : Session}
    {library : String} (watches : s'.process.watches = s.process.watches)
    (inProcessMade : s'.process.inProcessMade = s.process.inProcessMade)
    (loaders : s'.process.loaders = s.process.loaders ++ [.fresh library source])
    (names : s'.sources = s.sources) : Sourced s' made where
  numbers := watches.symm ▸ h.numbers
  within := h.within.dwindles (.of_watches watches inProcessMade)
  sound := inProcessMade.symm ▸ h.sound
  names := names.symm ▸ h.names
  loaders := fun l => by
    have same : s'.process.loader l = (s.process.newLoader library source).2.loader l := by
      rw [loader, loaders]
      rfl
    rw [same]
    rcases Nat.lt_trichotomy l s.process.loaders.length with hl | rfl | hl
    · rw [loader_newLoader_of_lt library source hl]
      exact h.loaders l
    · simpa [newLoader, loader, Loader.fresh] using known
    · rw [loader_of_le (by simp only [newLoader, List.length_append, List.length_singleton]; omega)]
      exact Or.inl ⟨[], rfl⟩

/-! ## Making sources -/

/-- An in-process source has a number that has been given, and functions that have been
registered. -/
theorem sound_of_originOf (h : Sourced s made) {base : Base} {origin : Origin} {p : Process}
    (found : s.originOf base = some (origin, p)) {t : InProcess} (ht : origin = .inProcess t) :
    t.id < p.inProcessMade ∧ ∃ functions, t.Built functions := by
  have given : ∀ {e : String × Source}, e ∈ s.sources → ∀ {u : InProcess},
      e.2.origin = .inProcess u →
        u.id < s.process.inProcessMade ∧ ∃ functions, u.Built functions := by
    intro e mem u linked
    obtain ⟨script, among⟩ := h.names e mem
    exact ⟨(h.sound _ among).numbered u linked, (h.sound _ among).built u linked⟩
  cases base with
  | clone source =>
    obtain ⟨named, get, he⟩ := Option.map_eq_some_iff.mp found
    cases he
    exact given (Named.mem_of_get? get) ht
  | extended source more =>
    obtain ⟨u, same, rfl, rfl⟩ := origin_of_extended found
    obtain ⟨named, get, linked⟩ := Option.map_eq_some_iff.mp same
    obtain rfl := Origin.inProcess.inj ht
    obtain ⟨numbered, functions, built⟩ := given (Named.mem_of_get? get) linked
    rw [(InProcess.withSymbols_leaves ..).1]
    exact ⟨numbered, _, built.withSymbols more⟩
  | disk c =>
    cases found
    exact Origin.noConfusion ht
  | linked library functions =>
    subst ht
    refine ⟨?_, functions, ?_⟩
    · have next : p.inProcessMade = s.process.inProcessMade + 1 := by cases found; rfl
      rw [id_of_linked found, next]
      exact Nat.lt_succ_self _
    · cases found
      exact InProcess.built_new ..

/-- **A source that is made gets the next number and its script.** -/
theorem makeSource (h : Sourced s made) (name : String) (base : Base) (fixed : Option Path)
    (script : Script) : Sourced (s.makeSource name base fixed script).2
      (made ++ (s.sourceOf? (.source name base fixed script)).toList) := by
  rw [Session.makeSource, sourceOf?]
  rcases found : s.originOf base with _ | ⟨origin, p⟩
  · simpa using h
  have sound : ∀ t, origin = .inProcess t →
      t.id < p.inProcessMade ∧ ∃ functions, t.Built functions :=
    fun t ht => h.sound_of_originOf found ht
  obtain ⟨count, more, rfl⟩ := process_of_originOf found
  refine ⟨?_, fun watch kind v mem => ?_, fun m mem => ?_, fun e mem => ?_,
    fun l => (h.loaders l).append _⟩
  · simp [newWatch, Session.withProcess, List.range_succ, h.numbers]
  · rcases mem_coming_of_append rfl mem with old | ⟨new, ready⟩
    · obtain ⟨m, among, may⟩ := h.within watch kind v old
      exact ⟨m, List.mem_append_left _ among, may⟩
    · exact ⟨_, List.mem_append_right _ (List.mem_singleton_self _), new.symm, ready⟩
  · rcases List.mem_append.mp mem with old | new
    · exact (h.sound m old).mono more
    · obtain rfl := List.mem_singleton.mp new
      exact ⟨fun t ht => (sound t ht).1, fun t ht => (sound t ht).2⟩
  · rcases Named.mem_of_mem_put mem with old | rfl
    · obtain ⟨script, among⟩ := h.names e old
      exact ⟨script, List.mem_append_left _ among⟩
    · exact ⟨script, List.mem_append_right _ (List.mem_singleton_self _)⟩

/-! ## Commands -/

theorem makeBridge (h : Sourced s made) (name : String) (config : Except Config.Error Config)
    (source : Option String) : Sourced (s.makeBridge name config source).2 made := by
  unfold Session.makeBridge
  split
  · exact h
  · split
    · exact h.withLoader (Or.inl ⟨_, rfl⟩) rfl rfl rfl rfl
    · split
      · exact h
      · rename_i get
        exact h.withLoader (Or.inr (h.names _ (Named.mem_of_get? get))) rfl rfl rfl rfl

/-- A loader is asked for its handle. -/
theorem ensureLoaded (h : Sourced s made) (l : LoaderId) (keep : Option String) :
    Sourced (s.ensureLoaded l keep).2 made :=
  h.conclude (dwindles_ensureLoaded ..) (stays_ensureLoaded ..).source_eq
    fun s a => by cases keep <;> exact ⟨rfl, rfl⟩

/-- A command that makes no source uses those that are there. -/
theorem step_of_none (h : Sourced s made) (kept : Kept s ev) {c : Command}
    (none : s.sourceOf? c = none) : Sourced (s.step c).2 made := by
  cases c with
  | source name base fixed script =>
    have next := h.makeSource name base fixed script
    rwa [none, Option.toList_none, List.append_nil] at next
  | change | setLibraryPath =>
    exact h.goesOn (.of_watches rfl rfl) (fun _ => rfl) (List.Subset.refl _)
  | enter dir =>
    simp only [Session.step, Session.enter]
    split
    · exact h.goesOn (.of_watches rfl rfl) (fun _ => rfl) (List.Subset.refl _)
    · exact h
  | loader name source library =>
    simp only [Session.step, Session.makeLoader]
    split
    · exact h
    · rename_i get
      exact h.withLoader (Or.inr (h.names _ (Named.mem_of_get? get))) rfl rfl rfl rfl
  | bridge => exact h.makeBridge ..
  | drop => exact h.goesOn (.of_watches rfl rfl) (fun _ => rfl) fun _ => Named.mem_of_mem_erase
  | locate source library =>
    refine h.withNamed fun a _ => ?_
    exact h.conclude (dwindles_locate ..) (heard_locate ..).stays.source_eq fun _ _ => ⟨rfl, rfl⟩
  | look handle symbol =>
    refine h.withNamed fun a _ => ?_
    exact h.conclude (dwindles_findSymbol ..) (heard_findSymbol ..).stays.source_eq
      fun _ _ => ⟨rfl, rfl⟩
  | bind handle symbol keep declared =>
    refine h.withNamed fun a _ => ?_
    exact h.conclude (dwindles_resolve ..) (heard_resolve ..).stays.source_eq
      fun _ _ => ⟨rfl, rfl⟩
  | describeLoader | describeHandle | describeBridge | invoke => exact h.withNamed fun _ _ => h
  | compare => exact h.withNamed fun _ _ => h.withNamed fun _ _ => h
  | load loader keep => exact h.withNamed fun l _ => h.ensureLoaded l keep
  | loadBridge bridge keep => exact h.withNamed fun b _ => h.ensureLoaded _ keep
  | call bridge text =>
    refine h.withNamed fun b get => ?_
    have stays := (kept.rest.bounds.call (kept.rest.owners b
      (kept.bridges _ (Named.mem_of_get? get))) text).1
    exact h.conclude (dwindles_call ..) stays.source_eq fun _ _ => ⟨rfl, rfl⟩
  | callMany bridge text threads =>
    refine h.withNamed fun b _ => ?_
    have run := (Pool.ofCall s.process b text threads).run_moments 0
    exact h.goesOn run.dwindles run.stays.source_eq (List.Subset.refl _)

/-- **Every command keeps the sources of a session to those that were made.** -/
theorem step (h : Sourced s made) (kept : Kept s ev) (c : Command) :
    Sourced (s.step c).2 (made ++ (s.sourceOf? c).toList) := by
  rcases makes : s.sourceOf? c with _ | m
  · rw [Option.toList_none, List.append_nil]
    exact h.step_of_none kept makes
  · rw [← makes]
    cases c with
    | source => exact h.makeSource ..
    | _ => exact absurd makes (by simp [sourceOf?])

end Sourced

/-- Behind all commands the sources of a session are those that they have made. -/
theorem sourced_after (host : Host) (cs : List Command) :
    Sourced ((start host).after cs) ((start host).makes cs) := by
  suffices all : ∀ (s : Session) ev made, Kept s ev → Sourced s made →
      Sourced (s.after cs) (made ++ s.makes cs) from
    all (start host) [] [] (kept_start host) (sourced_start host)
  induction cs with
  | nil =>
    intro s ev made _ h
    rwa [makes, List.append_nil]
  | cons c cs ih =>
    intro s ev made kept h
    rw [makes, ← List.append_assoc]
    exact ih _ _ _ (kept.step c).1 (h.step kept c)

end Session
end Linkage
