import Linkage.Proofs.Pool.Account
import Linkage.Proofs.Pool.Bound
import Linkage.Session

/-!
# What a session reaches

A session is reached by commands from the start, and what its commands have done is its
history.  `Kept s ev` says how a session stands to its history between two commands: no
lock is held, the account of the registry is balanced, every bridge has bound what fits
it, and the names stand for objects that are there.  Every command keeps this and takes
nothing away (`Kept.step`), so both hold behind all commands (`kept_after`,
`Kept.after`).

The call from several threads at once is a command like the others.  What it needs is
that its threads come to an end and give back the locks they took, which is the absence
of deadlock.
-/

namespace Linkage

open Process

/-! ## A process between two commands -/

/-- How a process stands to its history while nothing is under way in it. -/
structure Rest (p : Process) (ev : History) : Prop extends Balanced p ev where
  held : p.held = []
  owners : ∀ b < p.bridges.length, (p.bridge b).loader < p.loaders.length
  bounds : BridgesBound p

namespace Rest

variable {p q : Process} {ev ev' : History} {b : BridgeId} {l : LoaderId}

theorem start (host : Host) : Rest (.start host) [] where
  toBalanced := .start host
  held := rfl
  owners := fun b hb => absurd hb (Nat.not_lt_zero b)
  bounds := fun b r hr => absurd hr (by simp [bridge, Process.start, default])

/-- Nothing but the surroundings, the sources and the reports may change. -/
theorem of_eq (h : Rest p ev) (libraries : q.libraries = p.libraries)
    (registry : q.registry = p.registry) (loaders : q.loaders = p.loaders)
    (bridges : q.bridges = p.bridges) (held : q.held = p.held) : Rest q ev ∧ Grows p q := by
  have grows : Grows p q :=
    .of_cells (libraries ▸ List.prefix_refl _) (registry ▸ List.prefix_refl _) loaders bridges
  refine ⟨⟨⟨h.toAccount.frame registry grows.libraries (fun l => ?_) grows.loaders, ?_⟩,
    held.trans h.held, fun b hb => ?_, h.bounds.of_eq grows bridges⟩, grows⟩
  · rw [loader, loaders, loader]
  · rw [libraries, h.even]
  · rw [bridge, bridges, loaders, ← bridge]
    exact h.owners b (bridges ▸ hb)

theorem heard (h : Rest p ev) (heard : Heard p q) : Rest q ev ∧ Grows p q :=
  h.of_eq heard.libraries heard.registry heard.loaders heard.bridges heard.held

theorem newLoader (h : Rest p ev) (library : String) (source : Source) :
    Rest (p.newLoader library source).2 ev := by
  have grows := grows_newLoader p library source
  refine ⟨⟨h.toAccount.frame rfl (List.prefix_refl _) (handle_newLoader p library source)
      grows.loaders, h.even⟩, h.held, fun b hb => ?_, h.bounds.grows grows fun _ _ hr => hr⟩
  exact Nat.lt_of_lt_of_le (h.owners b hb) grows.loaders

/-- A new bridge over a loader that is there. -/
theorem appendBridge (h : Rest p ev) {c : Bridge} (hc : c.loader < p.loaders.length)
    (unbound : c.bound = none) : Rest { p with bridges := p.bridges ++ [c] } ev := by
  have grows := grows_appendBridge p c
  refine ⟨⟨h.toAccount.frame rfl (List.prefix_refl _) (fun _ => rfl) (Nat.le_refl _), h.even⟩,
    h.held, fun b hb => ?_, h.bounds.grows grows fun _ _ => bound_of_append unbound⟩
  rcases Nat.lt_or_ge b p.bridges.length with hb' | hb'
  · rw [bridge_append_of_lt c hb']
    exact h.owners b hb'
  · obtain rfl : b = p.bridges.length :=
      Nat.le_antisymm (Nat.le_of_lt_succ (by simpa using hb)) hb'
    rw [bridge_append_length]
    exact hc

theorem newBridge (h : Rest p ev) (library symbol : String) (source : Source) :
    Rest (p.newBridge library symbol source).2 ev ∧
      Grows p (p.newBridge library symbol source).2 :=
  ⟨(h.newLoader library source).appendBridge (by simp [Process.newLoader]) rfl,
    (grows_newLoader p library source).trans (grows_appendBridge ..)⟩

/-! ### Loads and calls -/

theorem stays_owners (h : Rest p ev) (stays : p.Stays q) :
    ∀ b < q.bridges.length, (q.bridge b).loader < q.loaders.length := fun b hb => by
  rw [stays.owner_eq, stays.loaders_eq]
  exact h.owners b (stays.bridges_eq ▸ hb)

theorem ensureLoaded (h : Rest p ev) (hl : l < p.loaders.length) :
    Rest (p.ensureLoaded l).2 (ev ++ p.loadEvents l) ∧ Grows p (p.ensureLoaded l).2 := by
  have stays := stays_ensureLoaded p l
  exact ⟨⟨h.toBalanced.ensureLoaded hl, (held_ensureLoaded p l).trans h.held, h.stays_owners stays,
    h.bounds.of_eq stays.toGrows (bridges_ensureLoaded p l)⟩, stays.toGrows⟩

theorem call (h : Rest p ev) (hb : b < p.bridges.length) (text : String) :
    Rest (p.call b text).2 (ev ++ p.callEvents b) ∧ Grows p (p.call b text).2 := by
  obtain ⟨stays, bounds⟩ := h.bounds.call (h.owners b hb) text
  exact ⟨⟨h.toBalanced.call (h.owners b hb) text, (held_call p b text).trans h.held,
    h.stays_owners stays, bounds⟩, stays.toGrows⟩

/-- Threads that make the same call come to an end and leave no lock behind. -/
theorem callMany (h : Rest p ev) (hb : b < p.bridges.length) (text : String) (threads : Nat) :
    Rest ((Pool.ofCall p b text threads).run 0).process
        (ev ++ historyOf ((Pool.ofCall p b text threads).moments 0)) ∧
      Grows p ((Pool.ofCall p b text threads).run 0).process := by
  have run := (Pool.ofCall p b text threads).run_moments 0
  have stuck := (Pool.ofCall p b text threads).stuck_run 0
  have owner := h.owners b hb
  have accounted := run.accounted
    (.of_starting h.toBalanced h.held Pool.starting_ofCall (Pool.valid_ofCall owner))
  have fitting := run.fitting (.of_starting h.bounds Pool.starting_ofCall (Pool.valid_ofCall owner))
  have stays := run.stays
  exact ⟨⟨accounted.balanced stuck, accounted.locked.held_of_stuck stuck, h.stays_owners stays,
    fitting.bounds⟩, stays.toGrows⟩

end Rest

/-! ## Sessions -/

namespace Session

/-- The session behind a list of commands. -/
def after (s : Session) (cs : List Command) : Session := cs.foldl (fun s c => (s.step c).2) s

theorem after_append (s : Session) (cs cs' : List Command) :
    s.after (cs ++ cs') = (s.after cs).after cs' := List.foldl_append ..

/-- What a command enters into the history. -/
def events (s : Session) : Command → History
  | .load loader _ => ((s.loaders.get? loader).map s.process.loadEvents).getD []
  | .loadBridge bridge _ =>
    ((s.bridges.get? bridge).map fun b => s.process.loadEvents (s.process.bridge b).loader).getD []
  | .call bridge _ => ((s.bridges.get? bridge).map s.process.callEvents).getD []
  | .callMany bridge text threads =>
    ((s.bridges.get? bridge).map fun b =>
      historyOf ((Pool.ofCall s.process b text threads).moments 0)).getD []
  | _ => []

/-- What a list of commands enters into the history. -/
def history (s : Session) : List Command → History
  | [] => []
  | c :: cs => s.events c ++ (s.step c).2.history cs

/-- How a session stands to its history between two commands. -/
structure Kept (s : Session) (ev : History) : Prop where
  rest : Rest s.process ev
  loaders : ∀ e ∈ s.loaders, e.2 < s.process.loaders.length
  bridges : ∀ e ∈ s.bridges, e.2 < s.process.bridges.length

variable {s : Session} {ev ev' : History}

theorem kept_start (host : Host) : Kept (start host) [] where
  rest := .start host
  loaders := fun _ h => absurd h List.not_mem_nil
  bridges := fun _ h => absurd h List.not_mem_nil

/-- The process goes on, and the names stay. -/
theorem Kept.withProcess (h : Kept s ev) {p : Process}
    (next : Rest p ev' ∧ Grows s.process p) :
    Kept (s.withProcess p) ev' ∧ Grows s.process (s.withProcess p).process :=
  ⟨⟨next.1, fun e he => Nat.lt_of_lt_of_le (h.loaders e he) next.2.loaders,
    fun e he => Nat.lt_of_lt_of_le (h.bridges e he) next.2.bridges⟩, next.2⟩

/-- The answer of an operation is kept under names that stand for no loader and no bridge. -/
theorem Kept.conclude {α : Type} (h : Kept s ev) {kept : Session → α → Reply × Session}
    {r : Outcome α × Process} (next : Rest r.2 ev' ∧ Grows s.process r.2)
    (names : ∀ s a, (kept s a).2.process = s.process ∧ (kept s a).2.loaders = s.loaders ∧
      (kept s a).2.bridges = s.bridges) :
    Kept (s.conclude kept r).2 ev' ∧ Grows s.process (s.conclude kept r).2.process := by
  obtain ⟨after, grows⟩ := h.withProcess next
  obtain ⟨o, p⟩ := r
  cases o with
  | panic => exact ⟨after, grows⟩
  | error e => exact ⟨after, grows⟩
  | ok a =>
    obtain ⟨process, loaders, bridges⟩ := names (s.withProcess p) a
    refine ⟨⟨?_, ?_, ?_⟩, ?_⟩
    · exact process ▸ after.rest
    · exact process ▸ loaders ▸ after.loaders
    · exact process ▸ bridges ▸ after.bridges
    · exact process ▸ grows

/-- A command without a history. -/
theorem silent {s' : Session} {new : History} (none : new = [])
    (h : Kept s' ev ∧ Grows s.process s'.process) :
    Kept s' (ev ++ new) ∧ Grows s.process s'.process := by
  rw [none, List.append_nil]
  exact h

/-- A command that names nothing changes nothing. -/
theorem Kept.withNamed {α : Type} (h : Kept s ev) {things : Named α} {name : String}
    {f : α → Reply × Session} {new : History} (absent : things.get? name = none → new = [])
    (found : ∀ a, things.get? name = some a →
      Kept (f a).2 (ev ++ new) ∧ Grows s.process (f a).2.process) :
    Kept (s.withNamed things name f).2 (ev ++ new) ∧
      Grows s.process (s.withNamed things name f).2.process := by
  rw [Session.withNamed]
  rcases get : things.get? name with _ | a
  · rw [absent get, List.append_nil]
    exact ⟨h, Grows.refl _⟩
  · exact found a get

/-- Functions are registered with a copy of an in-process source only. -/
theorem origin_of_extended {name : String} {functions : List (String × Function)}
    {origin : Origin} {p : Process}
    (found : s.originOf (.extended name functions) = some (origin, p)) :
    ∃ u, (s.sources.get? name).map Source.origin = some (.inProcess u) ∧
      .inProcess (u.withSymbols functions) = origin ∧ s.process = p := by
  simp only [originOf] at found
  split at found
  · rename_i u same
    obtain ⟨made, behind⟩ := Prod.mk.inj (Option.some.inj found)
    exact ⟨u, same, made, behind⟩
  · exact absurd found (by simp)

/-- Where a new source comes from is found without touching the process, but for the number
that a new in-process source is given. -/
theorem process_of_originOf {base : Base} {origin : Origin} {p : Process}
    (found : s.originOf base = some (origin, p)) :
    ∃ made, s.process.inProcessMade ≤ made ∧ p = { s.process with inProcessMade := made } := by
  cases base with
  | clone source =>
    obtain ⟨_, _, he⟩ := Option.map_eq_some_iff.mp found
    cases he
    exact ⟨_, Nat.le_refl _, rfl⟩
  | extended source functions =>
    obtain ⟨u, -, -, rfl⟩ := origin_of_extended found
    exact ⟨_, Nat.le_refl _, rfl⟩
  | disk c =>
    cases found
    exact ⟨_, Nat.le_refl _, rfl⟩
  | linked library functions =>
    cases found
    exact ⟨_, Nat.le_succ _, rfl⟩

theorem Kept.makeSource (h : Kept s ev) (name : String) (base : Base) (fixed : Option Path)
    (script : Script) : Kept (s.makeSource name base fixed script).2 ev ∧
      Grows s.process (s.makeSource name base fixed script).2.process := by
  rw [Session.makeSource]
  split
  · exact ⟨h, Grows.refl _⟩
  · rename_i o p found
    obtain ⟨made, -, rfl⟩ := process_of_originOf found
    obtain ⟨kept, grows⟩ := h.withProcess (h.rest.of_eq
      (q := ({ s.process with inProcessMade := made }.newWatch o fixed ⟨name, script⟩).2)
      rfl rfl rfl rfl rfl)
    exact ⟨⟨kept.rest, kept.loaders, kept.bridges⟩, grows⟩

theorem Kept.makeLoader (h : Kept s ev) (name source library : String) :
    Kept (s.makeLoader name source library).2 ev ∧
      Grows s.process (s.makeLoader name source library).2.process := by
  rw [Session.makeLoader]
  split
  · exact ⟨h, Grows.refl _⟩
  · rename_i source _
    obtain ⟨kept, grows⟩ := h.withProcess ⟨h.rest.newLoader library source, grows_newLoader ..⟩
    refine ⟨⟨kept.rest, fun e he => ?_, kept.bridges⟩, grows⟩
    rcases Named.mem_of_mem_put he with old | rfl
    · exact kept.loaders e old
    · simp [Session.withProcess, newLoader]

theorem Kept.makeBridgeOver (h : Kept s ev) (name : String) (c : Config) (source : Option Source) :
    Kept (s.makeBridgeOver name c source).2 ev ∧
      Grows s.process (s.makeBridgeOver name c source).2.process := by
  obtain ⟨kept, grows⟩ := h.withProcess (h.rest.newBridge c.library c.symbol
    (source.getD ⟨s.process.systemOrigin c, none, none⟩))
  refine ⟨⟨kept.rest, kept.loaders, fun e he => ?_⟩, grows⟩
  rcases Named.mem_of_mem_put he with old | rfl
  · exact kept.bridges e old
  · simp [Session.makeBridgeOver, Session.withProcess, newBridgeFor, newBridge, newLoader]

theorem Kept.makeBridge (h : Kept s ev) (name : String) (config : Except Config.Error Config)
    (source : Option String) : Kept (s.makeBridge name config source).2 ev ∧
      Grows s.process (s.makeBridge name config source).2.process := by
  unfold Session.makeBridge
  split
  · exact ⟨h, Grows.refl _⟩
  · split
    · exact h.makeBridgeOver ..
    · split
      · exact ⟨h, Grows.refl _⟩
      · exact h.makeBridgeOver ..

theorem Kept.enter (h : Kept s ev) (dir : Path) :
    Kept (s.enter dir) ev ∧ Grows s.process (s.enter dir).process := by
  unfold Session.enter
  dsimp only
  split
  · exact h.withProcess (h.rest.of_eq rfl rfl rfl rfl rfl)
  · exact ⟨h, Grows.refl _⟩

theorem Kept.drop (h : Kept s ev) (name : String) :
    Kept (s.drop name).2 ev ∧ Grows s.process (s.drop name).2.process :=
  ⟨⟨h.rest, fun e he => h.loaders e (Named.mem_of_mem_erase he),
    fun e he => h.bridges e (Named.mem_of_mem_erase he)⟩, Grows.refl _⟩

theorem Kept.ensureLoaded (h : Kept s ev) {l : LoaderId} (hl : l < s.process.loaders.length)
    (keep : Option String) :
    Kept (s.ensureLoaded l keep).2 (ev ++ s.process.loadEvents l) ∧
      Grows s.process (s.ensureLoaded l keep).2.process :=
  h.conclude (h.rest.ensureLoaded hl) fun s a => by cases keep <;> exact ⟨rfl, rfl, rfl⟩

/-- **Every command keeps what a session stands for, and takes nothing away.** -/
theorem Kept.step (h : Kept s ev) (c : Command) :
    Kept (s.step c).2 (ev ++ s.events c) ∧ Grows s.process (s.step c).2.process := by
  cases c with
  | change actions =>
    exact silent rfl (h.withProcess (h.rest.of_eq rfl rfl rfl rfl rfl))
  | enter dir =>
    exact silent rfl (h.enter dir)
  | setLibraryPath value =>
    exact silent rfl (h.withProcess (h.rest.of_eq rfl rfl rfl rfl rfl))
  | source name base fixed script =>
    exact silent rfl (h.makeSource ..)
  | loader name source library =>
    exact silent rfl (h.makeLoader ..)
  | bridge name config source =>
    exact silent rfl (h.makeBridge ..)
  | drop name =>
    exact silent rfl (h.drop name)
  | locate source library =>
    refine h.withNamed (fun _ => rfl) fun a _ => ?_
    exact silent rfl (h.conclude (h.rest.heard (heard_locate ..)) fun _ _ => ⟨rfl, rfl, rfl⟩)
  | load loader keep =>
    refine h.withNamed (fun get => by rw [events, get]; rfl) fun l get => ?_
    have new : s.events (.load loader keep) = s.process.loadEvents l := by rw [events, get]; rfl
    rw [new]
    exact h.ensureLoaded (h.loaders _ (Named.mem_of_get? get)) keep
  | describeLoader | describeHandle | describeBridge =>
    refine h.withNamed (fun _ => rfl) fun a _ => ?_
    exact silent rfl ⟨h, Grows.refl _⟩
  | look handle symbol =>
    refine h.withNamed (fun _ => rfl) fun a _ => ?_
    exact silent rfl (h.conclude (h.rest.heard (heard_findSymbol ..)) fun _ _ => ⟨rfl, rfl, rfl⟩)
  | compare a b =>
    refine h.withNamed (fun _ => rfl) fun _ _ => h.withNamed (fun _ => rfl) fun _ _ => ?_
    exact silent rfl ⟨h, Grows.refl _⟩
  | bind handle symbol keep declared =>
    refine h.withNamed (fun _ => rfl) fun a _ => ?_
    exact silent rfl (h.conclude (h.rest.heard (heard_resolve ..)) fun _ _ => ⟨rfl, rfl, rfl⟩)
  | invoke symbol text =>
    refine h.withNamed (fun _ => rfl) fun a _ => ?_
    exact silent rfl ⟨h, Grows.refl _⟩
  | call bridge text =>
    refine h.withNamed (fun get => by rw [events, get]; rfl) fun b get => ?_
    have new : s.events (.call bridge text) = s.process.callEvents b := by rw [events, get]; rfl
    rw [new]
    exact h.conclude (h.rest.call (h.bridges _ (Named.mem_of_get? get)) text)
      fun _ _ => ⟨rfl, rfl, rfl⟩
  | callMany bridge text threads =>
    refine h.withNamed (fun get => by rw [events, get]; rfl) fun b get => ?_
    have new : s.events (.callMany bridge text threads) =
        historyOf ((Pool.ofCall s.process b text threads).moments 0) := by rw [events, get]; rfl
    rw [new]
    exact h.withProcess (h.rest.callMany (h.bridges _ (Named.mem_of_get? get)) text threads)
  | loadBridge bridge keep =>
    refine h.withNamed (fun get => by rw [events, get]; rfl) fun b get => ?_
    have new : s.events (.loadBridge bridge keep) =
        s.process.loadEvents (s.process.bridge b).loader := by rw [events, get]; rfl
    rw [new]
    exact h.ensureLoaded (h.rest.owners b (h.bridges _ (Named.mem_of_get? get))) keep

/-- Behind all commands. -/
theorem Kept.after (h : Kept s ev) (cs : List Command) :
    Kept (s.after cs) (ev ++ s.history cs) ∧ Grows s.process (s.after cs).process := by
  induction cs generalizing s ev with
  | nil =>
    rw [history, List.append_nil]
    exact ⟨h, Grows.refl _⟩
  | cons c cs ih =>
    obtain ⟨kept, grows⟩ := h.step c
    obtain ⟨kept', grows'⟩ := ih kept
    rw [history, ← List.append_assoc]
    exact ⟨kept', grows.trans grows'⟩

/-- Every session that is reached stands to its history as it should. -/
theorem kept_after (host : Host) (cs : List Command) :
    Kept ((start host).after cs) ((start host).history cs) :=
  ((kept_start host).after cs).1

end Session
end Linkage
