import Linkage.Proofs.Pool.Origins
import Linkage.Proofs.Session.Reach
import Mathlib.Data.List.Induction

/-!
# What a command does to the process

There are many commands, but few ways in which one of them changes the process of a session:
the surroundings change, a source is asked or a library is looked into, an object is made, a
loader is asked for its handle, or a bridge is called.  `Effect` lists them, with what each
enters into the history, and every command has one of them (`effect_step`).  An invariant of
the process is therefore proved along the effects and not along the commands
(`after_induct`).  The first is that verdicts come from scripts: what no source is made with,
no watch ever has ready (`not_mem_script`).
-/

namespace Linkage

open Process

namespace Session

/-- What a command makes of the process, and what it enters into the history. -/
inductive Effect (c : Command) (p q : Process) : History → Prop where
  /-- The surroundings change. -/
  | surrounds {host : Host} (hq : q = { p with host := host }) : Effect c p q []
  /-- Sources are asked, libraries are looked into, or nothing happens. -/
  | reports (heard : p.Heard q) (dwindles : p.Dwindles q) : Effect c p q []
  /-- A source is made, with a watch on it. -/
  | watches {made : Nat} {w : Watch} {base : Base} {fixed : Option Path}
      (hc : c = .source w.label base fixed w.script) (more : p.inProcessMade ≤ made)
      (hq : q = { p with inProcessMade := made, watches := p.watches ++ [w] }) : Effect c p q []
  /-- A loader is made. -/
  | makesLoader {library : String} {source : Source}
      (hq : q = (p.newLoader library source).2) : Effect c p q []
  /-- A bridge is made, with a loader of its own. -/
  | makesBridge {library symbol : String} {source : Source}
      (hq : q = (p.newBridge library symbol source).2) : Effect c p q []
  /-- A loader is asked for its handle. -/
  | loads {l : LoaderId} (hl : l < p.loaders.length) (hq : q = (p.ensureLoaded l).2) :
      Effect c p q (p.loadEvents l)
  /-- A bridge is called. -/
  | calls {b : BridgeId} {text : String} (hb : b < p.bridges.length)
      (hq : q = (p.call b text).2) : Effect c p q (p.callEvents b)
  /-- A bridge is called from several threads at once. -/
  | callsMany {b : BridgeId} {text : String} {threads : Nat} (hb : b < p.bridges.length)
      (hq : q = ((Pool.ofCall p b text threads).run 0).process) :
      Effect c p q (historyOf ((Pool.ofCall p b text threads).moments 0))

variable {s : Session} {ev new : History} {c : Command}

theorem Effect.refl (c : Command) (p : Process) : Effect c p p [] :=
  .reports (.refl p) (.of_watches rfl rfl)

/-- The answer of an operation is kept under names, which are not of the process. -/
theorem process_conclude {α : Type} {kept : Session → α → Reply × Session}
    (names : ∀ s a, (kept s a).2.process = s.process) (r : Outcome α × Process) :
    (s.conclude kept r).2.process = r.2 := by
  obtain ⟨o, p⟩ := r
  cases o with
  | panic | error => rfl
  | ok a => exact names (s.withProcess p) a

/-- A command that names nothing changes nothing. -/
theorem effect_withNamed {α : Type} {things : Named α} {name : String} {f : α → Reply × Session}
    (absent : things.get? name = none → new = [])
    (found : ∀ a, things.get? name = some a → Effect c s.process (f a).2.process new) :
    Effect c s.process (s.withNamed things name f).2.process new := by
  rw [Session.withNamed]
  rcases get : things.get? name with _ | a
  · rw [absent get]
    exact .refl ..
  · exact found a get

theorem effect_makeSource (s : Session) (name : String) (base : Base) (fixed : Option Path)
    (script : Script) : Effect (.source name base fixed script) s.process
      (s.makeSource name base fixed script).2.process [] := by
  rw [makeSource]
  split
  · exact .refl ..
  · rename_i found
    obtain ⟨made, more, rfl⟩ := process_of_originOf found
    exact .watches (w := ⟨name, script⟩) rfl more rfl

theorem effect_makeBridge (s : Session) (name : String) (config : Except Config.Error Config)
    (source : Option String) :
    Effect c s.process (s.makeBridge name config source).2.process [] := by
  unfold makeBridge
  split
  · exact .refl ..
  · split
    · exact .makesBridge rfl
    · split
      · exact .refl ..
      · exact .makesBridge rfl

/-- **Every command has one of these effects.** -/
theorem effect_step (kept : Kept s ev) (c : Command) :
    Effect c s.process (s.step c).2.process (s.events c) := by
  cases c with
  | change | setLibraryPath => exact .surrounds rfl
  | enter dir =>
    simp only [step, enter]
    split
    · exact .surrounds rfl
    · exact .refl ..
  | drop => exact .refl ..
  | source => exact effect_makeSource ..
  | bridge => exact effect_makeBridge ..
  | loader name source library =>
    simp only [step, makeLoader]
    split
    · exact .refl ..
    · exact .makesLoader rfl
  | locate source library =>
    refine effect_withNamed (fun _ => rfl) fun a _ => ?_
    rw [process_conclude fun _ _ => rfl]
    exact .reports (heard_locate ..) (dwindles_locate ..)
  | look handle symbol =>
    refine effect_withNamed (fun _ => rfl) fun a _ => ?_
    rw [look, process_conclude fun _ _ => rfl]
    exact .reports (heard_findSymbol ..) (dwindles_findSymbol ..)
  | bind handle symbol keep declared =>
    refine effect_withNamed (fun _ => rfl) fun a _ => ?_
    rw [bind, process_conclude fun _ _ => rfl]
    exact .reports (heard_resolve ..) (dwindles_resolve ..)
  | describeLoader | describeHandle | describeBridge | invoke =>
    exact effect_withNamed (fun _ => rfl) fun _ _ => .refl ..
  | compare =>
    exact effect_withNamed (fun _ => rfl) fun _ _ =>
      effect_withNamed (fun _ => rfl) fun _ _ => .refl ..
  | load loader keep =>
    refine effect_withNamed (fun get => by rw [events, get]; rfl) fun l get => ?_
    have new : s.events (.load loader keep) = s.process.loadEvents l := by rw [events, get]; rfl
    rw [new, ensureLoaded, process_conclude fun _ _ => by cases keep <;> rfl]
    exact .loads (kept.loaders _ (Named.mem_of_get? get)) rfl
  | loadBridge bridge keep =>
    refine effect_withNamed (fun get => by rw [events, get]; rfl) fun b get => ?_
    have new : s.events (.loadBridge bridge keep) =
        s.process.loadEvents (s.process.bridge b).loader := by rw [events, get]; rfl
    rw [new, ensureLoaded, process_conclude fun _ _ => by cases keep <;> rfl]
    exact .loads (kept.rest.owners b (kept.bridges _ (Named.mem_of_get? get))) rfl
  | call bridge text =>
    refine effect_withNamed (fun get => by rw [events, get]; rfl) fun b get => ?_
    have new : s.events (.call bridge text) = s.process.callEvents b := by rw [events, get]; rfl
    rw [new, process_conclude fun _ _ => rfl]
    exact .calls (kept.bridges _ (Named.mem_of_get? get)) rfl
  | callMany bridge text threads =>
    refine effect_withNamed (fun get => by rw [events, get]; rfl) fun b get => ?_
    have new : s.events (.callMany bridge text threads) =
        historyOf ((Pool.ofCall s.process b text threads).moments 0) := by rw [events, get]; rfl
    rw [new]
    exact .callsMany (kept.bridges _ (Named.mem_of_get? get)) rfl

/-! ## Behind all commands -/

theorem history_append (s : Session) (cs cs' : List Command) :
    s.history (cs ++ cs') = s.history cs ++ (s.after cs).history cs' := by
  induction cs generalizing s with
  | nil => rfl
  | cons c cs ih =>
    rw [List.cons_append, history, history, ih, List.append_assoc]
    rfl

/-- **What holds at the start and is kept by every effect holds behind all commands.** -/
theorem after_induct (host : Host) {motive : List Command → Process → History → Prop}
    (nil : motive [] (.start host) [])
    (concat : ∀ cs c q new, Effect c ((start host).after cs).process q new →
      motive cs ((start host).after cs).process ((start host).history cs) →
      motive (cs ++ [c]) q ((start host).history cs ++ new)) (cs : List Command) :
    motive cs ((start host).after cs).process ((start host).history cs) := by
  induction cs using List.reverseRec with
  | nil => exact nil
  | append_singleton cs c ih =>
    have next := concat cs c _ _ (effect_step (kept_after host cs) c) ih
    have behind : (start host).after (cs ++ [c]) = (((start host).after cs).step c).2 :=
      after_append ..
    have history : (start host).history (cs ++ [c]) =
        (start host).history cs ++ ((start host).after cs).events c := by
      rw [history_append, Session.history, Session.history, List.append_nil]
    rwa [behind, history]

/-- No effect takes anything away. -/
theorem Effect.grows {p q : Process} (effect : Effect c p q new) (rest : Rest p ev) :
    Grows p q := by
  cases effect with
  | surrounds hq | watches _ _ hq =>
    rw [hq]
    exact .of_cells (List.prefix_refl _) (List.prefix_refl _) rfl rfl
  | reports heard => exact heard.stays.toGrows
  | makesLoader hq => exact hq ▸ grows_newLoader ..
  | makesBridge hq => exact hq ▸ (rest.newBridge ..).2
  | loads _ hq => exact hq ▸ (stays_ensureLoaded ..).toGrows
  | calls hb hq => exact hq ▸ (rest.call hb _).2
  | callsMany hb hq => exact hq ▸ (rest.callMany hb ..).2

/-- Scripts are only used up, but for that of a source that is made. -/
theorem Effect.dwindles {p q : Process} (effect : Effect c p q new) :
    p.Dwindles q ∨ ∃ w base fixed, c = .source w.label base fixed w.script ∧
      q.watches = p.watches ++ [w] := by
  cases effect with
  | surrounds hq | makesLoader hq | makesBridge hq =>
    exact Or.inl (.of_watches (hq ▸ rfl) (hq ▸ rfl))
  | reports _ dwindles => exact Or.inl dwindles
  | watches hc _ hq => exact Or.inr ⟨_, _, _, hc, hq ▸ rfl⟩
  | loads _ hq => exact Or.inl (hq ▸ dwindles_ensureLoaded ..)
  | calls _ hq => exact Or.inl (hq ▸ dwindles_call ..)
  | callsMany _ hq =>
    rw [hq]
    exact Or.inl (Pool.run_moments (Pool.ofCall ..) 0).dwindles

/-- **A verdict that no source is made with is never to come.** -/
theorem not_mem_script (host : Host) {cs : List Command} {v : Verdict} (kind : UseKind)
    (without : ∀ name base fixed script, .source name base fixed script ∈ cs → v ∉ script.on kind) :
    ∀ w ∈ ((start host).after cs).process.watches, v ∉ w.script.on kind := by
  refine after_induct host (motive := fun cs p _ =>
    (∀ name base fixed script, .source name base fixed script ∈ cs → v ∉ script.on kind) →
      ∀ w ∈ p.watches, v ∉ w.script.on kind) ?_ ?_ cs without
  · intro _ w mem
    exact absurd mem List.not_mem_nil
  intro cs c q new effect ih without
  have old := ih fun name base fixed script mem =>
    without name base fixed script (List.mem_append_left _ mem)
  rcases effect.dwindles with dwindles | ⟨w, base, fixed, rfl, watches⟩
  · exact dwindles.not_mem kind old
  · intro u mem
    rw [watches] at mem
    rcases List.mem_append.mp mem with mem | mem
    · exact old u mem
    · obtain rfl := List.mem_singleton.mp mem
      exact without _ _ _ _ (List.mem_append_right _ (List.mem_singleton_self _))

end Session
end Linkage
