import Linkage.Proofs.Process.Verdicts

/-!
# Verdicts are only used up

Watches are put on sources when these are made, and from then on their scripts are only used
up: no use of a source gives a watch a verdict it did not have, and none makes a source.
`Dwindles` says so, of the verdicts on uses of every kind.  What follows is that a watch never
does what was not in its script: whatever terms the verdicts to come keep to (`Within`), they
keep to later as well, and the next verdict is one of them (`Within.verdict`).
-/

namespace Linkage
namespace Process

variable {p q r : Process} {watch : Option WatchId} {kind : UseKind} {v : Verdict}

/-- The verdicts to come in `q` were to come in `p` already, and no source has been made. -/
structure Dwindles (p q : Process) : Prop where
  coming : ∀ watch kind, q.coming watch kind ⊆ p.coming watch kind
  count : q.watches.length = p.watches.length
  inProcessMade : q.inProcessMade = p.inProcessMade

/-- Which verdicts a watch may have ready for uses of a kind. -/
abbrev Terms := Option WatchId → UseKind → Verdict → Prop

/-- Every verdict to come is one that its watch may have ready. -/
def Within (terms : Terms) (p : Process) : Prop :=
  ∀ watch kind, ∀ v ∈ p.coming watch kind, terms watch kind v

/-- Every lookup to come under a watch passes. -/
def Passing (watch : Option WatchId) (p : Process) : Prop :=
  ∀ v ∈ p.coming watch .symbol, v = .pass

theorem coming_eq_on {i : WatchId} {w : Watch} (here : p.watches[i]? = some w) (kind : UseKind) :
    p.coming (some i) kind = w.script.on kind := by
  simp [Process.coming, here]

/-- What is to come from a watch is in the script of a watch. -/
theorem exists_watch_of_mem (mem : v ∈ p.coming watch kind) :
    ∃ w ∈ p.watches, v ∈ w.script.on kind := by
  rw [Process.coming] at mem
  rcases here : watch.bind fun i => p.watches[i]? with _ | w
  · rw [here] at mem
    exact absurd mem List.not_mem_nil
  · rw [here] at mem
    obtain ⟨i, -, hi⟩ := Option.bind_eq_some_iff.mp here
    exact ⟨w, List.mem_of_getElem? hi, mem⟩

/-- What is to come once a watch has been added comes from the old ones or from its script. -/
theorem mem_coming_of_append {w : Watch} (added : q.watches = p.watches ++ [w])
    (mem : v ∈ q.coming watch kind) :
    v ∈ p.coming watch kind ∨ watch = some p.watches.length ∧ v ∈ w.script.on kind := by
  cases watch with
  | none => exact absurd mem List.not_mem_nil
  | some i =>
    rcases Nat.lt_trichotomy i p.watches.length with old | rfl | beyond
    · left
      simpa [Process.coming, added, List.getElem?_append_left old] using mem
    · right
      simpa [Process.coming, added] using mem
    · have none : q.watches[i]? = none := List.getElem?_eq_none (by simp [added]; omega)
      simp [Process.coming, none] at mem

/-- The next verdict is one of those to come, or every use passes. -/
theorem verdict_mem_coming (p : Process) (watch : Option WatchId) (kind : UseKind) (n : Nat) :
    p.verdict watch kind n = .pass ∨ p.verdict watch kind n ∈ p.coming watch kind := by
  rw [verdict, List.getD_eq_getElem?_getD]
  rcases here : (p.coming watch kind)[n]? with _ | v
  · exact Or.inl rfl
  · exact Or.inr (List.mem_of_getElem? here)

theorem Dwindles.of_watches (same : q.watches = p.watches)
    (inProcessMade : q.inProcessMade = p.inProcessMade) : Dwindles p q where
  coming := fun watch kind => by
    rw [coming_of_watches same]
    exact List.Subset.refl _
  count := by rw [same]
  inProcessMade := inProcessMade

theorem Dwindles.trans (h : Dwindles p q) (h' : Dwindles q r) : Dwindles p r where
  coming := fun watch kind => List.Subset.trans (h'.coming watch kind) (h.coming watch kind)
  count := h'.count.trans h.count
  inProcessMade := h'.inProcessMade.trans h.inProcessMade

/-- A verdict that no watch has ready for a kind of uses is never had ready for it. -/
theorem Dwindles.not_mem (dwindles : Dwindles p q) (kind : UseKind)
    (h : ∀ w ∈ p.watches, v ∉ w.script.on kind) : ∀ w ∈ q.watches, v ∉ w.script.on kind := by
  intro w mem ready
  obtain ⟨i, here⟩ := List.getElem?_of_mem mem
  rw [← coming_eq_on here] at ready
  obtain ⟨u, mem, ready⟩ := exists_watch_of_mem (dwindles.coming _ _ ready)
  exact h u mem ready

theorem Within.dwindles {terms : Terms} (h : p.Within terms) (dwindles : Dwindles p q) :
    q.Within terms :=
  fun watch kind v mem => h watch kind v (dwindles.coming _ _ mem)

theorem Passing.dwindles (h : Passing watch p) (dwindles : Dwindles p q) : Passing watch q :=
  fun v mem => h v (dwindles.coming _ _ mem)

/-- The next verdict is one that the watch may have ready, or the use passes. -/
theorem Within.verdict {terms : Terms} (h : p.Within terms) (watch : Option WatchId)
    (kind : UseKind) (n : Nat) :
    p.verdict watch kind n = .pass ∨ terms watch kind (p.verdict watch kind n) :=
  (verdict_mem_coming p watch kind n).imp id (h watch kind _)

/-! ## The operations -/

/-- A use takes nothing from the other watches. -/
theorem coming_takeVerdict_of_ne {other : Option WatchId} (ne : other ≠ watch) (k : UseKind) :
    (p.takeVerdict watch kind).2.coming other k = p.coming other k := by
  unfold takeVerdict
  split
  · rfl
  · rename_i w
    split
    · rfl
    · rcases other with _ | i
      · rfl
      · have apart : w ≠ i := fun same => ne (same ▸ rfl)
        simp [Process.coming, List.getElem?_set_ne apart]

/-- A use of any kind takes at most a verdict away. -/
theorem dwindles_takeVerdict (p : Process) (watch : Option WatchId) (kind : UseKind) :
    Dwindles p (p.takeVerdict watch kind).2 where
  coming := fun other k => by
    by_cases same : other = watch
    · rw [same, (takeVerdict_spec p watch kind).2]
      split
      · subst k
        exact List.drop_subset ..
      · exact List.Subset.refl _
    · rw [coming_takeVerdict_of_ne same]
      exact List.Subset.refl _
  count := by
    unfold takeVerdict
    split
    · rfl
    · split
      · rfl
      · simp
  inProcessMade := (heard_takeVerdict ..).inProcessMade

theorem dwindles_record (p : Process) (watch : Option WatchId) (use : String → Use) :
    Dwindles p (p.record watch use) :=
  .of_watches (watches_record ..) (heard_record ..).inProcessMade

theorem dwindles_ask (p : Process) (watch : Option WatchId) (kind : UseKind) (use : String → Use) :
    Dwindles p (p.ask watch kind use).2 :=
  (dwindles_record p watch use).trans (dwindles_takeVerdict ..)

theorem dwindles_locate (p : Process) (s : Source) (library : String) (owner : Option LoaderId) :
    Dwindles p (p.locate s library owner).2 :=
  (dwindles_ask ..).trans
    (.of_watches (watches_locateUnder ..) (heard_locateUnder ..).inProcessMade)

theorem dwindles_openLibrary (p : Process) (s : Source) (path : Path) (owner : Option LoaderId) :
    Dwindles p (p.openLibrary s path owner).2 := by
  unfold openLibrary
  extract_lets asked
  have dwindles : Dwindles p asked.2 := dwindles_ask ..
  have same := watches_tableUnder asked.2 s path asked.1
  have made := (asked_tableUnder asked.2 s path asked.1).inProcessMade
  split <;> rename_i h <;> rw [h] at same made <;> exact dwindles.trans (.of_watches same made)

theorem dwindles_findSymbol (p : Process) (h : Handle) (name : String) :
    Dwindles p (p.findSymbol h name).2 := by
  unfold findSymbol
  split
  · exact .of_watches rfl rfl
  · rename_i lib _
    have taken := dwindles_takeVerdict p lib.watch .symbol
    dsimp only
    split <;> dsimp only <;>
      first | exact taken | exact taken.trans (dwindles_record ..)

theorem dwindles_exportedDescriptor (p : Process) (h : Handle) (name : String) :
    Dwindles p (p.exportedDescriptor h name).2 := by
  have looked := dwindles_findSymbol p h (name ++ Signature.suffix)
  unfold exportedDescriptor
  split <;> rename_i found <;> rw [found] at looked <;> exact looked

theorem dwindles_resolve (p : Process) (h : Handle) (name : String) (declared : Signature) :
    Dwindles p (p.resolve h name declared).2 := by
  have looked := dwindles_findSymbol p h name
  unfold resolve
  split <;> rename_i found <;> rw [found] at looked
  · exact looked
  · exact looked
  · exact looked
  · rename_i q
    split
    · exact looked
    · have described := looked.trans (dwindles_exportedDescriptor q h name)
      split <;> rename_i read <;> rw [read] at described
      · exact described
      · exact described
      · split
        · exact described.trans (.of_watches rfl rfl)
        · exact described
      · exact described.trans (.of_watches rfl rfl)

theorem dwindles_bind (p : Process) (b : BridgeId) (h : Handle) : Dwindles p (p.bind b h).2 := by
  have resolved := dwindles_resolve p h (p.bridge b).symbol .callable
  unfold bind
  split <;> rename_i found <;> rw [found] at resolved
  · exact resolved
  · exact resolved.trans (.of_watches rfl rfl)
  · exact resolved.trans (.of_watches rfl rfl)

theorem dwindles_classify (p : Process) (f : SymbolReference) (text : String) (answer : Int64) :
    Dwindles p (p.classify f text answer).2 := by
  unfold classify
  split <;> exact .of_watches rfl rfl

end Process
end Linkage
