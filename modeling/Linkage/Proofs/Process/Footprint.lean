import Linkage.Proofs.Process.Edits

/-!
# The footprint of an operation

An operation on a loader or a bridge reads and writes its own cells, and of what it shares with
others only little: the verdicts to come on the uses it makes, one place in the registry, the
libraries that it has, and what the platform's loader answers.  This is its `Footprint`.

A process *mirrors* another one in a footprint if it shows the same there, up to the numbers of
libraries that were opened since (`Mirrors`).  Two facts make this useful.  A row of edits
within a footprint can be made in both processes and leaves one that mirrors the other
(`Mirrors.along`).  And a row of edits within another footprint does not show: the process
behind it mirrors the one before it (`mirrors_edits`).
-/

namespace Linkage

open Process

/-- What an operation touches that others could touch as well. -/
structure Footprint where
  loader : LoaderId
  bridge : Option BridgeId
  /-- The watch on the source that is asked where the library is, and to open it. -/
  source : Option WatchId
  /-- The watch on the library in which names are looked up. -/
  library : Option WatchId
  /-- The place that is looked up in the registry. -/
  key : Option Path

namespace Footprint

/-- The watch that has a use recorded. -/
def watch (F : Footprint) : UseKind → Option WatchId
  | .locate | .opening => F.source
  | .symbol => F.library

/-- Two footprints have nothing in common. -/
structure Apart (F G : Footprint) : Prop where
  loader : F.loader ≠ G.loader
  bridge : ∀ b, F.bridge = some b → G.bridge ≠ some b
  watch : ∀ kind w, F.watch kind = some w → G.watch kind ≠ some w
  key : ∀ k k', F.key = some k → G.key = some k' → k.same k' = false

theorem Apart.symm {F G : Footprint} (apart : F.Apart G) : G.Apart F where
  loader := apart.loader.symm
  bridge := fun b hb hb' => apart.bridge b hb' hb
  watch := fun kind w hw hw' => apart.watch kind w hw' hw
  key := fun k k' hk hk' => by
    rw [Path.same, ← apart.key k' k hk' hk, Path.same]
    exact decide_eq_decide.mpr eq_comm

end Footprint

/-- A change stays in a footprint. -/
def Edit.Within (F : Footprint) : Edit → Prop
  | take watch kind => watch = F.watch kind
  | register key _ => F.key = some key
  | state l _ | handle l _ => l = F.loader
  | bound b _ => F.bridge = some b
  | map _ | report _ | opened _ => True

namespace Process

variable {F G : Footprint} {n d : Nat} {p q r p' q' : Process} {c : List Edit} {e : Edit}

/-! ## Verdicts and labels -/

theorem coming_takeVerdict (p : Process) (watch v : Option WatchId) (kind k : UseKind) :
    (p.takeVerdict watch kind).2.coming v k =
      if v = watch ∧ k = kind then (p.coming v k).drop 1 else p.coming v k := by
  by_cases same : v = watch
  · subst same
    rw [(takeVerdict_spec p v kind).2 k]
    by_cases is : k = kind
    · subst is
      simp
    · simp [is]
  · rw [coming_takeVerdict_of_ne same, if_neg fun h => same h.1]

/-- A watch keeps its label. -/
theorem label_takeVerdict (p : Process) (watch : Option WatchId) (kind : UseKind) (w : WatchId) :
    ((p.takeVerdict watch kind).2.watches[w]?).map Watch.label =
      (p.watches[w]?).map Watch.label := by
  rw [drawn_takeVerdict]
  cases watch with
  | none => rfl
  | some w' =>
    simp only [drawn, List.getElem?_modify, Option.map_eq_map, Option.map_map]
    congr 1
    funext watched
    by_cases is : w' = w
    · simp only [Function.comp, is, if_true]
    · simp only [Function.comp, is, if_false]

theorem label_edits (p : Process) (c : List Edit) (w : WatchId) :
    ((p.edits c).watches[w]?).map Watch.label = (p.watches[w]?).map Watch.label := by
  induction c generalizing p with
  | nil => rfl
  | cons e c ih =>
    rw [edits_cons, ih]
    cases e with
    | take watch kind => exact label_takeVerdict p watch kind w
    | _ => rfl

theorem registered?_register (p : Process) (key k : Path) (h : Handle) :
    (p.register k h).registered? key =
      (p.registered? key).or (if k.same key then some h else none) := by
  rw [registered?, register, List.find?_append, Option.map_or, registered?]
  congr 1
  by_cases same : k.same key
  · simp [same]
  · simp [same]

/-- Lists that agree under other numbers do so with one more element each. -/
theorem getElem?_shifted_append {α : Type} {P Q : List α} (base : n ≤ P.length)
    (count : Q.length = P.length + d) (same : ∀ h, Q[shifted n d h]? = P[h]?) (a : α) (h : Nat) :
    (Q ++ [a])[shifted n d h]? = (P ++ [a])[h]? := by
  rcases Nat.lt_trichotomy h P.length with lt | rfl | gt
  · have lt' : shifted n d h < Q.length := by
      rw [count, shifted]
      split <;> omega
    rw [List.getElem?_append_left lt', List.getElem?_append_left lt, same]
  · rw [shifted_of_le d base, ← count, List.getElem?_concat_length, List.getElem?_concat_length]
  · have gt' : Q.length < shifted n d h := by
      rw [count, shifted_of_le d (Nat.le_trans base (Nat.le_of_lt gt))]
      exact Nat.add_lt_add_right gt d
    have beyond : (P ++ [a]).length ≤ h := by
      rw [List.length_append]
      exact gt
    have beyond' : (Q ++ [a]).length ≤ shifted n d h := by
      rw [List.length_append]
      exact gt'
    rw [List.getElem?_eq_none beyond, List.getElem?_eq_none beyond']

/-! ## Processes that mirror each other -/

/-- What a footprint shows of `q` is what it shows of `p`, where behind the first `n` libraries
of both `d` further ones have been opened in `q`. -/
structure Mirrors (F : Footprint) (n d : Nat) (p q : Process) : Prop where
  files : q.host.files = p.host.files
  cwd : q.host.cwd = p.host.cwd
  answers : ∀ path, (q.host.mapLibrary path).1 = (p.host.mapLibrary path).1
  labels : ∀ w : WatchId, (q.watches[w]?).map Watch.label = (p.watches[w]?).map Watch.label
  coming : ∀ kind, q.coming (F.watch kind) kind = p.coming (F.watch kind) kind
  opened : ∀ h : Handle, q.libraries[shifted n d h]? = p.libraries[h]?
  base : n ≤ p.libraries.length
  count : q.libraries.length = p.libraries.length + d
  registered : ∀ key, F.key = some key →
    q.registered? key = (p.registered? key).map (shifted n d)
  loader : q.loaders[F.loader]? = (p.loaders[F.loader]?).map (Loader.rename (shifted n d))
  bridge : ∀ b, F.bridge = some b →
    q.bridges[b]? = (p.bridges[b]?).map (Bridge.rename (shifted n d))

namespace Mirrors

/-- A process mirrors itself. -/
theorem refl (F : Footprint) (p : Process) : Mirrors F p.libraries.length 0 p p where
  files := rfl
  cwd := rfl
  answers := fun _ => rfl
  labels := fun _ => rfl
  coming := fun _ => rfl
  opened := fun h => by rw [shifted_zero, id]
  base := Nat.le_refl _
  count := rfl
  registered := fun key _ => by rw [shifted_zero, Option.map_id, id]
  loader := by rw [shifted_zero, Loader.rename_id, Option.map_id, id]
  bridge := fun b _ => by rw [shifted_zero, Bridge.rename_id, Option.map_id, id]

theorem loader_eq (m : Mirrors F n d p q) :
    q.loader F.loader = (p.loader F.loader).rename (shifted n d) := by
  rw [Process.loader, Process.loader, List.getD_eq_getElem?_getD, List.getD_eq_getElem?_getD,
    m.loader]
  cases p.loaders[F.loader]? <;> rfl

theorem bridge_eq (m : Mirrors F n d p q) {b : BridgeId} (hb : F.bridge = some b) :
    q.bridge b = (p.bridge b).rename (shifted n d) := by
  rw [Process.bridge, Process.bridge, List.getD_eq_getElem?_getD, List.getD_eq_getElem?_getD,
    m.bridge b hb]
  cases p.bridges[b]? <;> rfl

theorem pathOf (m : Mirrors F n d p q) (h : Handle) :
    q.pathOf (shifted n d h) = p.pathOf h := by
  rw [Process.pathOf, m.opened, Process.pathOf]

theorem verdict (m : Mirrors F n d p q) (kind : UseKind) (i : Nat) :
    q.verdict (F.watch kind) kind i = p.verdict (F.watch kind) kind i := by
  rw [Process.verdict, m.coming, Process.verdict]

theorem registryKey (m : Mirrors F n d p q) (path : Path) :
    q.host.registryKey path = p.host.registryKey path := by
  rw [Host.registryKey, m.files, m.cwd, Host.registryKey]

/-- The number of the next library. -/
theorem next (m : Mirrors F n d p q) : q.libraries.length = shifted n d p.libraries.length := by
  rw [m.count, shifted_of_le d m.base]

/-- **A change within the footprint can be made in both processes.** -/
theorem edit (m : Mirrors F n d p q) (within : e.Within F) :
    Mirrors F n d (e.run p) ((e.rename (shifted n d)).run q) := by
  cases e with
  | report r =>
    exact ⟨m.files, m.cwd, m.answers, m.labels, m.coming, m.opened, m.base, m.count, m.registered,
      m.loader, m.bridge⟩
  | map path =>
    refine ⟨?_, ?_, fun other => ?_, m.labels, m.coming, m.opened, m.base, m.count, m.registered,
      m.loader, m.bridge⟩
    · show (q.host.mapLibrary path).2.files = (p.host.mapLibrary path).2.files
      rw [host_mapLibrary q.host, host_mapLibrary p.host, m.files]
    · show (q.host.mapLibrary path).2.cwd = (p.host.mapLibrary path).2.cwd
      rw [host_mapLibrary q.host, host_mapLibrary p.host, m.cwd]
    · show ((q.host.mapLibrary path).2.mapLibrary other).1 =
        ((p.host.mapLibrary path).2.mapLibrary other).1
      rw [Host.answer_mapLibrary, Host.answer_mapLibrary, m.answers]
  | take watch kind =>
    obtain rfl : watch = F.watch kind := within
    have left := heard_takeVerdict p (F.watch kind) kind
    have right := heard_takeVerdict q (F.watch kind) kind
    simp only [Edit.run, Edit.rename]
    refine ⟨?_, ?_, fun path => ?_, fun w => ?_, fun k => ?_, fun h => ?_, ?_, ?_, fun key hk => ?_,
      ?_, fun b hb => ?_⟩
    · rw [right.host, left.host, m.files]
    · rw [right.host, left.host, m.cwd]
    · rw [right.host, left.host, m.answers]
    · rw [label_takeVerdict, label_takeVerdict, m.labels]
    · rw [coming_takeVerdict, coming_takeVerdict, m.coming]
    · rw [right.libraries, left.libraries, m.opened]
    · rw [left.libraries]
      exact m.base
    · rw [right.libraries, left.libraries, m.count]
    · rw [right.registered?, left.registered?, m.registered key hk]
    · rw [right.loaders, left.loaders, m.loader]
    · rw [right.bridges, left.bridges, m.bridge b hb]
  | opened lib =>
    refine ⟨m.files, m.cwd, m.answers, m.labels, m.coming,
      getElem?_shifted_append m.base m.count m.opened lib, ?_, ?_, m.registered, m.loader, m.bridge⟩
    · show n ≤ (p.libraries ++ [lib]).length
      rw [List.length_append]
      exact Nat.le_trans m.base (Nat.le_add_right ..)
    · show (q.libraries ++ [lib]).length = (p.libraries ++ [lib]).length + d
      rw [List.length_append, List.length_append, m.count]
      exact Nat.add_right_comm ..
  | register k h =>
    refine ⟨m.files, m.cwd, m.answers, m.labels, m.coming, m.opened, m.base, m.count,
      fun key hk => ?_, m.loader, m.bridge⟩
    simp only [Edit.run, Edit.rename]
    rw [registered?_register, registered?_register, m.registered key hk, Option.map_or]
    congr 1
    split <;> rfl
  | state l s =>
    refine ⟨m.files, m.cwd, m.answers, m.labels, m.coming, m.opened, m.base, m.count, m.registered,
      ?_, m.bridge⟩
    simp only [Edit.run, Edit.rename, setState, updateLoader, List.getElem?_modify, m.loader,
      Option.map_eq_map, Option.map_map]
    congr 1
    funext c
    by_cases is : l = F.loader
    · simp only [Function.comp, is, if_true]
      rfl
    · simp only [Function.comp, is, if_false]
  | handle l h =>
    refine ⟨m.files, m.cwd, m.answers, m.labels, m.coming, m.opened, m.base, m.count, m.registered,
      ?_, m.bridge⟩
    simp only [Edit.run, Edit.rename, storeHandle, updateLoader, List.getElem?_modify, m.loader,
      Option.map_eq_map, Option.map_map]
    congr 1
    funext c
    by_cases is : l = F.loader
    · simp only [Function.comp, is, if_true, Loader.rename, Option.map_or, Option.map_some]
    · simp only [Function.comp, is, if_false]
  | bound b r =>
    refine ⟨m.files, m.cwd, m.answers, m.labels, m.coming, m.opened, m.base, m.count, m.registered,
      m.loader, fun b' hb' => ?_⟩
    simp only [Edit.run, Edit.rename, storeSymbol, updateBridge, List.getElem?_modify,
      m.bridge b' hb', Option.map_eq_map, Option.map_map]
    congr 1
    funext c
    by_cases is : b = b'
    · simp only [Function.comp, is, if_true, Bridge.rename, Option.map_or, Option.map_some]
    · simp only [Function.comp, is, if_false]

end Mirrors

/-! ## The same edits in two processes -/

/-- `p'` comes from `p` and `q'` from `q` by the same edits within a footprint. -/
def Along (F : Footprint) (n d : Nat) (p q p' q' : Process) : Prop :=
  ∃ c : List Edit, (∀ e ∈ c, e.Within F) ∧ p' = p.edits c ∧
    q' = q.edits (c.map (Edit.rename (shifted n d)))

theorem Along.refl (F : Footprint) (n d : Nat) (p q : Process) : Along F n d p q p q :=
  ⟨[], fun _ h => absurd h List.not_mem_nil, rfl, rfl⟩

theorem Along.edit (within : e.Within F) :
    Along F n d p q (e.run p) ((e.rename (shifted n d)).run q) :=
  ⟨[e], fun _ h => List.mem_singleton.mp h ▸ within, rfl, rfl⟩

theorem Along.trans {p'' q'' : Process} (a : Along F n d p q p' q')
    (b : Along F n d p' q' p'' q'') : Along F n d p q p'' q'' := by
  obtain ⟨c, within, rfl, rfl⟩ := a
  obtain ⟨c', within', rfl, rfl⟩ := b
  refine ⟨c ++ c', fun e he => ?_, (edits_append ..).symm, ?_⟩
  · rcases List.mem_append.mp he with he | he
    · exact within e he
    · exact within' e he
  · rw [List.map_append, edits_append]

/-- **Processes that mirror each other do so behind the same edits.** -/
theorem Mirrors.along (m : Mirrors F n d p q) (along : Along F n d p q p' q') :
    Mirrors F n d p' q' := by
  obtain ⟨c, within, rfl, rfl⟩ := along
  induction c generalizing p q with
  | nil => exact m
  | cons e c ih =>
    exact ih (m.edit (within e List.mem_cons_self))
      fun e' he' => within e' (List.mem_cons_of_mem e he')

/-! ## Edits in another footprint -/

/-- Every handle in a process is the number of a library that has been opened. -/
structure Closed (p : Process) : Prop where
  loaders : ∀ c ∈ p.loaders, ∀ h, c.handle = some h → h < p.libraries.length
  bridges : ∀ b ∈ p.bridges, ∀ r, b.bound = some r → r.handle < p.libraries.length
  registry : ∀ e ∈ p.registry, e.2 < p.libraries.length

theorem coming_edits (apart : F.Apart G) (within : ∀ e ∈ c, e.Within F) (kind : UseKind) :
    (p.edits c).coming (G.watch kind) kind = p.coming (G.watch kind) kind := by
  induction c generalizing p with
  | nil => rfl
  | cons e c ih =>
    rw [edits_cons, ih fun e' he' => within e' (List.mem_cons_of_mem e he')]
    have here := within e List.mem_cons_self
    cases e with
    | take watch k =>
      obtain rfl : watch = F.watch k := here
      rw [Edit.run, coming_takeVerdict]
      split
      · rename_i same
        obtain ⟨same, rfl⟩ := same
        -- a watch that both have would be in common
        have none : G.watch kind = none := by
          rcases hw : G.watch kind with _ | w
          · rfl
          · exact absurd hw (apart.watch kind w (same ▸ hw))
        rw [none]
        rfl
      · rfl
    | _ => rfl

/-- The entries that a row of edits registers are for the place in its footprint. -/
theorem key_of_mem_registers (within : ∀ e ∈ c, e.Within F) {entry : Path × Handle}
    (mem : entry ∈ c.filterMap Edit.registers?) : F.key = some entry.1 := by
  obtain ⟨e, he, registers⟩ := List.mem_filterMap.mp mem
  cases e with
  | register k h =>
    obtain rfl := Option.some.inj registers
    exact within _ he
  | _ => exact absurd registers (by simp [Edit.registers?])

theorem registered?_edits (apart : F.Apart G) (within : ∀ e ∈ c, e.Within F) {key : Path}
    (hk : G.key = some key) : (p.edits c).registered? key = p.registered? key := by
  have unregistered : (c.filterMap Edit.registers?).find? (fun e => e.1.same key) = none := by
    rw [List.find?_eq_none]
    intro entry mem
    simpa using apart.key entry.1 key (key_of_mem_registers within mem) hk
  rw [registered?, registry_edits, List.find?_append, unregistered, Option.or_none, registered?]

/-- Edits in a footprint leave the loaders of others alone. -/
theorem loaders_of_within (within : ∀ e ∈ c, e.Within F) {l : LoaderId} (other : l ≠ F.loader) :
    (p.edits c).loaders[l]? = p.loaders[l]? := by
  refine loaders_edits fun e he changed => ?_
  have here := within e he
  cases e with
  | state | handle => exact other ((Option.some.inj changed).symm.trans here)
  | _ => exact absurd changed (by simp [Edit.loader?])

/-- Edits in a footprint leave the bridges of others alone. -/
theorem bridges_of_within (within : ∀ e ∈ c, e.Within F) {b : BridgeId}
    (other : F.bridge ≠ some b) : (p.edits c).bridges[b]? = p.bridges[b]? := by
  refine bridges_edits fun e he changed => ?_
  have here := within e he
  cases e with
  | bound => exact other (Option.some.inj changed ▸ here)
  | _ => exact absurd changed (by simp [Edit.bridge?])

/-- **Edits in a footprint do not show in another one**, but for the numbers of the libraries
that are opened later. -/
theorem mirrors_edits (closed : p.Closed) (apart : F.Apart G) (within : ∀ e ∈ c, e.Within F) :
    Mirrors G p.libraries.length (Edit.opens c) p (p.edits c) where
  files := by rw [host_edits, Host.mapAll_eq]
  cwd := by rw [host_edits, Host.mapAll_eq]
  answers := fun path => by rw [host_edits, Host.answer_mapAll]
  labels := label_edits p c
  coming := coming_edits apart within
  opened := fun h => by
    rw [libraries_edits]
    rcases Nat.lt_or_ge h p.libraries.length with lt | ge
    · rw [shifted_of_lt _ lt, List.getElem?_append_left lt]
    · rw [shifted_of_le _ ge, List.getElem?_eq_none ge]
      exact List.getElem?_eq_none (by rw [List.length_append, Edit.opens]; omega)
  base := Nat.le_refl _
  count := length_libraries_edits p c
  registered := fun key hk => by
    rw [registered?_edits apart within hk]
    rcases here : p.registered? key with _ | h
    · rfl
    · obtain ⟨e, found, rfl⟩ := Option.map_eq_some_iff.mp here
      rw [Option.map_some, shifted_of_lt _ (closed.registry e (List.mem_of_find?_eq_some found))]
  loader := by
    rw [loaders_of_within within apart.loader.symm]
    rcases here : p.loaders[G.loader]? with _ | l
    · rfl
    · have fixed := fun h hh => shifted_of_lt (Edit.opens c)
        (closed.loaders l (List.mem_of_getElem? here) h hh)
      rw [Option.map_some, Loader.rename_eq_self fixed]
  bridge := fun b hb => by
    rw [bridges_of_within within fun hb' => apart.bridge b hb' hb]
    rcases here : p.bridges[b]? with _ | bridge
    · rfl
    · have fixed := fun r hr => shifted_of_lt (Edit.opens c)
        (closed.bridges bridge (List.mem_of_getElem? here) r hr)
      rw [Option.map_some, Bridge.rename_eq_self fixed]

end Process
end Linkage
