import Linkage.Proofs.Process.Growth
import Mathlib.Data.List.Nodup

/-!
# The account of the registry

What the registry holds is a matter of history: the place of a library is found anew at
each load, on the disk as it is then, so a handle and its entry are related through the
loads that have been.  A *history* lists them: where a source had a library, which
libraries were opened, and which loaders got a handle.

`Account p ev` says how a process stands to its history.  The registry is the list of
the libraries that were opened, in their order; their places all differ; their handles
are the numbers from zero on; and a loader has a handle exactly if a load of it is in
the history, which is the handle registered for the place of that load.  Every operation
on loaders keeps the account, and the few that write to the registry or to a handle add
to the history what they did.
-/

namespace Linkage

/-! ## Histories -/

/-- What happens on the way to a handle. -/
inductive Event where
  /-- The source of the loader had the library at this path. -/
  | located (l : LoaderId) (path : Path)
  /-- The library was opened for the loader and registered, around it this host. -/
  | opened (l : LoaderId) (host : Host) (a : Load)
  /-- The loader got its handle, around it this host. -/
  | loaded (l : LoaderId) (host : Host) (a : Load)
  deriving DecidableEq

/-- What happened, the latest last. -/
abbrev History := List Event

namespace History

/-- The libraries that were opened. -/
def opens (ev : History) : List Load :=
  ev.filterMap fun
    | .opened _ _ a => some a
    | _ => none

/-- The loads of one loader that succeeded. -/
def loads (ev : History) (l : LoaderId) : List Load :=
  ev.filterMap fun
    | .loaded k _ a => if k = l then some a else none
    | _ => none

variable {ev ev' : History} {l : LoaderId} {host : Host} {a : Load} {path : Path}

@[simp] theorem opens_append : opens (ev ++ ev') = opens ev ++ opens ev' :=
  List.filterMap_append ..

@[simp] theorem opens_nil : opens [] = [] := rfl

@[simp] theorem opens_located : opens [.located l path] = [] := rfl

@[simp] theorem opens_opened : opens [.opened l host a] = [a] := rfl

@[simp] theorem opens_loaded : opens [.loaded l host a] = [] := rfl

@[simp] theorem loads_append (k : LoaderId) : loads (ev ++ ev') k = loads ev k ++ loads ev' k :=
  List.filterMap_append ..

@[simp] theorem loads_nil (k : LoaderId) : loads [] k = [] := rfl

@[simp] theorem loads_located (k : LoaderId) : loads [.located l path] k = [] := rfl

@[simp] theorem loads_opened (k : LoaderId) : loads [.opened l host a] k = [] := rfl

@[simp] theorem loads_loaded (k : LoaderId) :
    loads [.loaded l host a] k = if l = k then [a] else [] := by
  by_cases h : l = k <;> simp [loads, h]

theorem mem_opens : a ∈ opens ev ↔ ∃ l host, .opened l host a ∈ ev := by
  simp only [opens, List.mem_filterMap]
  constructor
  · rintro ⟨e, he, h⟩
    cases e <;> cases h
    exact ⟨_, _, he⟩
  · rintro ⟨l, host, he⟩
    exact ⟨_, he, rfl⟩

theorem mem_loads : a ∈ loads ev l ↔ ∃ host, .loaded l host a ∈ ev := by
  simp only [loads, List.mem_filterMap]
  constructor
  · rintro ⟨e, he, h⟩
    cases e with
    | loaded k host b =>
      obtain ⟨rfl, rfl⟩ : k = l ∧ b = a := by simpa using h
      exact ⟨host, he⟩
    | located | opened => cases h
  · rintro ⟨host, he⟩
    exact ⟨_, he, by simp⟩

end History

/-! ## The account -/

/-- How a load came to its place: the source had the library at the path, and the place
is the one that the path has on the host. -/
def Found (ev : History) (l : LoaderId) (host : Host) (path key : Path) : Prop :=
  .located l path ∈ ev ∧ key = host.registryKey path

theorem Found.append {ev : History} {l : LoaderId} {host : Host} {path key : Path}
    (h : Found ev l host path key) (ev' : History) : Found (ev ++ ev') l host path key :=
  ⟨List.mem_append_left _ h.1, h.2⟩

/-- How a process stands to its history. -/
structure Account (p : Process) (ev : History) : Prop where
  registry : p.registry = ev.opens.map fun a => (a.key, a.handle)
  /-- No place was opened twice. -/
  distinct : (ev.opens.map (·.key.components)).Nodup
  handles : ev.opens.map (·.handle) = List.range ev.opens.length
  bound : ev.opens.length ≤ p.libraries.length
  /-- A library has the path at which it was opened. -/
  path : ∀ a ∈ ev.opens, p.pathOf a.handle = a.path
  /-- A loader has a handle from the one load of it that succeeded. -/
  stored : ∀ l, (ev.loads l).map (·.handle) = (p.loader l).handle.toList
  registered : ∀ l, ∀ a ∈ ev.loads l, p.registered? a.key = some a.handle
  opened : ∀ l host a, .opened l host a ∈ ev → Found ev l host a.path a.key
  loaded : ∀ l host a, .loaded l host a ∈ ev → Found ev l host a.path a.key
  valid : ∀ l host a, .loaded l host a ∈ ev → l < p.loaders.length

namespace Account

open Process

variable {p q : Process} {ev ev' : History} {l : LoaderId} {host : Host} {a : Load}
  {path key : Path}

theorem start (host : Host) : Account (.start host) [] where
  registry := rfl
  distinct := List.nodup_nil
  handles := rfl
  bound := Nat.le_refl _
  path := fun _ h => absurd h List.not_mem_nil
  stored := fun _ => rfl
  registered := fun _ _ h => absurd h List.not_mem_nil
  opened := fun _ _ _ h => absurd h List.not_mem_nil
  loaded := fun _ _ _ h => absurd h List.not_mem_nil
  valid := fun _ _ _ h => absurd h List.not_mem_nil

/-- The handles of opened libraries are numbers of libraries. -/
theorem handle_lt (h : Account p ev) (ha : a ∈ ev.opens) : a.handle < p.libraries.length := by
  have mem : a.handle ∈ List.range ev.opens.length := h.handles ▸ List.mem_map_of_mem ha
  exact Nat.lt_of_lt_of_le (List.mem_range.mp mem) h.bound

/-- Two libraries that were opened for the same place are one. -/
theorem eq_of_same (h : Account p ev) {b : Load} (ha : a ∈ ev.opens) (hb : b ∈ ev.opens)
    (same : a.key.same b.key) : a = b :=
  List.inj_on_of_nodup_map h.distinct ha hb (Path.same_iff.mp same)

/-- Two libraries with one handle are one. -/
theorem eq_of_handle (h : Account p ev) {b : Load} (ha : a ∈ ev.opens) (hb : b ∈ ev.opens)
    (same : a.handle = b.handle) : a = b :=
  List.inj_on_of_nodup_map (h.handles ▸ List.nodup_range) ha hb same

/-- A handle is registered for a place exactly if it was opened for that place. -/
theorem registered?_eq_some (h : Account p ev) {i : Handle} :
    p.registered? key = some i ↔ ∃ a ∈ ev.opens, a.key.same key ∧ a.handle = i := by
  rw [registered?, h.registry, List.find?_map, Option.map_map, Option.map_eq_some_iff]
  constructor
  · rintro ⟨a, ha, rfl⟩
    exact ⟨a, List.mem_of_find?_eq_some ha, by simpa using List.find?_some ha, rfl⟩
  · rintro ⟨a, ha, hk, rfl⟩
    obtain ⟨b, hb⟩ : ∃ b, ev.opens.find? (fun b => b.key.same key) = some b :=
      Option.isSome_iff_exists.mp (List.find?_isSome.mpr ⟨a, ha, hk⟩)
    refine ⟨b, hb, ?_⟩
    -- the first entry for the place is the only one
    have same : b.key.same a.key := Path.same_iff.mpr
      ((Path.same_iff.mp (by simpa using List.find?_some hb)).trans (Path.same_iff.mp hk).symm)
    exact congrArg Load.handle (h.eq_of_same (List.mem_of_find?_eq_some hb) ha same)

/-- Nothing is registered for a place exactly if nothing was opened for it. -/
theorem registered?_eq_none (h : Account p ev) :
    p.registered? key = none ↔ ∀ a ∈ ev.opens, ¬ a.key.same key := by
  rw [← Option.not_isSome_iff_eq_none, Option.isSome_iff_exists]
  refine ⟨fun none a ha hk => none ⟨_, h.registered?_eq_some.mpr ⟨a, ha, hk, rfl⟩⟩, ?_⟩
  rintro none ⟨i, hi⟩
  obtain ⟨a, ha, hk, -⟩ := h.registered?_eq_some.mp hi
  exact none a ha hk

/-! ## What keeps the account -/

/-- Libraries may be added, and everything may be changed that is neither registry nor
handle. -/
theorem frame (h : Account p ev) (registry : q.registry = p.registry)
    (libraries : p.libraries <+: q.libraries)
    (handle : ∀ l, (q.loader l).handle = (p.loader l).handle)
    (loaders : p.loaders.length ≤ q.loaders.length) : Account q ev where
  registry := registry.trans h.registry
  distinct := h.distinct
  handles := h.handles
  bound := Nat.le_trans h.bound libraries.length_le
  path := fun a ha => by rw [pathOf_eq_of_extends libraries (h.handle_lt ha), h.path a ha]
  stored := fun l => by rw [h.stored, handle]
  registered := fun l a ha => by
    rw [registered?, registry]
    exact h.registered l a ha
  opened := h.opened
  loaded := h.loaded
  valid := fun l host a ha => Nat.lt_of_lt_of_le (h.valid l host a ha) loaders

theorem heard (h : Account p ev) (hq : Heard p q) : Account q ev :=
  h.frame hq.registry (hq.libraries ▸ List.prefix_refl _) (fun l => by rw [hq.loader])
    (Nat.le_of_eq (by rw [hq.loaders]))

theorem setState (h : Account p ev) (l : LoaderId) (state : LoadState) :
    Account (p.setState l state) ev :=
  h.frame rfl (List.prefix_refl _) (fun _ => handle_setState ..)
    (Nat.le_of_eq (stays_setState ..).loaders_eq.symm)

/-- That a source had a library somewhere is no entry of the account. -/
theorem located (h : Account p ev) (l : LoaderId) (path : Path) :
    Account p (ev ++ [.located l path]) where
  registry := by simpa using h.registry
  distinct := by simpa using h.distinct
  handles := by simpa using h.handles
  bound := by simpa using h.bound
  path := by simpa using h.path
  stored := by simpa using h.stored
  registered := by simpa using h.registered
  opened := fun k host a ha => (h.opened k host a (by simpa using ha)).append _
  loaded := fun k host a ha => (h.loaded k host a (by simpa using ha)).append _
  valid := fun k host a ha => h.valid k host a (by simpa using ha)

/-- A library that has been opened last is registered for its place. -/
theorem register (h : Account p ev) (hlast : p.libraries.length = ev.opens.length + 1)
    (handle : a.handle = ev.opens.length) (path : p.pathOf a.handle = a.path)
    (unregistered : p.registered? a.key = none) (found : Found ev l host a.path a.key) :
    Account (p.register a.key a.handle) (ev ++ [.opened l host a]) where
  registry := by simp [Process.register, h.registry]
  distinct := by
    rw [History.opens_append, History.opens_opened, List.map_append, List.nodup_append]
    refine ⟨h.distinct, by simp, fun c hc d hd hcd => ?_⟩
    obtain ⟨b, hb, rfl⟩ := List.mem_map.mp hc
    obtain rfl : d = a.key.components := by simpa using hd
    exact h.registered?_eq_none.mp unregistered b hb (Path.same_iff.mpr hcd)
  handles := by simp [h.handles, handle, List.range_succ]
  bound := by simpa [Process.register] using Nat.le_of_eq hlast.symm
  path := fun b hb => by
    rcases List.mem_append.mp (History.opens_append ▸ hb) with hb | hb
    · exact h.path b hb
    · obtain rfl : b = a := by simpa using hb
      exact path
  stored := by simpa [Process.register, loader] using h.stored
  registered := fun k b hb => by
    refine (stays_register p a.key a.handle).registered? (h.registered k b ?_)
    simpa using hb
  opened := fun k host' b hb => by
    rcases List.mem_append.mp hb with hb | hb
    · exact (h.opened k host' b hb).append _
    · obtain ⟨rfl, rfl, rfl⟩ : k = l ∧ host' = host ∧ b = a := by simpa using hb
      exact found.append _
  loaded := fun k host' b hb => (h.loaded k host' b (by simpa using hb)).append _
  valid := fun k host' b hb => h.valid k host' b (by simpa using hb)

/-- A loader without a handle gets the one that is registered for its place. -/
theorem storeHandle (h : Account p ev) (hl : l < p.loaders.length)
    (none : (p.loader l).handle = none) (registered : p.registered? a.key = some a.handle)
    (found : Found ev l host a.path a.key) :
    Account (p.storeHandle l a.handle) (ev ++ [.loaded l host a]) where
  registry := by simpa [Process.storeHandle, updateLoader] using h.registry
  distinct := by simpa using h.distinct
  handles := by simpa using h.handles
  bound := by simpa [Process.storeHandle, updateLoader] using h.bound
  path := by simpa [Process.storeHandle, updateLoader, pathOf] using h.path
  stored := fun k => by
    rw [handle_storeHandle, History.loads_append, List.map_append, h.stored, History.loads_loaded]
    by_cases hk : l = k
    · subst hk
      simp [none, hl]
    · simp [hk]
  registered := fun k b hb => by
    rw [History.loads_append, List.mem_append, History.loads_loaded] at hb
    rcases hb with hb | hb
    · exact h.registered k b hb
    · split at hb
      · obtain rfl : b = a := by simpa using hb
        exact registered
      · exact absurd hb List.not_mem_nil
  opened := fun k host' b hb => (h.opened k host' b (by simpa using hb)).append _
  loaded := fun k host' b hb => by
    rcases List.mem_append.mp hb with hb | hb
    · exact (h.loaded k host' b hb).append _
    · obtain ⟨rfl, rfl, rfl⟩ : k = l ∧ host' = host ∧ b = a := by simpa using hb
      exact found.append _
  valid := fun k host' b hb => by
    rw [(stays_storeHandle p l a.handle).loaders_eq]
    rcases List.mem_append.mp hb with hb | hb
    · exact h.valid k host' b hb
    · obtain ⟨rfl, -, -⟩ : k = l ∧ host' = host ∧ b = a := by simpa using hb
      exact hl

end Account
end Linkage
