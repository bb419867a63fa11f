import Linkage.Proofs.Session.Reach

/-!
# The registry over whole runs

Which handle a loader has is decided at its load, on the disk as it was then; which
handles are shared is decided by the places that were found.  The theorem of this module
says so for every session that is reached, whatever its commands were and however they
came out.
-/

namespace Linkage

open Process

namespace Account

variable {p : Process} {ev : History} {l : LoaderId}

/-- Each place that is registered was opened once, and no other was opened. -/
theorem countP_opens (h : Account p ev) (key : Path) :
    ev.opens.countP (fun a => a.key.same key) = if (p.registered? key).isSome then 1 else 0 := by
  have count : ev.opens.countP (fun a => a.key.same key) =
      (ev.opens.map (·.key.components)).count key.components := by
    rw [List.count, List.countP_map]
    exact List.countP_congr fun a _ => by simp [Path.same]
  rw [count]
  split
  · rename_i present
    obtain ⟨i, hi⟩ := Option.isSome_iff_exists.mp present
    obtain ⟨a, ha, hk, -⟩ := h.registered?_eq_some.mp hi
    refine List.count_eq_one_of_mem h.distinct ?_
    rw [← Path.same_iff.mp hk]
    exact List.mem_map_of_mem ha
  · rename_i absent
    have none := h.registered?_eq_none.mp (Option.not_isSome_iff_eq_none.mp absent)
    rw [List.count_eq_zero]
    intro mem
    obtain ⟨a, ha, hk⟩ := List.mem_map.mp mem
    exact none a ha (Path.same_iff.mpr hk)

/-- A loader has a handle exactly if one load of it has succeeded, and then it has the handle
of that load. -/
theorem loads_of_handle (h : Account p ev) {i : Handle} (hi : (p.loader l).handle = some i) :
    ∃ a, ev.loads l = [a] ∧ a.handle = i := by
  have stored := h.stored l
  rw [hi] at stored
  exact List.map_eq_singleton_iff.mp stored

/-- The handle of a loader is the number of an opened library. -/
theorem lt_of_handle (h : Account p ev) {i : Handle} (hi : (p.loader l).handle = some i) :
    i < p.libraries.length := by
  obtain ⟨a, loads, rfl⟩ := h.loads_of_handle hi
  have registered := h.registered l a (loads ▸ List.mem_singleton_self a)
  obtain ⟨b, opened, -, same⟩ := h.registered?_eq_some.mp registered
  exact same ▸ h.handle_lt opened

theorem handle_of_loaded (h : Account p ev) {host : Host} {a : Load}
    (ha : .loaded l host a ∈ ev) : (p.loader l).handle = some a.handle := by
  have mem : a.handle ∈ (p.loader l).handle.toList :=
    h.stored l ▸ List.mem_map_of_mem (History.mem_loads.mpr ⟨host, ha⟩)
  simpa using mem

/-- Two loads have one handle exactly if their places are the same. -/
theorem handle_eq_iff (h : Account p ev) {k : LoaderId} {a b : Load} (ha : a ∈ ev.loads l)
    (hb : b ∈ ev.loads k) : a.handle = b.handle ↔ a.key.same b.key := by
  obtain ⟨c, hc, hca, hch⟩ := h.registered?_eq_some.mp (h.registered l a ha)
  obtain ⟨d, hd, hdb, hdh⟩ := h.registered?_eq_some.mp (h.registered k b hb)
  rw [Path.same_iff] at hca hdb ⊢
  constructor
  · intro same
    obtain rfl := h.eq_of_handle hc hd (hch.trans (same.trans hdh.symm))
    exact hca.symm.trans hdb
  · intro same
    obtain rfl := h.eq_of_same hc hd (Path.same_iff.mpr (hca.trans (same.trans hdb.symm)))
    exact hch.symm.trans hdh

/-- Loaders that have loaded share their handle exactly if they are known by the same place,
each by what its path led to at its load. -/
theorem shared_iff (h : Account p ev) {k : LoaderId} {around around' : Host} {a b : Load}
    (ha : .loaded l around a ∈ ev) (hb : .loaded k around' b ∈ ev) :
    (p.loader l).handle = (p.loader k).handle ↔
      (around.registryKey a.path).same (around'.registryKey b.path) := by
  rw [h.handle_of_loaded ha, h.handle_of_loaded hb, Option.some.injEq,
    h.handle_eq_iff (History.mem_loads.mpr ⟨_, ha⟩) (History.mem_loads.mpr ⟨_, hb⟩),
    (h.loaded l around a ha).2, (h.loaded k around' b hb).2]

/-- A library that a loader has loaded was opened once for its place, and no other was. -/
theorem opening_of_loaded (h : Account p ev) {around : Host} {a : Load}
    (ha : .loaded l around a ∈ ev) :
    ∃ k around' b, .opened k around' b ∈ ev ∧ b.handle = a.handle ∧
      (around.registryKey a.path).same (around'.registryKey b.path) ∧
      ∀ k' around'' c, .opened k' around'' c ∈ ev →
        (around.registryKey a.path).same (around''.registryKey c.path) → c = b := by
  obtain ⟨b, opens, same, handle⟩ :=
    h.registered?_eq_some.mp (h.registered l a (History.mem_loads.mpr ⟨around, ha⟩))
  obtain ⟨k, around', hb⟩ := History.mem_opens.mp opens
  have keys : ∀ {k' around'' c}, .opened k' around'' c ∈ ev →
      ((around.registryKey a.path).same (around''.registryKey c.path) ↔
        c.key.components = a.key.components) := by
    intro k' around'' c hc
    rw [(h.loaded l around a ha).2, (h.opened k' around'' c hc).2, Path.same_iff, eq_comm]
  rw [Path.same_iff] at same
  refine ⟨k, around', b, hb, handle, (keys hb).mpr same, fun k' around'' c hc first => ?_⟩
  exact h.eq_of_same (History.mem_opens.mpr ⟨k', around'', hc⟩) opens
    (Path.same_iff.mpr (((keys hc).mp first).trans same.symm))

end Account

namespace Session

/-- **The registry over whole runs.**  Behind any commands: the registry has only grown; a
loader with a handle has had one load that succeeded, and its handle is the one that is
registered for the place found in that load; two loaders share their handle exactly if
those places are the same; a place that is registered was opened once, a place that is not
was never opened, and nothing else was opened; and a handle has the path at which it was
opened, whoever has it. -/
theorem registry_follows_history (host : Host) (cs : List Command) :
    let p := ((start host).after cs).process
    let ev := (start host).history cs
    (∀ cs', let q := ((start host).after (cs ++ cs')).process
      p.registry <+: q.registry ∧
        ∀ key h, p.registered? key = some h → q.registered? key = some h) ∧
    (∀ l h, (p.loader l).handle = some h →
      ∃ around a, ev.loads l = [a] ∧ .loaded l around a ∈ ev ∧ .located l a.path ∈ ev ∧
        a.key = around.registryKey a.path ∧ a.handle = h ∧ p.registered? a.key = some h) ∧
    (∀ l around a, .loaded l around a ∈ ev → (p.loader l).handle = some a.handle) ∧
    (∀ l k a b, a ∈ ev.loads l → b ∈ ev.loads k →
      ((p.loader l).handle = (p.loader k).handle ↔ a.key.same b.key)) ∧
    (∀ key, ev.opens.countP (fun a => a.key.same key) =
      if (p.registered? key).isSome then 1 else 0) ∧
    p.libraries.length = ev.opens.length ∧
    (∀ l around a, .opened l around a ∈ ev → .located l a.path ∈ ev ∧
      a.key = around.registryKey a.path ∧ p.pathOf a.handle = a.path) ∧
    (∀ l h, (p.loader l).handle = some h →
      ∃ k around a, .opened k around a ∈ ev ∧ a.handle = h ∧ p.pathOf h = a.path) := by
  intro p ev
  have kept := kept_after host cs
  have account : Account p ev := kept.rest.toAccount
  have own : ∀ l h, (p.loader l).handle = some h →
      ∃ around a, ev.loads l = [a] ∧ .loaded l around a ∈ ev ∧ a.handle = h := by
    intro l h hl
    obtain ⟨a, loads, rfl⟩ := account.loads_of_handle hl
    obtain ⟨around, ha⟩ := History.mem_loads.mp (loads ▸ List.mem_singleton_self a)
    exact ⟨around, a, loads, ha, rfl⟩
  refine ⟨fun cs' => ?_, fun l h hl => ?_, fun l around a ha => account.handle_of_loaded ha,
    fun l k a b ha hb => ?_, account.countP_opens, kept.rest.even, fun l around a ha => ?_,
    fun l h hl => ?_⟩
  · have grows := (kept.after cs').2
    rw [← after_append] at grows
    exact ⟨grows.registry, fun key h hk => grows.registered? hk⟩
  · obtain ⟨around, a, loads, ha, rfl⟩ := own l h hl
    obtain ⟨located, key⟩ := account.loaded l around a ha
    exact ⟨around, a, loads, ha, located, key, rfl,
      account.registered l a (loads ▸ List.mem_singleton_self a)⟩
  · obtain ⟨_, ha'⟩ := History.mem_loads.mp ha
    obtain ⟨_, hb'⟩ := History.mem_loads.mp hb
    rw [account.handle_of_loaded ha', account.handle_of_loaded hb', Option.some.injEq]
    exact account.handle_eq_iff ha hb
  · obtain ⟨located, key⟩ := account.opened l around a ha
    exact ⟨located, key, account.path a (History.mem_opens.mpr ⟨l, around, ha⟩)⟩
  · obtain ⟨around, a, loads, ha, rfl⟩ := own l h hl
    have registered := account.registered l a (loads ▸ List.mem_singleton_self a)
    obtain ⟨b, hb, -, handle⟩ := account.registered?_eq_some.mp registered
    obtain ⟨k, around', hb'⟩ := History.mem_opens.mp hb
    exact ⟨k, around', b, hb', handle, handle ▸ account.path b hb⟩

end Session
end Linkage
