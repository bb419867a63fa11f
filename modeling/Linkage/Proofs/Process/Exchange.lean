import Linkage.Proofs.Process.Footprint
import Mathlib.Logic.Equiv.Defs

/-!
# Edits in either order

Two rows of edits in footprints that have nothing in common can be made in either order, and
leave the same process (`sameUpTo_of_edits`).  The same is meant up to three things that no
operation sees: the order of the registry, in what order the platform's loader came to what it
remembers, and the numbers of the libraries that were opened.  These are given in the order of
opening, so the libraries of the two rows exchange their numbers (`exchange`); every library
that was there before keeps its own (`SameUpTo`).

What has been reported is not part of this: the journal tells the order, as it should.
-/

namespace Linkage

open Process

/-- The numbers of `a` libraries that are opened before `b` others and behind `n`, and those of
the others, when it is the other way round. -/
def exchange (n a b : Nat) : Equiv.Perm Nat where
  toFun h := if h < n then h else if h < n + a then h + b else if h < n + a + b then h - a else h
  invFun h := if h < n then h else if h < n + b then h + a else if h < n + b + a then h - b else h
  left_inv h := by
    dsimp only
    split_ifs <;> omega
  right_inv h := by
    dsimp only
    split_ifs <;> omega

theorem exchange_of_lt {n h : Nat} (a b : Nat) (lt : h < n) : exchange n a b h = h := if_pos lt

/-- The first row of edits has its libraries behind those of the second. -/
theorem exchange_eq_shifted {n a h : Nat} (b : Nat) (lt : h < n + a) :
    exchange n a b h = shifted n b h := by
  show (if h < n then h else if h < n + a then h + b else _) = if h < n then h else h + b
  rw [if_pos lt]

/-- The second row of edits has its libraries where it would have had them alone. -/
theorem exchange_shifted {n b h : Nat} (a : Nat) (lt : h < n + b) :
    exchange n a b (shifted n a h) = h := by
  rcases Nat.lt_or_ge h n with below | above
  · rw [shifted_of_lt a below, exchange_of_lt a b below]
  · rw [shifted_of_le a above]
    show (if h + a < n then _ else if h + a < n + a then _ else
      if h + a < n + a + b then h + a - a else _) = h
    rw [if_neg (by omega), if_neg (by omega), if_pos (by omega), Nat.add_sub_cancel]

theorem getElem?_exchange {α : Type} (l a b : List α) (h : Nat) :
    (l ++ b ++ a)[exchange l.length a.length b.length h]? = (l ++ a ++ b)[h]? := by
  have value : exchange l.length a.length b.length h = if h < l.length then h
      else if h < l.length + a.length then h + b.length
      else if h < l.length + a.length + b.length then h - a.length else h := rfl
  simp only [List.getElem?_append, List.length_append]
  by_cases inL : h < l.length
  · rw [value, if_pos inL, if_pos (by omega), if_pos inL, if_pos (by omega), if_pos inL]
  · by_cases inA : h < l.length + a.length
    · rw [value, if_neg inL, if_pos inA, if_neg (by omega), if_pos inA, if_neg inL]
      exact congrArg (a[·]?) (by omega)
    · by_cases inB : h < l.length + a.length + b.length
      · rw [value, if_neg inL, if_neg inA, if_pos inB, if_pos (by omega), if_neg (by omega),
          if_neg inA]
        exact congrArg (b[·]?) (by omega)
      · rw [value, if_neg inL, if_neg inA, if_neg inB, if_neg (by omega), if_neg inA,
          List.getElem?_eq_none (by omega), List.getElem?_eq_none (by omega)]

theorem Loader.rename_rename (ρ σ : Handle → Handle) (c : Loader) :
    (c.rename ρ).rename σ = c.rename (σ ∘ ρ) := by
  rw [Loader.rename, Loader.rename, Loader.rename, Option.map_map]

theorem Bridge.rename_rename (ρ σ : Handle → Handle) (b : Bridge) :
    (b.rename ρ).rename σ = b.rename (σ ∘ ρ) := by
  rw [Bridge.rename, Bridge.rename, Bridge.rename, Option.map_map]
  rfl

namespace Edit

variable (ρ : Handle → Handle) (c : List Edit)

theorem use?_rename : (c.map (rename ρ)).filterMap use? = c.filterMap use? := by
  rw [List.filterMap_map]
  congr 1
  funext e
  cases e <;> rfl

theorem path?_rename : (c.map (rename ρ)).filterMap path? = c.filterMap path? := by
  rw [List.filterMap_map]
  congr 1
  funext e
  cases e <;> rfl

theorem report?_rename : (c.map (rename ρ)).filterMap report? = c.filterMap report? := by
  rw [List.filterMap_map]
  congr 1
  funext e
  cases e <;> rfl

theorem library?_rename : (c.map (rename ρ)).filterMap library? = c.filterMap library? := by
  rw [List.filterMap_map]
  congr 1
  funext e
  cases e <;> rfl

theorem registers?_rename : (c.map (rename ρ)).filterMap registers? =
    (c.filterMap registers?).map fun e => (e.1, ρ e.2) := by
  rw [List.filterMap_map, List.map_filterMap]
  congr 1
  funext e
  cases e <;> rfl

variable {ρ c}

theorem within_rename {F : Footprint} (within : ∀ e ∈ c, e.Within F) :
    ∀ e ∈ c.map (rename ρ), e.Within F := by
  intro e he
  obtain ⟨e, mem, rfl⟩ := List.mem_map.mp he
  have here := within e mem
  cases e <;> exact here

end Edit

namespace Process

variable {F G : Footprint} {n d : Nat} {p q : Process} {c c' : List Edit}

/-- Two processes are the same up to the numbers of libraries, the order of the registry, and
the order in which the platform's loader came to what it remembers. -/
structure SameUpTo (τ : Equiv.Perm Nat) (p q : Process) : Prop where
  host : p.host.Recalls q.host
  inProcessMade : q.inProcessMade = p.inProcessMade
  watches : q.watches = p.watches
  libraries : ∀ h : Handle, q.libraries[τ h]? = p.libraries[h]?
  registry : q.registry.Perm (p.registry.map fun e => (e.1, τ e.2))
  registered : ∀ key, q.registered? key = (p.registered? key).map τ
  loaders : q.loaders = p.loaders.map (Loader.rename τ)
  bridges : q.bridges = p.bridges.map (Bridge.rename τ)
  held : q.held = p.held

/-- A row of edits behind another one, the libraries of which have come first. -/
def editsBehind (p : Process) (c c' : List Edit) : Process :=
  (p.edits c).edits (c'.map (Edit.rename (shifted p.libraries.length (Edit.opens c))))

/-- What is found for a place, in other numbers. -/
theorem find?_renumbered (τ : Nat → Nat) (R : List (Path × Handle)) (key : Path) :
    ((R.map fun e => (e.1, τ e.2)).find? fun e => e.1.same key).map (·.2) =
      ((R.find? fun e => e.1.same key).map (·.2)).map τ := by
  rw [List.find?_map, Option.map_map, Option.map_map]
  rfl

/-- It does not matter which entries come first if no place has entries among both. -/
theorem find?_or_comm {R S : List (Path × Handle)}
    (apart : ∀ e ∈ R, ∀ e' ∈ S, e.1.same e'.1 = false) {key : Path} :
    (S.find? fun e => e.1.same key).or (R.find? fun e => e.1.same key) =
      (R.find? fun e => e.1.same key).or (S.find? fun e => e.1.same key) := by
  rcases foundR : R.find? fun e => e.1.same key with _ | e
  · rw [foundR, Option.or_none, Option.none_or]
  · rcases foundS : S.find? fun e => e.1.same key with _ | e'
    · rw [foundS, Option.or_none, Option.none_or]
    · have same : e.1.components = key.components :=
        Path.same_iff.mp (by simpa using List.find?_some foundR)
      have same' : e'.1.components = key.components :=
        Path.same_iff.mp (by simpa using List.find?_some foundS)
      have both := apart e (List.mem_of_find?_eq_some foundR) e' (List.mem_of_find?_eq_some foundS)
      rw [Path.same_iff.mpr (same.trans same'.symm)] at both
      exact absurd both (by simp)

section Swap

variable (closed : p.Closed) (apart : F.Apart G) (within : ∀ e ∈ c, e.Within F)
  (within' : ∀ e ∈ c', e.Within G)

include closed apart within within'

/-- What a row of edits leaves shows alike whether the other one came first or not. -/
theorem mirrors_editsBehind :
    Mirrors G p.libraries.length (Edit.opens c) (p.edits c') (p.editsBehind c c') :=
  (mirrors_edits closed apart within).along ⟨c', within', rfl, rfl⟩

variable (closed₁ : (p.edits c).Closed) (closed₂ : (p.edits c').Closed)

include closed₁ closed₂

theorem loaders_exchange : (p.editsBehind c' c).loaders = (p.editsBehind c c').loaders.map
    (Loader.rename (exchange p.libraries.length (Edit.opens c) (Edit.opens c'))) := by
  have first := mirrors_editsBehind closed apart.symm within' within
  have second := mirrors_editsBehind closed apart within within'
  refine List.ext_getElem? fun i => ?_
  rw [List.getElem?_map]
  by_cases hF : i = F.loader
  · subst hF
    have alone : (p.editsBehind c c').loaders[F.loader]? = (p.edits c).loaders[F.loader]? :=
      loaders_of_within (Edit.within_rename within') apart.loader
    rw [first.loader, alone]
    refine Option.map_congr fun x hx => Loader.rename_congr fun h hh => ?_
    have lt := closed₁.loaders x (List.mem_of_getElem? hx) h hh
    rw [length_libraries_edits] at lt
    exact (exchange_eq_shifted _ lt).symm
  · have others : (p.editsBehind c' c).loaders[i]? = (p.edits c').loaders[i]? :=
      loaders_of_within (Edit.within_rename within) hF
    rw [others]
    by_cases hG : i = G.loader
    · subst hG
      rw [second.loader, Option.map_map]
      rcases here : (p.edits c').loaders[G.loader]? with _ | x
      · rfl
      · rw [Option.map_some, Function.comp, Loader.rename_rename, Loader.rename_eq_self]
        intro h hh
        have lt := closed₂.loaders x (List.mem_of_getElem? here) h hh
        rw [length_libraries_edits] at lt
        exact exchange_shifted _ lt
    · have untouched : (p.editsBehind c c').loaders[i]? = p.loaders[i]? :=
        (loaders_of_within (Edit.within_rename within') hG).trans (loaders_of_within within hF)
      rw [untouched, loaders_of_within within' hG]
      rcases here : p.loaders[i]? with _ | x
      · rfl
      · rw [Option.map_some, Loader.rename_eq_self fun h hh => exchange_of_lt _ _
          (closed.loaders x (List.mem_of_getElem? here) h hh)]

theorem bridges_exchange : (p.editsBehind c' c).bridges = (p.editsBehind c c').bridges.map
    (Bridge.rename (exchange p.libraries.length (Edit.opens c) (Edit.opens c'))) := by
  have first := mirrors_editsBehind closed apart.symm within' within
  have second := mirrors_editsBehind closed apart within within'
  refine List.ext_getElem? fun i => ?_
  rw [List.getElem?_map]
  by_cases hF : F.bridge = some i
  · have alone : (p.editsBehind c c').bridges[i]? = (p.edits c).bridges[i]? :=
      bridges_of_within (Edit.within_rename within') fun hG => apart.bridge i hF hG
    rw [first.bridge i hF, alone]
    refine Option.map_congr fun x hx => Bridge.rename_congr fun r hr => ?_
    have lt := closed₁.bridges x (List.mem_of_getElem? hx) r hr
    rw [length_libraries_edits] at lt
    exact (exchange_eq_shifted _ lt).symm
  · have others : (p.editsBehind c' c).bridges[i]? = (p.edits c').bridges[i]? :=
      bridges_of_within (Edit.within_rename within) hF
    rw [others]
    by_cases hG : G.bridge = some i
    · rw [second.bridge i hG, Option.map_map]
      rcases here : (p.edits c').bridges[i]? with _ | x
      · rfl
      · rw [Option.map_some, Function.comp, Bridge.rename_rename, Bridge.rename_eq_self]
        intro r hr
        have lt := closed₂.bridges x (List.mem_of_getElem? here) r hr
        rw [length_libraries_edits] at lt
        exact exchange_shifted _ lt
    · have untouched : (p.editsBehind c c').bridges[i]? = p.bridges[i]? :=
        (bridges_of_within (Edit.within_rename within') hG).trans (bridges_of_within within hF)
      rw [untouched, bridges_of_within within' hG]
      rcases here : p.bridges[i]? with _ | x
      · rfl
      · rw [Option.map_some, Bridge.rename_eq_self fun r hr => exchange_of_lt _ _
          (closed.bridges x (List.mem_of_getElem? here) r hr)]

omit apart within within' in
/-- What the registry has, in the numbers of the other order. -/
theorem registry_exchange :
    (p.editsBehind c c').registry.map (fun e =>
        (e.1, exchange p.libraries.length (Edit.opens c) (Edit.opens c') e.2)) =
      p.registry ++ ((c.map (Edit.rename (shifted p.libraries.length (Edit.opens c')))).filterMap
        Edit.registers? ++ c'.filterMap Edit.registers?) := by
  rw [editsBehind, registry_edits, registry_edits, List.map_append, List.map_append,
    Edit.registers?_rename, Edit.registers?_rename, List.map_map, List.append_assoc]
  refine congrArg₂ (· ++ ·) ?_ (congrArg₂ (· ++ ·) ?_ ?_)
  · refine (List.map_congr_left fun e he => ?_).trans (List.map_id _)
    rw [exchange_of_lt _ _ (closed.registry e he)]
    rfl
  · refine List.map_congr_left fun e he => ?_
    have lt := closed₁.registry e (by rw [registry_edits]; exact List.mem_append_right _ he)
    rw [length_libraries_edits] at lt
    rw [exchange_eq_shifted _ lt]
  · refine (List.map_congr_left fun e he => ?_).trans (List.map_id _)
    have lt := closed₂.registry e (by rw [registry_edits]; exact List.mem_append_right _ he)
    rw [length_libraries_edits] at lt
    rw [Function.comp, exchange_shifted _ lt]
    rfl

theorem registered_exchange (key : Path) :
    (p.editsBehind c' c).registered? key = ((p.editsBehind c c').registered? key).map
      (exchange p.libraries.length (Edit.opens c) (Edit.opens c')) := by
  let behind := c.map (Edit.rename (shifted p.libraries.length (Edit.opens c')))
  have apart' : ∀ e ∈ behind.filterMap Edit.registers?, ∀ e' ∈ c'.filterMap Edit.registers?,
      e.1.same e'.1 = false := fun e he e' he' =>
    apart.key e.1 e'.1 (key_of_mem_registers (Edit.within_rename within) he)
      (key_of_mem_registers within' he')
  rw [registered?, registered?, ← find?_renumbered, registry_exchange closed closed₁ closed₂,
    editsBehind, registry_edits, registry_edits, List.append_assoc, List.find?_append,
    List.find?_append, List.find?_append, List.find?_append, find?_or_comm apart']

/-- **Two rows of edits with nothing in common leave the same process in either order.** -/
theorem sameUpTo_of_edits :
    SameUpTo (exchange p.libraries.length (Edit.opens c) (Edit.opens c'))
      (p.editsBehind c c') (p.editsBehind c' c) where
  host := by
    rw [editsBehind, editsBehind, host_edits, host_edits, host_edits, host_edits,
      Edit.path?_rename, Edit.path?_rename, ← Host.mapAll_append, ← Host.mapAll_append]
    exact Host.recalls_of_perm p.host List.perm_append_comm
  inProcessMade := by
    rw [editsBehind, editsBehind, inProcessMade_edits, inProcessMade_edits, inProcessMade_edits,
      inProcessMade_edits]
  watches := by
    rw [editsBehind, editsBehind, watches_edits, watches_edits, watches_edits, watches_edits,
      Edit.use?_rename, Edit.use?_rename, ← List.foldl_append, ← List.foldl_append]
    exact List.perm_append_comm.foldl_eq p.watches
  libraries := fun h => by
    rw [editsBehind, editsBehind, libraries_edits, libraries_edits, libraries_edits,
      libraries_edits, Edit.library?_rename, Edit.library?_rename]
    exact getElem?_exchange ..
  registry := by
    rw [registry_exchange closed closed₁ closed₂, editsBehind, registry_edits, registry_edits,
      List.append_assoc]
    exact List.perm_append_comm.append_left _
  registered := registered_exchange closed apart within within' closed₁ closed₂
  loaders := loaders_exchange closed apart within within' closed₁ closed₂
  bridges := bridges_exchange closed apart within within' closed₁ closed₂
  held := by
    rw [editsBehind, editsBehind, held_edits, held_edits, held_edits, held_edits]

end Swap
end Process
end Linkage
