import Linkage.Proofs.Host.Mapping
import Linkage.Proofs.Process.Dwindling

/-!
# Operations as rows of edits

Whatever an operation does to a process, it does in small steps, each of which writes one cell:
a verdict is taken, a file is mapped, a library is added, and so on.  An `Edit` is such a step
without the process it was made in.  So the edits that an operation makes in one process can
be made in another (`Process.edits`), and what a row of them does to each part of the
process is a list of its own (`host_edits`, `libraries_edits`, ...), which does not depend on
what else the row holds.

An edit may hold the handle of a library.  In a process in which further libraries have been
opened, a library that is opened by an edit gets another number, and the later edits of the
row mean it by that number (`Edit.rename`, `shifted`).
-/

namespace Linkage

open Process

/-! ## Handles under other numbers -/

/-- The number of a library in a process in which `d` further ones were opened behind the
first `n`. -/
def shifted (n d h : Nat) : Nat := if h < n then h else h + d

theorem shifted_of_lt {n h : Nat} (d : Nat) (lt : h < n) : shifted n d h = h := if_pos lt

theorem shifted_of_le {n h : Nat} (d : Nat) (le : n ≤ h) : shifted n d h = h + d :=
  if_neg (Nat.not_lt.mpr le)

theorem shifted_zero (n : Nat) : shifted n 0 = id := by
  funext h
  rw [shifted, Nat.add_zero, ite_self, id]

variable {ρ σ : Handle → Handle}

/-- A bound function, its library under another number. -/
def SymbolReference.rename (ρ : Handle → Handle) (r : SymbolReference) : SymbolReference :=
  { r with handle := ρ r.handle }

/-- A loader, its library under another number. -/
def Loader.rename (ρ : Handle → Handle) (c : Loader) : Loader :=
  { c with handle := c.handle.map ρ }

/-- A bridge, the library of its function under another number. -/
def Bridge.rename (ρ : Handle → Handle) (b : Bridge) : Bridge :=
  { b with bound := b.bound.map (SymbolReference.rename ρ) }

theorem SymbolReference.rename_id : SymbolReference.rename id = id := rfl

theorem Loader.rename_id : Loader.rename id = id := by
  funext c
  rw [Loader.rename, Option.map_id]
  rfl

theorem Bridge.rename_id : Bridge.rename id = id := by
  funext b
  rw [Bridge.rename, SymbolReference.rename_id, Option.map_id]
  rfl

theorem Loader.rename_congr {c : Loader}
    (same : ∀ h, c.handle = some h → ρ h = σ h) : c.rename ρ = c.rename σ := by
  rcases here : c.handle with _ | h
  · rw [Loader.rename, Loader.rename, here]
    rfl
  · rw [Loader.rename, Loader.rename, here, Option.map_some, Option.map_some, same h here]

theorem Bridge.rename_congr {b : Bridge}
    (same : ∀ r, b.bound = some r → ρ r.handle = σ r.handle) : b.rename ρ = b.rename σ := by
  rcases here : b.bound with _ | r
  · rw [Bridge.rename, Bridge.rename, here]
    rfl
  · rw [Bridge.rename, Bridge.rename, here, Option.map_some, Option.map_some,
      SymbolReference.rename, SymbolReference.rename, same r here]

theorem Loader.rename_eq_self {c : Loader} (fixed : ∀ h, c.handle = some h → ρ h = h) :
    c.rename ρ = c :=
  (Loader.rename_congr fixed).trans (congrFun Loader.rename_id c)

theorem Bridge.rename_eq_self {b : Bridge}
    (fixed : ∀ r, b.bound = some r → ρ r.handle = r.handle) : b.rename ρ = b :=
  (Bridge.rename_congr fixed).trans (congrFun Bridge.rename_id b)

/-! ## Edits -/

/-- One change of a process. -/
inductive Edit where
  /-- A verdict is taken. -/
  | take (watch : Option WatchId) (kind : UseKind)
  /-- The platform's loader is asked for what is at a path. -/
  | map (path : Path)
  | report (r : Report)
  /-- An opened library is added. -/
  | opened (lib : Library)
  | register (key : Path) (h : Handle)
  | state (l : LoaderId) (s : LoadState)
  | handle (l : LoaderId) (h : Handle)
  | bound (b : BridgeId) (r : SymbolReference)

namespace Edit

/-- The process behind a change. -/
def run : Edit → Process → Process
  | take watch kind, p => (p.takeVerdict watch kind).2
  | map path, p => { p with host := (p.host.mapLibrary path).2 }
  | report r, p => { p with journal := p.journal ++ [r] }
  | opened lib, p => (p.addLibrary lib).2
  | register key h, p => p.register key h
  | state l s, p => p.setState l s
  | handle l h, p => p.storeHandle l h
  | bound b r, p => p.storeSymbol b r

/-- A change, the libraries it means under other numbers. -/
def rename (ρ : Handle → Handle) : Edit → Edit
  | register key h => register key (ρ h)
  | handle l h => handle l (ρ h)
  | bound b r => bound b (r.rename ρ)
  | e => e

/-! ### What a change writes to -/

/-- The use that takes its verdict. -/
def use? : Edit → Option (Option WatchId × UseKind)
  | take watch kind => some (watch, kind)
  | _ => none

/-- The path that is mapped. -/
def path? : Edit → Option Path
  | map path => some path
  | _ => none

/-- What is reported. -/
def report? : Edit → Option Report
  | report r => some r
  | _ => none

/-- The library that is added. -/
def library? : Edit → Option Library
  | opened lib => some lib
  | _ => none

/-- How many libraries a row of changes opens. -/
def opens (c : List Edit) : Nat := (c.filterMap library?).length

/-- The place and the handle that are registered. -/
def registers? : Edit → Option (Path × Handle)
  | register key h => some (key, h)
  | _ => none

/-- The loader that is changed. -/
def loader? : Edit → Option LoaderId
  | state l _ | handle l _ => some l
  | _ => none

/-- The bridge that is changed. -/
def bridge? : Edit → Option BridgeId
  | bound b _ => some b
  | _ => none

end Edit

namespace Process

variable {p : Process} {c : List Edit}

/-- A process behind a row of changes. -/
def edits (p : Process) (c : List Edit) : Process := c.foldl (fun p e => e.run p) p

@[simp] theorem edits_nil (p : Process) : p.edits [] = p := rfl

theorem edits_cons (p : Process) (e : Edit) (c : List Edit) :
    p.edits (e :: c) = (e.run p).edits c := rfl

theorem edits_append (p : Process) (c c' : List Edit) :
    p.edits (c ++ c') = (p.edits c).edits c' := List.foldl_append ..

/-! ## The parts of an edited process -/

/-- Watches behind a use that has taken its verdict. -/
def drawn (watches : List Watch) (use : Option WatchId × UseKind) : List Watch :=
  match use.1 with
  | none => watches
  | some w => watches.modify w fun v => { v with script := (takeFrom v.script use.2).2 }

theorem drawn_takeVerdict (p : Process) (watch : Option WatchId) (kind : UseKind) :
    (p.takeVerdict watch kind).2.watches = drawn p.watches (watch, kind) := by
  cases watch with
  | none => rfl
  | some w =>
    rcases here : p.watches[w]? with _ | watched
    · have beyond : p.watches.length ≤ w := List.getElem?_eq_none_iff.mp here
      simp only [takeVerdict, here, drawn]
      exact (List.modify_eq_self beyond).symm
    · obtain ⟨lt, rfl⟩ := List.getElem?_eq_some_iff.mp here
      simp only [takeVerdict, here, drawn]
      refine List.ext_getElem? fun i => ?_
      rw [List.getElem?_set, List.getElem?_modify]
      by_cases hi : w = i
      · subst hi
        simp [lt]
      · simp [hi]

theorem takeFrom_comm (s : Script) (kind kind' : UseKind) :
    (takeFrom (takeFrom s kind).2 kind').2 = (takeFrom (takeFrom s kind').2 kind).2 := by
  cases kind <;> cases kind' <;> rfl

/-- Two uses leave the same verdicts to come, whichever is first. -/
theorem drawn_comm (watches : List Watch) (u v : Option WatchId × UseKind) :
    drawn (drawn watches u) v = drawn (drawn watches v) u := by
  obtain ⟨_ | w, kind⟩ := u
  · rfl
  obtain ⟨_ | w', kind'⟩ := v
  · rfl
  refine List.ext_getElem? fun i => ?_
  simp only [drawn, List.getElem?_modify, Option.map_eq_map, Option.map_map]
  congr 1
  funext watched
  by_cases hw : w = i
  · by_cases hw' : w' = i
    · simp only [Function.comp, hw, hw', if_true]
      rw [takeFrom_comm]
    · simp only [Function.comp, hw, hw', if_true, if_false]
  · simp only [Function.comp, hw, if_false]

instance : RightCommutative drawn := ⟨drawn_comm⟩

theorem host_edits (p : Process) (c : List Edit) :
    (p.edits c).host = p.host.mapAll (c.filterMap Edit.path?) := by
  induction c generalizing p with
  | nil => rfl
  | cons e c ih =>
    rw [edits_cons, ih]
    cases e with
    | take watch kind => exact congrArg (Host.mapAll · _) (heard_takeVerdict p watch kind).host
    | _ => rfl

theorem watches_edits (p : Process) (c : List Edit) :
    (p.edits c).watches = (c.filterMap Edit.use?).foldl drawn p.watches := by
  induction c generalizing p with
  | nil => rfl
  | cons e c ih =>
    rw [edits_cons, ih]
    cases e with
    | take watch kind => exact congrArg (List.foldl drawn · _) (drawn_takeVerdict p watch kind)
    | _ => rfl

theorem libraries_edits (p : Process) (c : List Edit) :
    (p.edits c).libraries = p.libraries ++ c.filterMap Edit.library? := by
  induction c generalizing p with
  | nil => exact (List.append_nil _).symm
  | cons e c ih =>
    rw [edits_cons, ih]
    cases e with
    | take watch kind => exact congrArg (· ++ _) (heard_takeVerdict p watch kind).libraries
    | opened lib => exact List.append_assoc ..
    | _ => rfl

theorem length_libraries_edits (p : Process) (c : List Edit) :
    (p.edits c).libraries.length = p.libraries.length + Edit.opens c := by
  rw [libraries_edits, List.length_append, Edit.opens]

theorem registry_edits (p : Process) (c : List Edit) :
    (p.edits c).registry = p.registry ++ c.filterMap Edit.registers? := by
  induction c generalizing p with
  | nil => exact (List.append_nil _).symm
  | cons e c ih =>
    rw [edits_cons, ih]
    cases e with
    | take watch kind => exact congrArg (· ++ _) (heard_takeVerdict p watch kind).registry
    | register key h => exact List.append_assoc ..
    | _ => rfl

theorem journal_takeVerdict (p : Process) (watch : Option WatchId) (kind : UseKind) :
    (p.takeVerdict watch kind).2.journal = p.journal := by
  unfold takeVerdict
  split
  · rfl
  · split <;> rfl

theorem journal_edits (p : Process) (c : List Edit) :
    (p.edits c).journal = p.journal ++ c.filterMap Edit.report? := by
  induction c generalizing p with
  | nil => exact (List.append_nil _).symm
  | cons e c ih =>
    rw [edits_cons, ih]
    cases e with
    | take watch kind => exact congrArg (· ++ _) (journal_takeVerdict p watch kind)
    | report r => exact List.append_assoc ..
    | _ => rfl

theorem inProcessMade_edits (p : Process) (c : List Edit) :
    (p.edits c).inProcessMade = p.inProcessMade := by
  induction c generalizing p with
  | nil => rfl
  | cons e c ih =>
    rw [edits_cons, ih]
    cases e with
    | take watch kind => exact (heard_takeVerdict p watch kind).inProcessMade
    | _ => rfl

theorem held_edits (p : Process) (c : List Edit) : (p.edits c).held = p.held := by
  induction c generalizing p with
  | nil => rfl
  | cons e c ih =>
    rw [edits_cons, ih]
    cases e with
    | take watch kind => exact (heard_takeVerdict p watch kind).held
    | _ => rfl

/-- A loader is changed by the edits of this loader only. -/
theorem loaders_edits {k : LoaderId} (others : ∀ e ∈ c, e.loader? ≠ some k) :
    (p.edits c).loaders[k]? = p.loaders[k]? := by
  induction c generalizing p with
  | nil => rfl
  | cons e c ih =>
    rw [edits_cons, ih fun e' he' => others e' (List.mem_cons_of_mem e he')]
    have other := others e List.mem_cons_self
    cases e with
    | take watch kind => rw [Edit.run, (heard_takeVerdict p watch kind).loaders]
    | state l s | handle l h =>
      exact List.getElem?_modify_ne _ _ fun is => other (congrArg some is)
    | _ => rfl

/-- A bridge is changed by the edits of this bridge only. -/
theorem bridges_edits {k : BridgeId} (others : ∀ e ∈ c, e.bridge? ≠ some k) :
    (p.edits c).bridges[k]? = p.bridges[k]? := by
  induction c generalizing p with
  | nil => rfl
  | cons e c ih =>
    rw [edits_cons, ih fun e' he' => others e' (List.mem_cons_of_mem e he')]
    have other := others e List.mem_cons_self
    cases e with
    | take watch kind => rw [Edit.run, (heard_takeVerdict p watch kind).bridges]
    | bound b r => exact List.getElem?_modify_ne _ _ fun is => other (congrArg some is)
    | _ => rfl

end Process
end Linkage
