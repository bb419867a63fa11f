import Linkage.Proofs.Loading.Attempt

/-!
# Where a loader stands between attempts

The state of a loader is meant to take four steps only: from unloaded or failed to
loading, and from loading to loaded or failed (`LoadState.leadsTo`).  An attempt writes
the first half of this and then the second --- unless it panics, for then it is left
behind as it was, in the middle.

So what a loader is like while no attempt is under way is told by how the last attempt
came out, the panic included (`Loader.Rests`): its state is `settled`, and it has a handle
exactly if the last attempt yielded one.  Of the four ways in which the last attempt can
have come out the panic alone leaves a loader that is not being loaded in the state
`loading`.
-/

namespace Linkage

/-- The steps that the state of a loader is meant to take. -/
def LoadState.leadsTo : LoadState → LoadState → Bool
  | .unloaded, .loading | .failed, .loading | .loading, .loaded | .loading, .failed => true
  | _, _ => false

/-- How the attempts to load one library came out, the latest last. -/
abbrev Attempts := List (Outcome Handle)

namespace Attempts

/-- The state that attempts leave behind. -/
def settled (attempts : Attempts) : LoadState :=
  match attempts.getLast? with
  | none => .unloaded
  | some (.ok _) => .loaded
  | some (.error _) => .failed
  | some .panic => .loading

/-- The handle that attempts leave behind. -/
def yielded (attempts : Attempts) : Option Handle :=
  match attempts.getLast? with
  | some (.ok h) => some h
  | _ => none

variable {attempts : Attempts}

@[simp] theorem settled_nil : settled [] = .unloaded := rfl

@[simp] theorem yielded_nil : yielded [] = none := rfl

@[simp] theorem settled_concat (o : Outcome Handle) :
    settled (attempts ++ [o]) =
      match o with
      | .ok _ => .loaded
      | .error _ => .failed
      | .panic => .loading := by
  cases o <;> simp [settled]

@[simp] theorem yielded_concat (o : Outcome Handle) :
    yielded (attempts ++ [o]) =
      match o with
      | .ok h => some h
      | _ => none := by
  cases o <;> simp [yielded]

/-- The attempts that leave a handle behind are those that leave the state `loaded`. -/
theorem isSome_yielded : attempts.yielded.isSome ↔ attempts.settled = .loaded := by
  unfold yielded settled
  rcases attempts.getLast? with _ | _ | _ | _ <;> simp

/-- The state `loading` is left behind by a panic, and by nothing else. -/
theorem settled_eq_loading : attempts.settled = .loading ↔ attempts.getLast? = some .panic := by
  unfold settled
  rcases attempts.getLast? with _ | _ | _ | _ <;> simp

/-- Where no handle was left behind, the next attempt takes a step that is meant, or it
comes behind a panic. -/
theorem settled_leadsTo (none : attempts.yielded = none) :
    attempts.settled.leadsTo .loading ∨
      attempts.settled = .loading ∧ attempts.getLast? = some .panic := by
  unfold yielded at none
  unfold settled
  rcases last : attempts.getLast? with _ | _ | _ | _
  · exact Or.inl rfl
  · rw [last] at none
    exact absurd none (by simp)
  · exact Or.inl rfl
  · exact Or.inr ⟨rfl, rfl⟩

end Attempts

/-- A loader that is not being loaded is as its attempts have left it. -/
structure Loader.Rests (c : Loader) (attempts : Attempts) : Prop where
  state : c.state = attempts.settled
  handle : c.handle = attempts.yielded

namespace Loader

variable {c d : Loader} {attempts : Attempts}

theorem Rests.congr (h : c.Rests attempts) (state : d.state = c.state)
    (handle : d.handle = c.handle) : d.Rests attempts :=
  ⟨state.trans h.state, handle.trans h.handle⟩

theorem rests_fresh (library : String) (source : Source) :
    (Loader.fresh library source).Rests [] := ⟨rfl, rfl⟩

/-- A loader at rest has a handle exactly if it has loaded. -/
theorem Rests.isSome_handle (h : c.Rests attempts) : c.handle.isSome ↔ c.state = .loaded := by
  rw [h.handle, h.state, Attempts.isSome_yielded]

end Loader

namespace Process

variable {p q : Process} {l k : LoaderId} {b : BridgeId} {attempts : Attempts}

/-! ## One request after the other -/

/-- The attempt on a loader that a request for the handle of a loader makes, if it makes
one. -/
def attemptsOf (p : Process) (k l : LoaderId) : Attempts :=
  if k = l ∧ (p.loader k).handle = none then [(p.ensureLoaded k).1] else []

/-- The attempt on a loader that a call makes, if it makes one. -/
def callAttempts (p : Process) (b : BridgeId) (l : LoaderId) : Attempts :=
  match (p.bridge b).bound with
  | some _ => []
  | none => p.attemptsOf (p.bridge b).loader l

/-- A request leaves every other loader alone. -/
theorem loader_ensureLoaded_of_ne (h : l ≠ k) : (p.ensureLoaded l).2.loader k = p.loader k := by
  rw [ensureLoaded]
  split
  · rfl
  · have loaders := (load_leaves (p.setState l .loading) l).1
    have here : ((p.setState l .loading).load l).2.loader k = p.loader k := by
      rw [loader, loaders, ← loader, loader_setState, if_neg fun e => h e.1]
    split <;> rename_i load <;> rw [load] at here
    · exact here
    · rw [finishFailed, (heard_note ..).loader, loader_setState, if_neg fun e => h e.1]
      exact here
    · rw [finishLoaded, (heard_note ..).loader, loader_setState, if_neg fun e => h e.1,
        loader_storeHandle, if_neg fun e => h e.1]
      exact here

/-- A loader without a handle is left as the attempt on it has come out. -/
theorem rests_attempt (none : (p.loader l).handle = none) (hl : l < p.loaders.length) :
    ((p.ensureLoaded l).2.loader l).Rests (attempts ++ [(p.ensureLoaded l).1]) := by
  have loaders := (load_leaves (p.setState l .loading) l).1
  have length : l < (p.setState l .loading).loaders.length := by
    rwa [(stays_setState p l .loading).loaders_eq]
  have begun : (p.setState l .loading).loader l = { p.loader l with state := .loading } := by
    rw [loader_setState, if_pos ⟨rfl, hl⟩]
  rw [ensureLoaded, none]
  dsimp only
  rcases load : (p.setState l .loading).load l with ⟨o, q⟩
  rw [load] at loaders
  dsimp only at loaders
  have tried : q.loader l = { p.loader l with state := .loading } := by
    rw [loader, loaders, ← loader, begun]
  have there : l < q.loaders.length := loaders ▸ length
  cases o with
  | panic =>
    dsimp only
    rw [tried]
    exact ⟨by simp, by simp [none]⟩
  | error e =>
    dsimp only [finishFailed]
    rw [(heard_note ..).loader, loader_setState, if_pos ⟨rfl, there⟩, tried]
    exact ⟨by simp, by simp [none]⟩
  | ok a =>
    have there' : l < (q.storeHandle l a.handle).loaders.length := by
      rwa [(stays_storeHandle q l a.handle).loaders_eq]
    dsimp only [finishLoaded]
    rw [(heard_note ..).loader, loader_setState, if_pos ⟨rfl, there'⟩, loader_storeHandle,
      if_pos ⟨rfl, there⟩, tried]
    exact ⟨by simp, by simp [none]⟩

/-- **A request leaves every loader as the attempts on it have come out**, whether they
have succeeded, failed or panicked. -/
theorem rests_ensureLoaded (h : (p.loader l).Rests attempts) (hk : k < p.loaders.length) :
    ((p.ensureLoaded k).2.loader l).Rests (attempts ++ p.attemptsOf k l) := by
  rw [attemptsOf]
  split
  · rename_i own
    obtain ⟨rfl, none⟩ := own
    exact rests_attempt none hk
  · rename_i other
    rw [List.append_nil]
    by_cases own : k = l
    · subst own
      obtain ⟨i, handle⟩ := Option.ne_none_iff_exists'.mp fun none => other ⟨rfl, none⟩
      rwa [ensureLoaded_of_handle handle]
    · rwa [loader_ensureLoaded_of_ne own]

/-- A call does to the loaders what its request for the handle does. -/
theorem loader_call (p : Process) (b : BridgeId) (text : String) (k : LoaderId) :
    (p.call b text).2.loader k =
      match (p.bridge b).bound with
      | some _ => p.loader k
      | none => (p.ensureLoaded (p.bridge b).loader).2.loader k := by
  have resolved : (p.resolved b).2.loader k =
      match (p.bridge b).bound with
      | some _ => p.loader k
      | none => (p.ensureLoaded (p.bridge b).loader).2.loader k := by
    rcases none : (p.bridge b).bound with _ | r
    swap
    · simp [Process.resolved, none]
    simp only [Process.resolved, none]
    rcases load : p.ensureLoaded (p.bridge b).loader with ⟨o, q⟩
    cases o with
    | panic | error => rfl
    | ok i =>
      have heard := heard_bind q b i
      dsimp only
      rcases bind : q.bind b i with ⟨o, r⟩
      rw [bind] at heard
      cases o <;> exact heard.loader k
  rw [Process.call]
  rcases resolve : p.resolved b with ⟨o, q⟩
  rw [resolve] at resolved
  rw [← resolved]
  cases o with
  | panic | error => rfl
  | ok r => exact (heard_invoke q r text).loader k

theorem rests_call (h : (p.loader l).Rests attempts)
    (hb : (p.bridge b).loader < p.loaders.length) (text : String) :
    ((p.call b text).2.loader l).Rests (attempts ++ p.callAttempts b l) := by
  rw [loader_call, callAttempts]
  cases (p.bridge b).bound with
  | some r => rwa [List.append_nil]
  | none => exact rests_ensureLoaded h hb

/-! ## Between requests -/

theorem Heard.rests (heard : Heard p q) (h : (p.loader l).Rests attempts) :
    (q.loader l).Rests attempts := by
  rwa [heard.loader]

/-- A new loader is at rest where there was none. -/
theorem rests_newLoader (h : (p.loader l).Rests attempts) (library : String) (source : Source) :
    ((p.newLoader library source).2.loader l).Rests attempts := by
  refine h.congr ?_ (handle_newLoader p library source l)
  rcases Nat.lt_trichotomy l p.loaders.length with hl | rfl | hl
  · rw [loader_newLoader_of_lt library source hl]
  · rw [loader_of_le (Nat.le_refl _)]
    simp [newLoader, loader, Loader.fresh, default]
  · rw [loader_of_le (Nat.le_of_lt hl), loader_of_le]
    simp only [newLoader, List.length_append, List.length_singleton]
    omega

end Process
end Linkage
