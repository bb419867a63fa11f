import Linkage.Proofs.Bridge.Tandem
import Linkage.Proofs.Session.Registry

/-!
# What can be done with a loader or a bridge

A loader is loaded, a name is bound in its library, and a bridge is called (`Act`).  What such
an act touches that other loaders and bridges could touch as well can be told from the process
before it (`footprint`): the watch on its source, the place at which its library is, and the
watch on the library in which it looks names up.  The latter need not be the watch on its own
source.  A library belongs to the source that opened it, whoever asks, and a loader that finds
its place registered has the library of another one.

An act in a process that mirrors another one in the act's footprint comes out alike
(`Mirrors.perform`).  This is what the commands of a session come to when they use a loader or
a bridge, so a process stays at rest behind an act, and the handle that comes of one is the
number of an opened library (`rest_perform`, `below_perform`).
-/

namespace Linkage
namespace Process

/-- What can be done with a loader or a bridge. -/
inductive Act where
  | load (l : LoaderId)
  /-- Binds a name in the library of a loader, which is loaded for it. -/
  | bind (l : LoaderId) (name : String) (declared : Signature)
  | call (b : BridgeId) (text : String)

/-- What comes of an act. -/
inductive Given where
  | handle (h : Handle)
  | reference (r : SymbolReference)
  | length (n : Int64)
  deriving DecidableEq

/-- What comes of an act, its library under another number. -/
def Given.rename (ρ : Handle → Handle) : Given → Given
  | handle h => handle (ρ h)
  | reference r => reference (r.rename ρ)
  | length n => length n

/-- The library that comes of an act, if one does, is one of the first `n`. -/
def Given.Below (n : Nat) : Given → Prop
  | handle h => h < n
  | reference r => r.handle < n
  | length _ => True

theorem Given.rename_congr {ρ σ : Handle → Handle} {n : Nat} {g : Given} (below : g.Below n)
    (same : ∀ h < n, ρ h = σ h) : g.rename ρ = g.rename σ := by
  cases g with
  | handle h => exact congrArg handle (same h below)
  | reference r => rw [rename, rename, SymbolReference.rename, SymbolReference.rename,
      same r.handle below]
  | length n => rfl

theorem Given.rename_rename (ρ σ : Handle → Handle) (g : Given) :
    (g.rename ρ).rename σ = g.rename (σ ∘ ρ) := by cases g <;> rfl

theorem Given.rename_id (g : Given) : g.rename id = g := by cases g <;> rfl

variable {F : Footprint} {n d : Nat} {p q : Process} {ev : History} {x : Act}

/-- Does something with a loader or a bridge. -/
def perform (p : Process) : Act → Outcome Given × Process
  | .load l => andThen (p.ensureLoaded l) fun h q => (.ok (.handle h), q)
  | .bind l name declared => andThen (p.ensureLoaded l) fun h q =>
      andThen (q.resolve h name declared) fun r q => (.ok (.reference r), q)
  | .call b text => andThen (p.call b text) fun n q => (.ok (.length n), q)

namespace Act

/-- The loader or the bridge is there. -/
def Valid (p : Process) : Act → Prop
  | load l | bind l _ _ => l < p.loaders.length
  | call b _ => b < p.bridges.length

instance : Decidable (x.Valid p) := by
  cases x <;> exact Nat.decLt ..

/-- The loader that an act uses. -/
def loader (p : Process) : Act → LoaderId
  | load l | bind l _ _ => l
  | call b _ => (p.bridge b).loader

/-- The bridge that an act uses, if it uses one. -/
def bridge? : Act → Option BridgeId
  | load _ | bind _ _ _ => none
  | call b _ => some b

end Act

/-- The place at which the source of a loader has its library, if the loader is still to have
it from there. -/
def place? (p : Process) (l : LoaderId) : Option Path :=
  match (p.loader l).handle with
  | some _ => none
  | none =>
    match (p.locate (p.loader l).source (p.loader l).library (some l)).1 with
    | .ok path => some (p.host.registryKey path)
    | _ => none

/-- The watch on the library that a loader has or comes to have. -/
def provider? (p : Process) (l : LoaderId) : Option WatchId :=
  match p.ensureLoaded l with
  | (.ok h, q) => (q.libraries[h]?).bind Library.watch
  | _ => none

/-- The watch on the library in which an act looks names up, if it does so at all. -/
def looksIn? (p : Process) : Act → Option WatchId
  | .load _ => none
  | .bind l _ _ => p.provider? l
  | .call b _ => if (p.bridge b).bound.isSome then none else p.provider? (p.bridge b).loader

/-- What an act touches that others could touch as well. -/
def footprint (p : Process) (x : Act) : Footprint where
  loader := x.loader p
  bridge := x.bridge?
  source := (p.loader (x.loader p)).source.watch
  library := p.looksIn? x
  key := p.place? (x.loader p)

/-! ## Acts in two processes -/

theorem covers_footprint (p : Process) (x : Act) : Covers (footprint p x) p where
  source := rfl
  key := fun unloaded path located => by
    have loader : (footprint p x).loader = x.loader p := rfl
    rw [loader] at unloaded located
    show p.place? (x.loader p) = _
    rw [place?, unloaded]
    dsimp only
    rw [located]

theorem reads_of_provider (same : F.library = p.provider? F.loader) : Reads F p := by
  intro h p' loaded lib found
  rw [same, provider?, loaded]
  dsimp only
  rw [found, Option.bind_some]

/-- **An act comes out alike in a process that shows the same in its footprint.** -/
theorem Mirrors.perform (m : Mirrors (footprint p x) n d p q) :
    Tandem (footprint p x) n d (Given.rename (shifted n d)) p q (p.perform x) (q.perform x) := by
  have covers := covers_footprint p x
  cases x with
  | load l =>
    exact (m.ensureLoaded covers).andThen fun h p' q' _ _ => ⟨rfl, .refl ..⟩
  | bind l name declared =>
    refine (m.ensureLoaded covers).andThen fun h p' q' loaded along => ?_
    have looked := reads_of_provider (F := footprint p (.bind l name declared)) rfl h p' loaded
    exact ((m.along along).resolve looked name declared).andThen fun r p'' q'' _ _ =>
      ⟨rfl, .refl ..⟩
  | call b text =>
    refine (m.call rfl rfl covers (fun unbound => reads_of_provider ?_) text).andThen
      fun n p' q' _ _ => ⟨rfl, .refl ..⟩
    show p.looksIn? (.call b text) = p.provider? (p.bridge b).loader
    rw [looksIn?, unbound]
    rfl

/-- What an act does are edits in its footprint. -/
theorem exists_edits (p : Process) (x : Act) :
    ∃ c : List Edit, (∀ e ∈ c, e.Within (footprint p x)) ∧ (p.perform x).2 = p.edits c := by
  obtain ⟨c, within, behind, -⟩ := (Mirrors.refl (footprint p x) p).perform.along
  exact ⟨c, within, behind⟩

/-- **An act leaves every loader and every bridge but its own as it was.** -/
theorem frame_perform (p : Process) (x : Act) :
    (∀ l ≠ x.loader p, (p.perform x).2.loaders[l]? = p.loaders[l]?) ∧
      ∀ b, x.bridge? ≠ some b → (p.perform x).2.bridges[b]? = p.bridges[b]? := by
  obtain ⟨c, within, behind⟩ := exists_edits p x
  rw [behind]
  exact ⟨fun l other => loaders_of_within within other,
    fun b other => bridges_of_within within other⟩

/-! ## A process behind an act -/

/-- Handles in a process at rest are numbers of opened libraries. -/
theorem closed_of_rest (rest : Rest p ev) : p.Closed where
  loaders := fun c hc h hh => by
    obtain ⟨l, lt, rfl⟩ := List.mem_iff_getElem.mp hc
    refine rest.toAccount.lt_of_handle (l := l) ?_
    rw [loader, List.getD_eq_getElem?_getD, List.getElem?_eq_getElem lt]
    exact hh
  bridges := fun c hc r hr => by
    obtain ⟨b, lt, rfl⟩ := List.mem_iff_getElem.mp hc
    refine rest.toAccount.lt_of_handle (rest.bounds b r ?_).handle
    rw [bridge, List.getD_eq_getElem?_getD, List.getElem?_eq_getElem lt]
    exact hr
  registry := fun e he => by
    rw [rest.registry] at he
    obtain ⟨a, ha, rfl⟩ := List.mem_map.mp he
    exact rest.handle_lt ha

/-- A process stays at rest behind an act. -/
theorem rest_perform (rest : Rest p ev) (valid : x.Valid p) :
    ∃ ev', Rest (p.perform x).2 ev' := by
  cases x with
  | load l =>
    rw [perform, andThen_ok]
    exact ⟨_, (rest.ensureLoaded valid).1⟩
  | bind l name declared =>
    have loaded := (rest.ensureLoaded valid).1
    rcases here : p.ensureLoaded l with ⟨h | e | _, q⟩ <;> rw [here] at loaded
    · rw [perform, here, andThen, andThen_ok]
      exact ⟨_, (loaded.heard (heard_resolve q h name declared)).1⟩
    · rw [perform, here]
      exact ⟨_, loaded⟩
    · rw [perform, here]
      exact ⟨_, loaded⟩
  | call b text =>
    rw [perform, andThen_ok]
    exact ⟨_, (rest.call valid text).1⟩

/-- The handle that comes of loading is the number of an opened library. -/
theorem lt_of_ensureLoaded (rest : Rest p ev) {l : LoaderId} (hl : l < p.loaders.length)
    {h : Handle} (loaded : p.ensureLoaded l = (.ok h, q)) : h < q.libraries.length := by
  have rest' := (rest.ensureLoaded hl).1
  rw [loaded] at rest'
  exact rest'.toAccount.lt_of_handle (handle_of_ensureLoaded hl loaded)

/-- What comes of an act has the number of an opened library. -/
theorem below_perform (rest : Rest p ev) (valid : x.Valid p) {g : Given}
    (comes : (p.perform x).1 = .ok g) : g.Below (p.perform x).2.libraries.length := by
  cases x with
  | load l =>
    rcases here : p.ensureLoaded l with ⟨h | e | _, q⟩ <;>
      simp only [perform, here, andThen] at comes ⊢
    · obtain rfl := Outcome.ok.inj comes
      exact lt_of_ensureLoaded rest valid here
    all_goals cases comes
  | bind l name declared =>
    rcases here : p.ensureLoaded l with ⟨h | e | _, q⟩ <;>
      simp only [perform, here, andThen] at comes ⊢
    · rcases bound : q.resolve h name declared with ⟨r | e | _, q'⟩ <;>
        simp only [bound] at comes ⊢
      · obtain rfl := Outcome.ok.inj comes
        have heard := heard_resolve q h name declared
        rw [bound] at heard
        rw [Given.Below, (resolve_ok bound).1, heard.libraries]
        exact lt_of_ensureLoaded rest valid here
      all_goals cases comes
    all_goals cases comes
  | call b text =>
    rcases here : p.call b text with ⟨n | e | _, q⟩ <;>
      simp only [perform, here, andThen] at comes
    · obtain rfl := Outcome.ok.inj comes
      trivial
    all_goals cases comes

end Process
end Linkage
