import Linkage.Proofs.Pool.Opened
import Linkage.Proofs.Session.Commands
import Linkage.Proofs.Session.Sources

/-!
# Where the loads of a session come from

Behind any commands, everything in the history of a session has come from the sources of its
loaders, whatever these were made to do (`entered_after`).  For the path of a load or of an
opening this means that the source claims a library to be there or that its origin offers it
(`Sourced.claims_or_offers`), and for an opened library that the source has supplied it or that
it holds what the origin has (`Sourced.supplies_or_own`).

As long as no command makes a source claim a place (`Command.Faithful`), every load therefore
comes from what the origin of its loader offered then (`offers_of_faithful`).
-/

namespace Linkage

open Process

namespace Session

variable {s : Session} {made : List (Source × Script)} {l : LoaderId} {around : Host}
  {path : Path} {a : Load}

/-! ## Histories -/

theorem makes_append (s : Session) (cs cs' : List Command) :
    s.makes (cs ++ cs') = s.makes cs ++ (s.after cs).makes cs' := by
  induction cs generalizing s with
  | nil => rfl
  | cons c cs ih =>
    rw [List.cons_append, makes, makes, ih, List.append_assoc]
    rfl

/-- **Everything in the history of a run has come from the sources of its loaders.** -/
theorem entered_after (host : Host) (cs : List Command) :
    ∀ e ∈ (start host).history cs,
      ((start host).after cs).process.Entered (terms ((start host).makes cs)) e := by
  -- the sources of the whole run set the terms of all its parts
  suffices all : ∀ made, (start host).makes cs ⊆ made → ∀ e ∈ (start host).history cs,
      ((start host).after cs).process.Entered (terms made) e from all _ (List.Subset.refl _)
  intro made
  refine after_induct host (motive := fun cs p ev => (start host).makes cs ⊆ made →
    ∀ e ∈ ev, p.Entered (terms made) e) ?_ ?_ cs
  · intro _ e mem
    exact absurd mem List.not_mem_nil
  intro cs c q new effect ih among e mem
  rw [makes_append] at among
  have before := List.Subset.trans (List.subset_append_left ..) among
  have rest := (kept_after host cs).rest
  have within : ((start host).after cs).process.Within (terms made) := by
    intro watch kind v mem
    obtain ⟨m, making, may⟩ := (sourced_after host cs).within watch kind v mem
    exact ⟨m, before making, may⟩
  rcases List.mem_append.mp mem with old | mem
  · exact (ih before e old).grows (effect.grows rest)
  cases effect with
  | surrounds | reports | watches | makesLoader | makesBridge => exact absurd mem List.not_mem_nil
  | loads hl hq => exact hq ▸ entered_of_mem_loadEvents within hl mem
  | calls hb hq => exact hq ▸ entered_of_mem_callEvents within rest.bounds (rest.owners _ hb) mem
  | callsMany hb hq =>
    rw [hq]
    exact (Pool.run_moments _ 0).entered within Pool.starting_ofCall
      (Pool.valid_ofCall (rest.owners _ hb)) mem

/-! ## What sources have to do with it -/

/-- **The source of a loader claims a path, or its origin offers it.** -/
theorem Sourced.claims_or_offers (h : Sourced s made)
    (locates : s.process.Locates (terms made) l around path) :
    (∃ script, ((s.process.loader l).source, script) ∈ made ∧
      (s.process.loader l).source.Claims script path) ∨
    (s.process.loader l).source.fixed = none ∧
      (s.process.loader l).source.origin.Offers (s.process.loader l).library around path := by
  have known := h.loaders l
  rw [Process.Locates] at locates
  generalize (s.process.loader l).source = source at known locates ⊢
  rcases known with ⟨dirs, rfl⟩ | ⟨script, among⟩
  · cases locates with
    | fixed place => exact absurd place (by simp [Source.system])
    | claimed may => exact absurd may h.not_terms_none
    | offered free offers => exact Or.inr ⟨free, offers⟩
  · cases locates with
    | fixed place => exact Or.inl ⟨script, among, Or.inl place⟩
    | claimed may => exact Or.inl ⟨script, among, Or.inr (h.mem_script among may)⟩
    | offered free offers => exact Or.inr ⟨free, offers⟩

/-- **The source of a loader supplies what it opens, or has it.** -/
theorem Sourced.supplies_or_own (h : Sourced s made) {table : SymbolTable}
    (opens : (s.process.loader l).source.Opens (terms made) table) :
    (∃ script, ((s.process.loader l).source, script) ∈ made ∧
      .supply table ∈ script.opening) ∨
    ∀ u, (s.process.loader l).source.origin = .inProcess u → table = .registered u.symbols := by
  have known := h.loaders l
  generalize (s.process.loader l).source = source at known opens ⊢
  cases opens with
  | own functions => exact Or.inr functions
  | supplied may =>
    rcases known with ⟨dirs, rfl⟩ | ⟨script, among⟩
    · exact absurd may h.not_terms_none
    · exact Or.inl ⟨script, among, h.mem_script among may⟩

/-- The source of a loader has numbers and functions as they were given. -/
theorem Sourced.sound_loader (h : Sourced s made) (l : LoaderId) :
    (s.process.loader l).source.Sound s.process.inProcessMade := by
  rcases h.loaders l with ⟨dirs, same⟩ | ⟨script, among⟩
  · exact same ▸ Source.sound_system ..
  · exact h.sound _ among

/-! ## Runs without claims -/

/-- A command that makes no source claim a place. -/
def Command.Faithful : Command → Prop
  | .source _ _ fixed script => fixed = none ∧ ∀ path, .place path ∉ script.locate
  | _ => True

/-- Behind commands without claims, every load is one that the origin of its loader offered. -/
theorem offers_of_faithful (host : Host) {cs : List Command} (faithful : ∀ c ∈ cs, c.Faithful)
    (loaded : .loaded l around a ∈ (start host).history cs) :
    (((start host).after cs).process.loader l).source.origin.Offers
      (((start host).after cs).process.loader l).library around a.path := by
  have entered := entered_after host cs _ loaded
  rcases (sourced_after host cs).claims_or_offers entered.2 with ⟨script, among, claims⟩ | offers
  · obtain ⟨name, base, mem⟩ := mem_of_mem_makes among
    obtain ⟨free, unplaced⟩ := faithful _ mem
    rcases claims with fixed | placed
    · exact absurd (free.symm.trans fixed) (by simp)
    · exact absurd placed (unplaced _)
  · exact offers.2

end Session
end Linkage
