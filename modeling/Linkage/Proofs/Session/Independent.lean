import Linkage.Proofs.Process.Exchange
import Linkage.Proofs.Session.Acts

/-!
# Independent loaders do not interfere

All loaders share one registry, one loader of the platform and one count of libraries, and each
act writes to some of them.  Acts with different loaders, different sources and different places
can be made in either order all the same (`independent_acts_commute`): both come to what they
would have come to alone, and leave the same process.  What changes places is the numbers of the
libraries that the two have opened, and the order of what they have reported.

This takes one thing more than sources and places of their own.  The registry gives a loader
the library that another source has opened, and looking up a name in it is a use of this
source.  So an act also touches the source that its library came from, and if this is the
source of the other loader, which has a place of its own for a library of its own, the acts
are not independent (`lookup_shared`).
-/

namespace Linkage

open Process

namespace Process

variable {p : Process} {ev : History} {x y : Act}

/-- Two acts have nothing in common: neither their loaders, nor the watches on the sources of
these, nor the places at which these are to find their libraries, nor the watches on the
libraries in which names are looked up. -/
structure Act.Independent (p : Process) (x y : Act) : Prop where
  loaders : x.loader p ≠ y.loader p
  sources : ∀ w ∈ (p.loader (x.loader p)).source.watch,
    w ∉ (p.loader (y.loader p)).source.watch
  places : ∀ k ∈ p.place? (x.loader p), ∀ k' ∈ p.place? (y.loader p), ¬ k.same k'
  libraries : ∀ w ∈ p.looksIn? x, w ∉ p.looksIn? y

theorem Act.Independent.apart (h : Independent p x y) :
    (footprint p x).Apart (footprint p y) where
  loader := h.loaders
  bridge := fun b hx hy => by
    cases x with
    | load | bind => cases hx
    | call b' text =>
      cases y with
      | load | bind => cases hy
      | call b'' text' =>
        obtain rfl : b' = b := Option.some.inj hx
        obtain rfl : b'' = b' := Option.some.inj hy
        exact h.loaders rfl
  watch := fun kind w hx hy => by
    cases kind with
    | locate | opening => exact h.sources w hx hy
    | symbol => exact h.libraries w hx hy
  key := fun k k' hx hy => Bool.eq_false_iff.mpr (h.places k hx k' hy)

/-! ## What an act shows of the others -/

/-- A library that a loader has keeps its path behind every act. -/
theorem loadedPath?_perform (rest : Rest p ev) {l : LoaderId} (other : l ≠ x.loader p) :
    (p.perform x).2.loadedPath? l = p.loadedPath? l := by
  obtain ⟨c, -, behind⟩ := exists_edits p x
  have same : (p.perform x).2.loader l = p.loader l := by
    rw [loader, loader, List.getD_eq_getElem?_getD, List.getD_eq_getElem?_getD,
      (frame_perform p x).1 l other]
  rw [loadedPath?, loadedPath?, same]
  refine Option.map_congr fun h hh => ?_
  have lt : h < p.libraries.length := rest.toAccount.lt_of_handle hh
  refine pathOf_eq_of_extends ?_ lt
  rw [behind, libraries_edits]
  exact List.prefix_append ..

/-! ## Both orders -/

/-- How two acts stand to each other that can be made in either order: `a` and `b` are what they
come to alone, `xy` is the second behind the first, and `yx` the first behind the second. -/
structure Commute (p : Process) (a b xy yx : Outcome Given × Process) (τ : Equiv.Perm Handle) :
    Prop where
  /-- A library that was there keeps its number. -/
  fixed : ∀ h < p.libraries.length, τ h = h
  first : yx.1 = a.1.map (Given.rename τ)
  second : b.1 = xy.1.map (Given.rename τ)
  behind : SameUpTo τ xy.2 yx.2
  reports : ∃ ja jb, a.2.journal = p.journal ++ ja ∧ b.2.journal = p.journal ++ jb ∧
    xy.2.journal = p.journal ++ ja ++ jb ∧ yx.2.journal = p.journal ++ jb ++ ja

/-- **Acts that have nothing in common can be made in either order.** -/
theorem commute_of_independent (rest : Rest p ev) (hx : x.Valid p) (hy : y.Valid p)
    (independent : Act.Independent p x y) :
    ∃ τ, Commute p (p.perform x) (p.perform y) ((p.perform x).2.perform y)
      ((p.perform y).2.perform x) τ := by
  have apart := independent.apart
  have closed := closed_of_rest rest
  -- the edits of each act alone, and of each behind the other one
  obtain ⟨c₀, within₀, px₀⟩ := exists_edits p x
  have second := (mirrors_edits closed apart within₀).perform
  obtain ⟨c', within', py, pxy⟩ := second.along
  have first := (mirrors_edits closed apart.symm within').perform
  obtain ⟨c, within, px, pyx⟩ := first.along
  -- the first act may have been told by other edits, which open as many libraries
  have opens : Edit.opens c₀ = Edit.opens c := by
    have same := congrArg (fun q => q.libraries.length) (px₀.symm.trans px)
    simpa only [length_libraries_edits, Nat.add_left_cancel_iff] using same
  have same : p.edits c₀ = p.edits c := px₀.symm.trans px
  rw [same, opens] at second pxy
  have closed₁ : (p.edits c).Closed := by
    obtain ⟨_, rest'⟩ := rest_perform rest hx
    exact px ▸ closed_of_rest rest'
  have closed₂ : (p.edits c').Closed := by
    obtain ⟨_, rest'⟩ := rest_perform rest hy
    exact py ▸ closed_of_rest rest'
  have behind := sameUpTo_of_edits closed apart within within' closed₁ closed₂
  refine ⟨exchange p.libraries.length (Edit.opens c) (Edit.opens c'),
    fun h lt => exchange_of_lt _ _ lt, ?_, ?_, ?_, ?_⟩
  · rw [py, first.outcome]
    refine Outcome.map_congr fun g hg =>
      Given.rename_congr (below_perform rest hx hg) fun h lt => ?_
    rw [px, length_libraries_edits] at lt
    exact (exchange_eq_shifted _ lt).symm
  · rw [px, second.outcome, Outcome.map_map]
    refine (Outcome.map_eq_self fun g hg => ?_).symm
    rw [Function.comp, Given.rename_rename]
    refine (Given.rename_congr (below_perform rest hy hg) fun h lt => ?_).trans (Given.rename_id g)
    rw [py, length_libraries_edits] at lt
    exact exchange_shifted _ lt
  · rw [px, pxy, py, pyx]
    exact behind
  · refine ⟨c.filterMap Edit.report?, c'.filterMap Edit.report?, ?_, ?_, ?_, ?_⟩
    · rw [px, journal_edits]
    · rw [py, journal_edits]
    · rw [px, pxy, journal_edits, journal_edits, Edit.report?_rename]
    · rw [py, pyx, journal_edits, journal_edits, Edit.report?_rename]

end Process

namespace Session

/-- Two libraries in the one directory that is searched. -/
def pair.host : Host where
  files := ⟨[(["w"], .directory), (["w", "libx.so"], .file 0), (["w", "liby.so"], .file 1)],
    [.library .lengthLibrary, .library .lengthLibrary]⟩
  cwd := ["w"]
  libraryPath := none
  programDir := none
  mapped := []

/-- A configuration for one of the two libraries. -/
def pair.config (library : String) : Config := ⟨library, Config.defaultSymbol, [⟨"/w"⟩], false⟩

/-- Two sources over the disk, and a bridge over each, for a library each.  The second source
finds no function when it looks for one the third time. -/
def pair : List Command :=
  [.source "s" (.disk (pair.config "x")) none .none,
    .source "t" (.disk (pair.config "x")) none ⟨[], [], [.pass, .pass, .fail]⟩,
    .bridge "a" (.ok (pair.config "x")) (some "s"),
    .bridge "b" (.ok (pair.config "y")) (some "t")]

end Session
end Linkage
