import Linkage.Proofs.Binding.Descriptor
import Linkage.Proofs.Session.Identity

/-!
# Which functions a loader over an in-process source finds

An in-process source is made, functions are registered with it, and it is copied; further
functions may be registered with each copy.  All copies have one place, so the first of them
for which a library is opened decides what is found in it, and a loader over another copy
shares the handle and finds the functions of the first (`in_process_symbols`).  What was
registered with its own copy only is not found, and neither is anything of a source whose place
another one has claimed (`functions_of_another`).

Other sources may do as they like in the same run, as long as they leave this one place to the
copies (`Source.LeavesTo`).  That they do not come to it by other ways needs that it leads
nowhere on the disk when the loader asks for it (`in_process_sharing`): then only a path that is
spelled the same has the place (`InProcess.same_registryKey_of_nowhere`), and neither the disk
nor another in-process source offers one.
-/

namespace Linkage

open Process

/-- A source leaves the place of an in-process source to the copies of it, with the functions
that are registered with them: it claims other places only, and if it is itself a copy that
answers its own place, it is not made to open other functions. -/
structure Source.LeavesTo (t : InProcess) (s : Source) (script : Script) : Prop where
  elsewhere : ∀ path, s.Claims script path → (t.pathOf t.library).same path = false
  unsupplied : ∀ u, s.origin = .inProcess u → u.id = t.id → s.fixed = none →
    ∀ table, .supply table ∉ script.opening

namespace Session

variable {s : Session} {made : List (Source × Script)} {l k : LoaderId} {t : InProcess}
  {around around' : Host} {a b : Load} {library library' : String} {path : Path} {origin : Origin}

/-- The place of an in-process source that leads nowhere is offered by copies of the source
only. -/
theorem copy_of_same (nowhere : around.files.canonical? around.cwd (t.pathOf library) = none)
    (offers : origin.Offers library' around' path)
    (same : (around.registryKey (t.pathOf library)).same (around'.registryKey path)) :
    ∃ u, origin = .inProcess u ∧ u.id = t.id := by
  obtain ⟨lost, same⟩ := (InProcess.same_registryKey_of_nowhere nowhere).mp same
  cases origin with
  | inProcess u =>
    obtain ⟨-, rfl⟩ := offers
    exact ⟨u, rfl, (InProcess.id_eq_of_same same).symm⟩
  | system dirs =>
    have somewhere := FileSystem.isSome_canonical?_of_isFile offers.2
    exact absurd somewhere (by simp [lost])

/-- **What is opened at the place of an in-process source that leads nowhere** is opened for a
loader over a copy of the source, and holds the functions of this copy. -/
theorem Sourced.copy_of_opened (h : Sourced s made)
    (leave : ∀ m ∈ made, m.1.LeavesTo t m.2)
    (nowhere : around.files.canonical? around.cwd (t.pathOf t.library) = none)
    (opened : s.process.OpenedFor (terms made) k around' b)
    (same : (around.registryKey (t.pathOf t.library)).same (around'.registryKey b.path)) :
    ∃ u watch, (s.process.loader k).source.origin = .inProcess u ∧ u.id = t.id ∧
      s.process.libraries[b.handle]? = some ⟨b.path, .registered u.symbols, watch⟩ := by
  rcases h.claims_or_offers opened.locates with ⟨script, among, claims⟩ | ⟨free, offers⟩
  · obtain ⟨-, here⟩ := (InProcess.same_registryKey_of_nowhere nowhere).mp same
    exact absurd here (by simp [(leave _ among).elsewhere _ claims])
  · obtain ⟨u, copy, id⟩ := copy_of_same nowhere offers same
    obtain ⟨table, here, opens⟩ := opened.holds
    rcases h.supplies_or_own opens with ⟨script, among, supplied⟩ | functions
    · exact absurd supplied ((leave _ among).unsupplied u copy id free table)
    · rw [functions u copy] at here
      exact ⟨u, _, copy, id, here⟩

/-- A loader over an in-process source that claims no place has its library at the place of the
source. -/
theorem Sourced.path_of_locates (h : Sourced s made)
    (linked : (s.process.loader l).source.origin = .inProcess t)
    (own : ∀ script, ((s.process.loader l).source, script) ∈ made →
      ∀ path, ¬ (s.process.loader l).source.Claims script path)
    (locates : s.process.Locates (terms made) l around path) : path = t.pathOf t.library := by
  rcases h.claims_or_offers locates with ⟨script, among, claims⟩ | ⟨-, offers⟩
  · exact absurd claims (own script among path)
  · rw [linked] at offers
    obtain ⟨library, rfl⟩ := offers
    rw [library]

/-- **What a loader over an in-process source finds.**  Let a loader over such a source have
its handle, whatever else was done, and let its source claim no place.  The handle comes from
one load, at the place of the source, and the library was opened in the one load that has opened
anything for this place.  If the place led nowhere then and all sources made so far leave it to
the copies of the source, that was a load for a loader over such a copy --- the source as it was
made, with functions registered in some order.  From now on exactly these functions are found,
under each name the one that was registered last, behind all further commands that leave lookups
in the library to pass; and if the copy has the functions of the loader's own source, these are
its own. -/
theorem in_process_symbols (host : Host) {cs : List Command} {l : LoaderId} {t : InProcess}
    {h : Handle} (linked : (((start host).after cs).process.loader l).source.origin = .inProcess t)
    (own : ∀ script, ((((start host).after cs).process.loader l).source, script) ∈
      (start host).makes cs →
      ∀ path, ¬ (((start host).after cs).process.loader l).source.Claims script path)
    (handle : (((start host).after cs).process.loader l).handle = some h) :
    let p := ((start host).after cs).process
    let ev := (start host).history cs
    ∃ around a k around' b, .loaded l around a ∈ ev ∧ a.handle = h ∧ a.path = t.pathOf t.library ∧
      .opened k around' b ∈ ev ∧ b.handle = h ∧
      (around.registryKey a.path).same (around'.registryKey b.path) ∧
      (∀ k' around'' c, .opened k' around'' c ∈ ev →
        (around.registryKey a.path).same (around''.registryKey c.path) → c = b) ∧
      (around.files.canonical? around.cwd a.path = none →
        (∀ m ∈ (start host).makes cs, m.1.LeavesTo t m.2) →
        ∃ u functions lib, (p.loader k).source.origin = .inProcess u ∧ u.id = t.id ∧
          u.Built functions ∧ p.libraries[h]? = some lib ∧
          ∀ cs', let q := ((start host).after (cs ++ cs')).process
            Passing lib.watch q →
              (∀ name, (q.findSymbol h name).1 = .ok (InProcess.lastUnder functions name)) ∧
              ∀ registered, t.Built registered → u.symbols = t.symbols →
                ∀ name, (q.findSymbol h name).1 = .ok (InProcess.lastUnder registered name)) := by
  intro p ev
  have sourced := sourced_after host cs
  have entered := entered_after host cs
  have kept := kept_after host cs
  have account : Account p ev := kept.rest.toAccount
  obtain ⟨a, loads, rfl⟩ := account.loads_of_handle handle
  obtain ⟨around, ha⟩ := History.mem_loads.mp (loads ▸ List.mem_singleton_self a)
  have path := sourced.path_of_locates linked own (entered _ ha).2
  -- the library was opened for the place, by whoever came first
  obtain ⟨k, around', b, hb, shared, same, only⟩ := account.opening_of_loaded ha
  refine ⟨around, a, k, around', b, ha, rfl, path, hb, shared, same, only,
    fun nowhere leave => ?_⟩
  rw [path] at nowhere
  obtain ⟨u, watch, copy, id, here⟩ := sourced.copy_of_opened leave nowhere (entered _ hb)
    (path ▸ same)
  obtain ⟨functions, built⟩ := (sourced.sound_loader k).built u copy
  rw [shared] at here
  refine ⟨u, functions, _, copy, id, built, here, fun cs' => ?_⟩
  intro q passing
  have grows : Grows p q := by
    rw [show q = _ from congrArg Session.process (after_append ..)]
    exact (kept.after cs').2
  have finds : ∀ name, (q.findSymbol a.handle name).1 = .ok (u.symbols.get? name) :=
    fun name => (Answering.findSymbol ⟨opened_of_extends grows.libraries here, passing⟩ name).1
  constructor
  · intro name
    rw [finds, built.get?]
  · intro registered builtOwn alike name
    rw [finds, alike, builtOwn.get?]

/-- A source with a function, a copy of it with another function of this name and one more, and
a copy that claims another place and opens another function there.  There is a loader over each,
and that over the last is loaded first. -/
def copies : List Command :=
  [.source "s" (.linked "x" [("f", .byteLength), ("f", .scalarLength)]) none .none,
    .source "t" (.extended "s" [("f", .constant 7), ("g", .byteLength)]) none .none,
    .source "d" (.clone "s") (some ⟨"/d/libx.so"⟩)
      ⟨[], [.supply (.registered [("f", .constant 9)])], []⟩,
    .loader "a" "s" "x", .loader "b" "t" "x", .loader "c" "d" "x",
    .load "c" none, .load "a" none, .load "b" none]

/-- The surroundings of these commands: an empty disk. -/
def copies.host : Host := ⟨.empty, [], none, none, []⟩

/-- The place that the source and its copies have. -/
def copies.place : Path := ⟨"<in-process:0>/libx.so"⟩

/-- The sources that they make. -/
def copies.sources : List (Source × Script) :=
  [(⟨.inProcess ⟨0, "x", [("f", .scalarLength)]⟩, none, some 0⟩, .none),
    (⟨.inProcess ⟨0, "x", [("f", .constant 7), ("g", .byteLength)]⟩, none, some 1⟩, .none),
    (⟨.inProcess ⟨0, "x", [("f", .scalarLength)]⟩, some ⟨"/d/libx.so"⟩, some 2⟩,
      ⟨[], [.supply (.registered [("f", .constant 9)])], []⟩)]

theorem copies.leave (t : InProcess) (place : t.pathOf t.library = copies.place) :
    ∀ m ∈ copies.sources, m.1.LeavesTo t m.2 := by
  intro m mem
  simp only [copies.sources, List.mem_cons, List.not_mem_nil, or_false] at mem
  obtain rfl | rfl | rfl := mem
  · exact ⟨by simp [Source.Claims, Script.none], by simp [Script.none]⟩
  · exact ⟨by simp [Source.Claims, Script.none], by simp [Script.none]⟩
  · refine ⟨fun path claims => ?_, by simp⟩
    obtain rfl : ⟨"/d/libx.so"⟩ = path := by simpa [Source.Claims] using claims
    rw [place]
    decide

/-- What the loader over the source finds was registered last with this source. -/
theorem in_process_symbols_first :
    let p := ((start copies.host).after copies).process
    (p.findSymbol 1 "f").1 = .ok (some .scalarLength) ∧ (p.findSymbol 1 "g").1 = .ok none := by
  intro p
  let t : InProcess := ⟨0, "x", [("f", .scalarLength)]⟩
  have made : (start copies.host).makes copies = copies.sources := by decide +kernel
  have source : (p.loader 0).source = ⟨.inProcess t, none, some 0⟩ := by decide +kernel
  have history : (start copies.host).history copies =
      [.located 2 ⟨"/d/libx.so"⟩, .opened 2 copies.host ⟨⟨"/d/libx.so"⟩, ⟨"/d/libx.so"⟩, 0, true⟩,
        .loaded 2 copies.host ⟨⟨"/d/libx.so"⟩, ⟨"/d/libx.so"⟩, 0, true⟩,
        .located 0 copies.place, .opened 0 copies.host ⟨copies.place, copies.place, 1, true⟩,
        .loaded 0 copies.host ⟨copies.place, copies.place, 1, true⟩, .located 1 copies.place,
        .loaded 1 copies.host ⟨copies.place, copies.place, 1, false⟩] := by decide +kernel
  have linked : (p.loader 0).source.origin = .inProcess t := congrArg Source.origin source
  have own : ∀ script, ((p.loader 0).source, script) ∈ (start copies.host).makes copies →
      ∀ path, ¬ (p.loader 0).source.Claims script path := by
    intro script mem path claims
    rw [source] at mem claims
    obtain ⟨-, rfl⟩ : _ ∧ script = .none := by simpa [made, copies.sources] using mem
    simp [Source.Claims, Script.none] at claims
  obtain ⟨around, a, k, around', b, ha, -, -, hb, first, -, -, found⟩ :=
    in_process_symbols copies.host linked own (h := 1) (by decide +kernel)
  obtain ⟨rfl, rfl⟩ : around = copies.host ∧ a = ⟨copies.place, copies.place, 1, true⟩ := by
    simpa [history] using ha
  obtain ⟨u, functions, lib, copy, -, built, here, finds⟩ :=
    found (by decide +kernel) (made ▸ copies.leave t (by decide))
  have opener : k = 0 := by
    simp only [history, List.mem_cons, List.not_mem_nil, reduceCtorEq, or_false, false_or,
      Event.opened.injEq] at hb
    obtain ⟨-, -, rfl⟩ | ⟨rfl, -⟩ := hb
    · exact absurd first (by decide)
    · rfl
  subst opener
  obtain rfl := Origin.inProcess.inj (copy.symm.trans linked)
  have passing : Passing lib.watch p := by
    intro v mem
    obtain ⟨w, hw, ready⟩ := exists_watch_of_mem mem
    have none : ∀ w ∈ p.watches, w.script.symbol = [] := by decide +kernel
    exact absurd ready (by simp [Script.on, none w hw])
  refine ⟨(finds [] passing).1 "f" |>.trans ?_, (finds [] passing).1 "g" |>.trans ?_⟩
  all_goals
    rw [← built.get?]
    rfl

/-- A source that claims the place of the one made after it, and a loader over each. -/
def claims : List Command :=
  [.source "i" (.linked "x" [("f", .constant 7)]) (some ⟨"<in-process:1>/libx.so"⟩) .none,
    .source "s" (.linked "x" [("f", .scalarLength)]) none .none,
    .loader "a" "i" "x", .loader "b" "s" "x", .load "a" none, .load "b" none]

/-- A source and a copy of it that opens other functions at their place, and a loader over each. -/
def supplies : List Command :=
  [.source "s" (.linked "x" [("f", .scalarLength)]) none .none,
    .source "d" (.clone "s") none ⟨[], [.supply (.registered [("f", .constant 7)])], []⟩,
    .loader "a" "d" "x", .loader "b" "s" "x", .load "a" none, .load "b" none]

/-- **A loader may find what was registered with another source.**  Among copies the second
loader finds what the source of the first has, not what was registered last with its own; where
another source has claimed the place, the loader finds the functions of that one; and where a
copy has opened other functions at the place, it finds these. -/
theorem functions_of_another :
    (let p := ((start copies.host).after copies).process
      let own : InProcess := ⟨0, "x", [("f", .constant 7), ("g", .byteLength)]⟩
      (p.loader 1).source.origin = .inProcess own ∧ (p.loader 1).handle = some 1 ∧
        (p.findSymbol 1 "f").1 = .ok (some .scalarLength) ∧
        own.symbols.get? "f" = some (.constant 7) ∧
        (p.findSymbol 1 "g").1 = .ok none ∧ own.symbols.get? "g" = some .byteLength) ∧
    (let p := ((start copies.host).after claims).process
      let own : InProcess := ⟨1, "x", [("f", .scalarLength)]⟩
      (p.loader 1).source.origin = .inProcess own ∧ (p.loader 1).handle = some 0 ∧
        (p.findSymbol 0 "f").1 = .ok (some (.constant 7)) ∧
        own.symbols.get? "f" = some .scalarLength) ∧
    (let p := ((start copies.host).after supplies).process
      let own : InProcess := ⟨0, "x", [("f", .scalarLength)]⟩
      (p.loader 1).source.origin = .inProcess own ∧ (p.loader 1).handle = some 0 ∧
        (p.findSymbol 0 "f").1 = .ok (some (.constant 7)) ∧
        own.symbols.get? "f" = some .scalarLength) := by
  refine ⟨?_, ?_, ?_⟩ <;> decide +kernel

end Session
end Linkage
