import Linkage.Proofs.Binding.Decision
import Linkage.Proofs.Process.Tandem
import Linkage.Proofs.Search.Candidates

/-!
# What single steps tell

A process tells of what happens in it by notices, which it adds to its journal.  `Tells p q ns`
says which ones it adds on the way from `p` to `q`, in order; how sources are used is in the
journal as well and left out here.  What operations tell one after the other is appended
(`Tells.trans`, `Tells.andThen`).

Only two of the single steps tell of anything.  The disk is probed for a library: the candidates
are looked at in order, up to and including the first that is a file (`tells_locateAt`).  And a
name that is bound has a descriptor that agrees, or none.
-/

namespace Linkage

/-! ## Notices among reports -/

theorem notices_append (a b : List Report) : notices (a ++ b) = notices a ++ notices b :=
  List.filterMap_append ..

theorem notices_map (ns : List Notice) : notices (ns.map Report.notice) = ns := by
  rw [notices, List.filterMap_map]
  exact List.filterMap_some

namespace Notice

variable {words : String}

/-- How often something is told in these words. -/
def said (words : String) (ns : List Notice) : Nat := ns.countP (·.words = words)

@[simp] theorem said_nil : said words [] = 0 := rfl

@[simp] theorem said_append (ns ms : List Notice) :
    said words (ns ++ ms) = said words ns + said words ms := List.countP_append

@[simp] theorem said_singleton (n : Notice) :
    said words [n] = if n.words = words then 1 else 0 := by
  simp [said, List.countP_singleton]

theorem said_flatMap {α : Type} (f : α → List Notice) (as : List α) :
    said words (as.flatMap f) = (as.map fun a => said words (f a)).sum := by
  rw [said, List.countP_flatMap]
  rfl

/-- The words in which the check of a descriptor is told. -/
def checkWords : List String :=
  ["signature descriptor verified", "no signature descriptor exported"]

/-- Nothing is told but in some of these words. -/
def Within (ws : List String) (ns : List Notice) : Prop := ∀ n ∈ ns, n.words ∈ ws

variable {ws : List String} {ns ms : List Notice}

theorem Within.nil : Within ws [] := fun _ mem => absurd mem List.not_mem_nil

theorem Within.append (h : Within ws ns) (h' : Within ws ms) : Within ws (ns ++ ms) :=
  List.forall_mem_append.mpr ⟨h, h'⟩

theorem Within.singleton {n : Notice} (h : n.words ∈ ws) : Within ws [n] :=
  List.forall_mem_singleton.mpr h

theorem Within.mono {ws' : List String} (h : Within ws ns) (sub : ws ⊆ ws') : Within ws' ns :=
  fun n mem => sub (h n mem)

/-- What is told in these words. -/
def inWords (words : String) (ns : List Notice) : List Notice := ns.filter (·.words = words)

@[simp] theorem inWords_nil : inWords words [] = [] := rfl

@[simp] theorem inWords_append (ns ms : List Notice) :
    inWords words (ns ++ ms) = inWords words ns ++ inWords words ms := List.filter_append ..

/-- In other words nothing is told. -/
theorem Within.inWords_eq_nil (h : Within ws ns) (other : words ∉ ws) : inWords words ns = [] :=
  List.filter_eq_nil_iff.mpr fun n mem same => other (of_decide_eq_true same ▸ h n mem)

theorem Within.said_eq_zero (h : Within ws ns) (other : words ∉ ws) : said words ns = 0 := by
  rw [said, List.countP_eq_length_filter, ← inWords, h.inWords_eq_nil other]
  rfl

theorem within_probing (paths : List Path) :
    Within ["probing for native library"] (paths.map probing) := by
  intro n mem
  obtain ⟨path, -, rfl⟩ := List.mem_map.mp mem
  exact List.mem_cons_self

theorem inWords_probing (paths : List Path) :
    inWords "probing for native library" (paths.map probing) = paths.map probing := by
  refine List.filter_eq_self.mpr fun n mem => decide_eq_true ?_
  exact List.mem_singleton.mp (within_probing paths n mem)

end Notice

namespace Process

variable {p q r : Process} {ns ms : List Notice} {α β : Type}

/-- The notices that are added on the way from one process to another. -/
def Tells (p q : Process) (ns : List Notice) : Prop :=
  ∃ reports, q.journal = p.journal ++ reports ∧ notices reports = ns

namespace Tells

theorem of_journal (same : q.journal = p.journal) : Tells p q [] :=
  ⟨[], by rw [same, List.append_nil], rfl⟩

theorem refl (p : Process) : Tells p p [] := of_journal rfl

theorem trans (h : Tells p q ns) (h' : Tells q r ms) : Tells p r (ns ++ ms) := by
  obtain ⟨reports, added, rfl⟩ := h
  obtain ⟨reports', added', rfl⟩ := h'
  exact ⟨reports ++ reports', by rw [added', added, List.append_assoc], notices_append ..⟩

/-- Steps that tell of nothing may stand in front and behind. -/
theorem then_nothing (h : Tells p q ns) (h' : Tells q r []) : Tells p r ns := by
  simpa using h.trans h'

theorem behind_nothing (h : Tells p q []) (h' : Tells q r ns) : Tells p r ns := h.trans h'

/-- What is told is what is new in the journal. -/
theorem notices_drop (h : Tells p q ns) : notices (q.journal.drop p.journal.length) = ns := by
  obtain ⟨reports, added, rfl⟩ := h
  rw [added, List.drop_left]

theorem notices_eq (h : Tells p q ns) : notices q.journal = notices p.journal ++ ns := by
  obtain ⟨reports, added, rfl⟩ := h
  rw [added, notices_append]

end Tells

/-- What is told behind an operation, if it has a result. -/
def behind (x : Outcome α × Process) (ms : α → Process → List Notice) : List Notice :=
  match x with
  | (.ok a, p) => ms a p
  | _ => []

theorem within_behind {ws : List String} {x : Outcome α × Process}
    {ms : α → Process → List Notice} (h : ∀ a q, Notice.Within ws (ms a q)) :
    Notice.Within ws (behind x ms) := by
  obtain ⟨a | e | _, q⟩ := x
  · exact h a q
  · exact .nil
  · exact .nil

/-- What goes on with a result tells what it does with the result. -/
theorem Tells.andThen {x : Outcome α × Process} {k : α → Process → Outcome β × Process}
    {ms : α → Process → List Notice} (h : Tells p x.2 ns)
    (next : ∀ a q, x = (.ok a, q) → Tells q (k a q).2 (ms a q)) :
    Tells p (Process.andThen x k).2 (ns ++ behind x ms) := by
  obtain ⟨a | e | _, q⟩ := x
  · exact h.trans (next a q rfl)
  · exact h.trans (.refl q)
  · exact h.trans (.refl q)

/-! ## Reporting and asking -/

theorem tells_noteAll (p : Process) (ns : List Notice) : Tells p (p.noteAll ns) ns :=
  ⟨_, rfl, notices_map ns⟩

theorem tells_note (p : Process) (n : Notice) : Tells p (p.note n) [n] := tells_noteAll p [n]

/-- Uses of a source are no notices. -/
theorem tells_record (p : Process) (watch : Option WatchId) (use : String → Use) :
    Tells p (p.record watch use) [] := by
  unfold record
  split
  · exact ⟨_, rfl, rfl⟩
  · exact .refl p

theorem tells_takeVerdict (p : Process) (watch : Option WatchId) (kind : UseKind) :
    Tells p (p.takeVerdict watch kind).2 [] := .of_journal (journal_takeVerdict p watch kind)

theorem tells_ask (p : Process) (watch : Option WatchId) (kind : UseKind) (use : String → Use) :
    Tells p (p.ask watch kind use).2 [] :=
  (tells_record p watch use).behind_nothing (tells_takeVerdict ..)

end Process

/-! ## Probing the disk -/

namespace Search

/-- The candidates in order, up to and including the first that passes a test; if none does, all
of them. -/
def upToFirst (test : Path → Bool) (candidates : List Path) : List Path :=
  candidates.takeWhile (!test ·) ++ (candidates.find? test).toList

/-- The probing goes up to the first candidate that passes the test. -/
theorem probe_eq (test : Path → Bool) (candidates : List Path) :
    probe test candidates = (upToFirst test candidates, candidates.find? test) := by
  induction candidates with
  | nil => rfl
  | cons c rest ih =>
    rw [probe, upToFirst, List.takeWhile_cons, List.find?_cons]
    cases test c with
    | true => rfl
    | false =>
      rw [ih]
      rfl

end Search

namespace Process

variable {p q : Process} {h : Handle} {name library : String} {declared : Signature}

/-- The candidates that a search of directories for a library looks at. -/
def searched (p : Process) (dirs : List Path) (library : String) : List Path :=
  Search.upToFirst (p.host.files.isFile p.host.cwd) (Search.candidates dirs library)

/-- The candidates that are looked at when a source is asked where a library is.  Only the disk
has any; and it is looked at only if no verdict answers in its place and the source does not
claim a fixed one. -/
def probed (p : Process) (s : Source) (library : String) : List Path :=
  match p.verdict s.watch .locate 0, s.fixed, s.origin with
  | .pass, none, .system dirs | .supply _, none, .system dirs => p.searched dirs library
  | _, _, _ => []

/-- **A search goes through the candidates in order, up to and including the first that is a
file**, and tells of these.  That file is where the library is; if no candidate is a file, all of
them are reported. -/
theorem tells_locateAt (p : Process) (dirs : List Path) (library : String) :
    Tells p (p.locateAt (.system dirs) library).2 ((p.searched dirs library).map .probing) ∧
      (p.locateAt (.system dirs) library).1 =
        match (Search.candidates dirs library).find? (p.host.files.isFile p.host.cwd) with
        | some path => .ok path
        | none => .error (.libraryNotFound library (Search.candidates dirs library)) := by
  simp only [locateAt, Search.probe_eq]
  cases (Search.candidates dirs library).find? (p.host.files.isFile p.host.cwd) with
  | some path => exact ⟨tells_noteAll .., rfl⟩
  | none => exact ⟨tells_noteAll .., rfl⟩

/-- Asking a source where a library is tells of the candidates that are looked at. -/
theorem tells_locate (p : Process) (s : Source) (library : String) (owner : Option LoaderId) :
    Tells p (p.locate s library owner).2 ((p.probed s library).map .probing) := by
  unfold locate
  extract_lets asked
  have first : asked.1 = p.verdict s.watch .locate 0 := (ask_spec p s.watch .locate _).1
  have heard : Heard p asked.2 := heard_ask ..
  have asking : Tells p asked.2 [] := tells_ask ..
  refine asking.behind_nothing ?_
  rw [first, probed]
  unfold locateUnder
  rcases s with ⟨_ | dirs, _ | path, watch⟩
  · cases p.verdict watch .locate 0
    case pass | supply =>
      dsimp only [locateAt]
      split <;> exact .refl _
    all_goals exact .refl _
  · cases p.verdict watch .locate 0 <;> exact .refl _
  · have told := (tells_locateAt asked.2 dirs library).1
    rw [searched, heard.host] at told
    cases p.verdict watch .locate 0
    case pass | supply => exact told
    all_goals exact .refl _
  · cases p.verdict watch .locate 0 <;> exact .refl _

/-! ## Opening a library, and looking into it -/

theorem tells_tableUnder (p : Process) (s : Source) (path : Path) (v : Verdict) :
    Tells p (p.tableUnder s path v).2 [] := by
  have opening : Tells p (p.tableAt s.origin path).2 [] := by
    unfold tableAt
    split <;> exact .refl _
  unfold tableUnder
  split
  all_goals first
    | exact .refl p
    | (split <;> rename_i h <;> rw [h] at opening <;> exact opening)

/-- Opening a library tells of nothing. -/
theorem tells_openLibrary (p : Process) (s : Source) (path : Path) (owner : Option LoaderId) :
    Tells p (p.openLibrary s path owner).2 [] := by
  unfold openLibrary
  extract_lets asked
  have opening := (tells_ask ..).behind_nothing (tells_tableUnder asked.2 s path asked.1)
  split <;> rename_i h <;> rw [h] at opening <;> exact opening.then_nothing (.of_journal rfl)

/-- Looking a name up tells of nothing. -/
theorem tells_findSymbol (p : Process) (h : Handle) (name : String) :
    Tells p (p.findSymbol h name).2 [] := by
  unfold findSymbol
  split
  · exact .refl p
  · rename_i lib _
    have taken := tells_takeVerdict p lib.watch .symbol
    dsimp only
    split
    · exact taken
    all_goals exact taken.then_nothing (tells_record ..)

/-- What binding a name tells: the descriptor that goes with it agrees, or there is none. -/
def descriptorNotices (p : Process) (h : Handle) (name : String) (declared : Signature) :
    List Notice :=
  match (p.resolve h name declared).1 with
  | .ok _ =>
    if p.findDescriptor h name = .ok none then [.descriptorAbsent name]
    else [.descriptorVerified name declared]
  | _ => []

theorem within_descriptorNotices (p : Process) (h : Handle) (name : String)
    (declared : Signature) :
    Notice.Within Notice.checkWords (p.descriptorNotices h name declared) := by
  unfold descriptorNotices
  split
  · split <;> exact .singleton (by simp [Notice.words, Notice.checkWords])
  · exact .nil

/-- Binding a name tells how its descriptor was checked, if it succeeds. -/
theorem tells_resolve (p : Process) (h : Handle) (name : String) (declared : Signature) :
    Tells p (p.resolve h name declared).2 (p.descriptorNotices h name declared) := by
  have first := tells_findSymbol p h name
  unfold descriptorNotices findDescriptor
  rw [resolve_eq]
  rcases look : p.findSymbol h name with ⟨(_ | f) | e | _, q⟩ <;> rw [look] at first
  · exact first
  · dsimp only [andThen]
    split
    · exact first
    rw [exportedDescriptor_eq]
    have second := first.behind_nothing (tells_findSymbol q h (name ++ Signature.suffix))
    rcases look' : q.findSymbol h (name ++ Signature.suffix) with ⟨(_ | g) | e | _, r⟩ <;>
      rw [look'] at second
    · exact second.behind_nothing (tells_note ..)
    · dsimp only [andThen, Option.map, checked]
      split
      · exact second.behind_nothing (tells_note ..)
      · exact second
    · exact second
    · exact second
  · exact first
  · exact first

end Process
end Linkage
