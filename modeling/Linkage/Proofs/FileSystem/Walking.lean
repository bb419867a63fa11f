import Linkage.FileSystem
import Linkage.Proofs.Path.Components

/-!
# Where a path in a directory leads

A walk goes step by step, and a step that is not its last one leads into a directory, or along a
link, or nowhere (`onward`, `walkBy_cons`).  Two facts about walks follow by induction on the
links that may still be followed and, for each number of them, on the steps:

* a step to stay in place makes no difference unless it is the last one (`walk_dot`), so the
  spelling of a directory does not matter to what is in it (`walk_solid`);
* a walk that goes on behind a directory goes on from where the directory is (`walk_append`).

The first gives `follow_join_of_same`: names in directories that are the same by components lead
to the same thing, as long as neither path is too long.  The second gives `place_of_follow_join`:
if a directory is at a place, a name in it is directly below that place, wherever links lead on
the way.
-/

namespace Linkage

/-! ## The steps of a path in a directory -/

namespace Path

variable {p dir dir' : Path} {name : String}

/-- The segments that are not empty, as steps. -/
def written (p : Path) : List String := (p.segments.filter (· ≠ [])).map String.ofList

theorem steps_eq (p : Path) :
    p.steps = if p.text.toList.getLast? = some '/' then p.written ++ ["."] else p.written := rfl

theorem written_join (dir : Path) (name : String) :
    (dir.join name).written = dir.written ++ (Path.mk name).written := by
  by_cases named : dir.text = ""
  · obtain rfl : dir = ⟨""⟩ := by rw [← named]
    rfl
  · obtain ⟨parts, front, joined⟩ := exists_front_join named name
    have here : dir.written = (parts.filter (· ≠ [])).map String.ofList := by
      rw [written]
      rcases front.segments with h | h
      · rw [h]
      · rw [h, List.filter_append]
        simp
    rw [here, written, joined, List.filter_append, List.map_append]
    rfl

/-- A name that does not end in a slash. -/
def Ended (name : String) : Prop := ∃ cs c, name.toList = cs ++ [c] ∧ c ≠ '/'

theorem Ended.of_free (nonempty : name ≠ "") (free : '/' ∉ name.toList) : Ended name := by
  have some : name.toList ≠ [] := by simpa using nonempty
  have text := (List.dropLast_concat_getLast some).symm
  refine ⟨_, _, text, ?_⟩
  intro slash
  exact free (slash ▸ List.getLast_mem some)

theorem Ended.text_join (ended : Ended name) (dir : Path) :
    ∃ cs c, (dir.join name).text.toList = cs ++ [c] ∧ c ≠ '/' := by
  obtain ⟨cs, c, text, slash⟩ := ended
  rw [join]
  split
  · exact ⟨cs, c, text, slash⟩
  · split
    · exact ⟨dir.text.toList ++ cs, c, by simp [text], slash⟩
    · exact ⟨(dir.text ++ "/").toList ++ cs, c, by simp [text], slash⟩

theorem Ended.steps_join (ended : Ended name) (dir : Path) :
    (dir.join name).steps = dir.written ++ (Path.mk name).written := by
  obtain ⟨cs, c, text, slash⟩ := ended.text_join dir
  rw [steps_eq, text, List.getLast?_concat, if_neg (by simpa using slash), written_join]

theorem Ended.written_ne_nil (ended : Ended name) : (Path.mk name).written ≠ [] := by
  intro none
  obtain ⟨cs, c, text, slash⟩ := ended
  have empty : ∀ s ∈ (Path.mk name).segments, s = [] := by simpa [written] using none
  have mem : c ∈ ['/'].intercalate (Path.mk name).segments := by
    rw [segments, Text.intercalate_splitOn, text]
    simp
  obtain ⟨s, here, inside⟩ := (Text.mem_of_mem_intercalate mem).resolve_left slash
  rw [empty s here] at inside
  exact absurd inside List.not_mem_nil

/-- A name without slashes is one step. -/
theorem written_of_free (nonempty : name ≠ "") (free : '/' ∉ name.toList) :
    (Path.mk name).written = [name] := by
  rw [written, segments, Text.splitOn_of_free free]
  simp [nonempty]

/-- The step that a component is. -/
def Component.step : Component → String
  | .root => ""
  | .here => "."
  | .up => ".."
  | .named name => name

/-- The steps that lead anywhere are those of the components. -/
theorem solid_written (p : Path) : p.written.filter (· ≠ ".") =
    (p.segments.filterMap component?).map Component.step := by
  rw [written]
  induction p.segments with
  | nil => rfl
  | cons s rest ih =>
    by_cases empty : s = []
    · rw [List.filter_cons_of_neg (by simpa using empty),
        List.filterMap_cons_none (by simp [component?, empty]), ih]
    · rw [List.filter_cons_of_pos (by simpa using empty), List.map_cons]
      by_cases dot : s = ['.']
      · subst dot
        rw [List.filter_cons_of_neg (by decide), List.filterMap_cons_none rfl, ih]
      · have other : String.ofList s ≠ "." := fun same => dot (by
          rw [← String.toList_ofList (l := s), same]
          rfl)
        rw [List.filter_cons_of_pos (by simpa using other), ih]
        by_cases up : s = ['.', '.']
        · subst up
          rfl
        · have stands : component? s = some (.named (String.ofList s)) := by
            simp [component?, empty, dot, up]
          rw [List.filterMap_cons_some stands]
          rfl

theorem solid_written_of_same (same : dir.same dir') :
    dir.written.filter (· ≠ ".") = dir'.written.filter (· ≠ ".") := by
  rw [solid_written, solid_written, filterMap_segments, filterMap_segments, same_iff.mp same]

theorem mem_text_of_same {c : Char} (slash : c ≠ '/') (dot : c ≠ '.') (same : dir.same dir') :
    c ∈ dir.text.toList ↔ c ∈ dir'.text.toList := by
  rw [mem_text_iff slash dot, mem_text_iff slash dot, filterMap_segments, filterMap_segments,
    same_iff.mp same]

/-- A character other than a slash comes from the directory or the name. -/
theorem mem_text_join {c : Char} (slash : c ≠ '/') (dir : Path) (name : String) :
    c ∈ (dir.join name).text.toList ↔ c ∈ dir.text.toList ∨ c ∈ name.toList := by
  rw [join]
  split
  · rename_i empty
    simp [String.isEmpty_iff.mp empty]
  · split <;> simp [slash]

theorem Plain.isAbsolute_join (plain : Plain name) (dir : Path) :
    (dir.join name).isAbsolute = dir.isAbsolute := by
  by_cases named : dir.text = ""
  · obtain rfl : dir = ⟨""⟩ := by rw [← named]
    obtain ⟨c, cs, text, slash, -⟩ := plain
    simp [join, isAbsolute, text, slash]
  · exact Path.isAbsolute_join named name

end Path

namespace FileSystem

/-- The place where a walk ends. -/
def Arrival.place : Arrival → Place
  | .at place _ => place
  | .free place => place

variable {fs : FileSystem} {through : Bool} {here place cwd : Place} {step name : String}
  {steps rest more : List String} {n : Nat} {dir dir' p : Path}
  {onLink : Place → List String → Except FileFault Arrival}

/-! ## Single steps -/

/-- Where a step that is not the last one leads. -/
inductive Onward where
  /-- Into a directory. -/
  | into (place : Place)
  /-- Along a link, whose steps are to be taken from a place. -/
  | along (start : Place) (steps : List String)

/-- Where a step leads, if more steps follow. -/
def onward (fs : FileSystem) (here : Place) (step : String) : Except FileFault Onward :=
  if step = "." then .ok (.into here)
  else if step = ".." then .ok (.into here.dropLast)
  else if longestName < step.utf8ByteSize then .error .nameTooLong
  else match fs.entryAt (here ++ [step]) with
    | none => .error .notFound
    | some .directory => .ok (.into (here ++ [step]))
    | some (.file _) => .error .notDirectory
    | some (.link target) => .ok (.along (if target.isAbsolute then [] else here) target.steps)

/-- A walk takes one step and goes on. -/
theorem walkBy_cons (follows : rest ≠ []) :
    walkBy fs through onLink here (step :: rest) =
      match fs.onward here step with
      | .error fault => .error fault
      | .ok (.into place) => walkBy fs through onLink place rest
      | .ok (.along start steps) => onLink start (steps ++ rest) := by
  rw [walkBy, onward]
  split
  · rfl
  split
  · rfl
  split
  · rfl
  dsimp only
  rcases fs.entryAt (here ++ [step]) with _ | _ | _ | _ <;> simp [follows]

/-- A walk to a directory steps into a directory, or along a link that leads there. -/
theorem onward_of_arrives
    (h : walkBy fs true onLink here (step :: rest) = .ok (.at place .directory)) :
    (∃ next, fs.onward here step = .ok (.into next) ∧
      walkBy fs true onLink next rest = .ok (.at place .directory)) ∨
    ∃ start steps, fs.onward here step = .ok (.along start steps) ∧
      onLink start (steps ++ rest) = .ok (.at place .directory) := by
  rw [walkBy] at h
  rw [onward]
  split at h
  · exact Or.inl ⟨here, by simp [*], h⟩
  rename_i dot
  split at h
  · exact Or.inl ⟨here.dropLast, by simp [*], h⟩
  rename_i up
  split at h
  · exact absurd h (by simp)
  rename_i short
  rw [if_neg dot, if_neg up, if_neg short]
  dsimp only at h
  generalize fs.entryAt (here ++ [step]) = entry at h ⊢
  rcases entry with _ | _ | _ | target
  · dsimp only at h
    split at h <;> exact absurd h (by simp)
  · exact Or.inl ⟨_, rfl, h⟩
  · dsimp only at h
    split at h <;> exact absurd h (by simp)
  · exact Or.inr ⟨_, _, rfl, by simpa using h⟩

/-! ## Steps that stay in place -/

theorem walkBy_dot (follows : more ≠ [])
    (links : ∀ start steps, onLink start (steps ++ "." :: more) = onLink start (steps ++ more)) :
    walkBy fs through onLink here (steps ++ "." :: more) =
      walkBy fs through onLink here (steps ++ more) := by
  induction steps generalizing here with
  | nil =>
    rw [List.nil_append, List.nil_append, walkBy, if_pos rfl]
  | cons step steps ih =>
    rw [List.cons_append, List.cons_append, walkBy_cons (by simp), walkBy_cons (by simp [follows])]
    rcases fs.onward here step with fault | next | ⟨start, target⟩
    · rfl
    · exact ih
    · dsimp only
      rw [← List.append_assoc, ← List.append_assoc]
      exact links start (target ++ steps)

/-- **A step to stay in place makes no difference where more steps follow.** -/
theorem walk_dot (follows : more ≠ []) (n : Nat) (here : Place) (steps : List String) :
    fs.walk through n here (steps ++ "." :: more) = fs.walk through n here (steps ++ more) := by
  induction n generalizing here steps with
  | zero => exact walkBy_dot follows fun _ _ => rfl
  | succ n ih => exact walkBy_dot follows ih

/-- In front of further steps only those count that lead anywhere. -/
theorem walk_solid (follows : more ≠ []) (n : Nat) (here : Place) (steps : List String) :
    fs.walk through n here (steps ++ more) =
      fs.walk through n here (steps.filter (· ≠ ".") ++ more) := by
  suffices general : ∀ front, fs.walk through n here (front ++ (steps ++ more)) =
      fs.walk through n here (front ++ (steps.filter (· ≠ ".") ++ more)) from general []
  induction steps with
  | nil => exact fun front => rfl
  | cons step steps ih =>
    intro front
    by_cases dot : step = "."
    · rw [dot, List.filter_cons_of_neg (by decide), List.cons_append,
        walk_dot (by simp [follows]), ih]
    · rw [List.filter_cons_of_pos (by simpa using dot), List.cons_append, List.cons_append,
        ← List.singleton_append, ← List.append_assoc, ih (front ++ [step]), List.append_assoc,
        List.singleton_append]

/-! ## Walks that go on -/

theorem walkBy_append (follows : more ≠ [])
    (arrives : walkBy fs true onLink here steps = .ok (.at place .directory)) :
    (∀ through onLink', walkBy fs through onLink' here (steps ++ more) =
      walkBy fs through onLink' place more) ∨
    ∃ start steps', onLink start steps' = .ok (.at place .directory) ∧
      ∀ through onLink', walkBy fs through onLink' here (steps ++ more) =
        onLink' start (steps' ++ more) := by
  induction steps generalizing here with
  | nil =>
    obtain rfl : here = place := by simpa [walkBy] using arrives
    exact Or.inl fun _ _ => rfl
  | cons step steps ih =>
    have first : ∀ through onLink', walkBy fs through onLink' here (step :: (steps ++ more)) =
        match fs.onward here step with
        | .error fault => .error fault
        | .ok (.into place) => walkBy fs through onLink' place (steps ++ more)
        | .ok (.along start target) => onLink' start (target ++ (steps ++ more)) :=
      fun through onLink' => walkBy_cons (by simp [follows])
    rcases onward_of_arrives arrives with ⟨next, into, arrives⟩ | ⟨start, target, along, arrives⟩
    · simp only [into] at first
      rcases ih arrives with straight | ⟨start, steps', linked, by_link⟩
      · exact Or.inl fun through onLink' => (first through onLink').trans (straight through onLink')
      · exact Or.inr ⟨start, steps', linked,
          fun through onLink' => (first through onLink').trans (by_link through onLink')⟩
    · simp only [along] at first
      refine Or.inr ⟨start, target ++ steps, arrives, fun through onLink' => ?_⟩
      rw [List.append_assoc]
      exact first through onLink'

/-- **A walk that goes on behind a directory goes on from the place of the directory**, with the
links that may be followed still. -/
theorem walk_append (follows : more ≠ [])
    (arrives : fs.walk true n here steps = .ok (.at place .directory)) :
    ∃ m, ∀ through, fs.walk through n here (steps ++ more) = fs.walk through m place more := by
  induction n generalizing here steps with
  | zero =>
    rcases walkBy_append follows arrives with straight | ⟨start, steps', linked, -⟩
    · exact ⟨0, fun through => straight through _⟩
    · exact absurd linked (by simp)
  | succ n ih =>
    rcases walkBy_append follows arrives with straight | ⟨start, steps', linked, by_link⟩
    · exact ⟨n + 1, fun through => straight through _⟩
    · obtain ⟨m, rest⟩ := ih linked
      exact ⟨m, fun through => (by_link through _).trans (rest through)⟩

/-- The last step of a walk that does not go along a link leads directly below where it is. -/
theorem place_of_walk_singleton {arrival : Arrival} (dot : name ≠ ".") (up : name ≠ "..")
    (h : fs.walk false n place [name] = .ok arrival) : arrival.place = place ++ [name] := by
  have last : ∀ onLink, walkBy fs false onLink place [name] = .ok arrival →
      arrival.place = place ++ [name] := by
    intro onLink h
    rw [walkBy, if_neg dot, if_neg up] at h
    split at h
    · exact absurd h (by simp)
    · dsimp only at h
      rcases entry : fs.entryAt (place ++ [name]) with _ | _ | _ | _ <;> rw [entry] at h <;>
        (obtain rfl := Except.ok.inj h; rfl)
  cases n with
  | zero => exact last _ h
  | succ n => exact last _ h

/-! ## Following a path in a directory -/

/-- Where the walk along a path starts. -/
def startOf (cwd : Place) (p : Path) : Place := if p.isAbsolute then [] else cwd

/-- A path that is followed anywhere is walked along, step by step. -/
theorem walk_of_follow {arrival : Arrival} (h : fs.follow through cwd p = .ok arrival) :
    p.text ≠ "" ∧ fs.walk through mostLinks (startOf cwd p) p.steps = .ok arrival := by
  unfold follow at h
  split at h
  · exact absurd h (by simp)
  split at h
  · exact absurd h (by simp)
  rename_i nonempty
  refine ⟨by simpa using nonempty, ?_⟩
  split at h
  · exact absurd h (by simp)
  split at h
  · rename_i absolute
    rwa [startOf, if_pos absolute]
  · rename_i relative
    split at h
    · rwa [startOf, if_neg relative]
    · exact absurd h (by simp)

theorem follow_of_resolve {entry : Entry} (h : fs.resolve cwd p = .ok (place, entry)) :
    fs.follow true cwd p = .ok (.at place entry) := by
  unfold resolve at h
  split at h
  · rename_i found
    obtain ⟨rfl, rfl⟩ := Prod.mk.inj (Except.ok.inj h)
    exact found
  · exact absurd h (by simp)
  · exact absurd h (by simp)

/-- A directory is at a place.  The empty path, which leads nowhere itself, stands for the
working directory to the names that are joined to it. -/
def DirectoryAt (fs : FileSystem) (cwd : Place) (dir : Path) (place : Place) : Prop :=
  fs.resolve cwd dir = .ok (place, .directory) ∨ (dir.text = "" ∧ place = cwd)

/-- **A name in a directory is directly below the place of the directory**, or free there. -/
theorem place_of_follow_join {arrival : Arrival} (plain : Path.Plain name)
    (free : '/' ∉ name.toList) (located : fs.DirectoryAt cwd dir place)
    (followed : fs.follow false cwd (dir.join name) = .ok arrival) :
    arrival.place = place ++ [name] := by
  obtain ⟨nonempty, dot, up⟩ := plain.ne
  obtain ⟨-, joined⟩ := walk_of_follow followed
  rw [(Path.Ended.of_free nonempty free).steps_join, Path.written_of_free nonempty free, startOf,
    plain.isAbsolute_join, ← startOf] at joined
  rcases located with resolved | ⟨empty, rfl⟩
  · obtain ⟨-, walked⟩ := walk_of_follow (follow_of_resolve resolved)
    have follows : [name] ≠ [] := by simp
    obtain ⟨m, goes_on⟩ := walk_append follows walked
    have same : fs.walk false mostLinks (startOf cwd dir) (dir.written ++ [name]) =
        fs.walk false m place [name] := by
      rw [← goes_on, Path.steps_eq]
      split
      · rw [List.append_assoc, List.singleton_append, walk_dot (by simp)]
      · rfl
    rw [same] at joined
    exact place_of_walk_singleton dot up joined
  · obtain rfl : dir = ⟨""⟩ := by rw [← empty]
    exact place_of_walk_singleton dot up joined

/-- **Names in directories that are the same lead to the same thing**, unless one of the paths is
too long to be followed. -/
theorem follow_join_of_same (plain : Path.Plain name) (ended : Path.Ended name)
    (same : dir.same dir') (short : (dir.join name).text.utf8ByteSize < pathLimit)
    (short' : (dir'.join name).text.utf8ByteSize < pathLimit) (through : Bool) (cwd : Place) :
    fs.follow through cwd (dir.join name) = fs.follow through cwd (dir'.join name) := by
  have nonempty : ∀ dir : Path, (dir.join name).text.isEmpty = false := by
    intro dir
    obtain ⟨cs, c, text, -⟩ := ended.text_join dir
    rw [Bool.eq_false_iff, ne_eq, String.isEmpty_iff]
    intro empty
    simp [empty] at text
  have zero : (dir.join name).text.toList.contains '\x00' =
      (dir'.join name).text.toList.contains '\x00' := by
    rw [Bool.eq_iff_iff, List.contains_iff_mem, List.contains_iff_mem,
      Path.mem_text_join (by decide), Path.mem_text_join (by decide),
      Path.mem_text_of_same (by decide) (by decide) same]
  have walks : ∀ start, fs.walk through mostLinks start (dir.join name).steps =
      fs.walk through mostLinks start (dir'.join name).steps := by
    intro start
    rw [ended.steps_join, ended.steps_join, walk_solid ended.written_ne_nil,
      Path.solid_written_of_same same, ← walk_solid ended.written_ne_nil]
  unfold follow
  rw [zero, nonempty, nonempty, plain.isAbsolute_join, plain.isAbsolute_join,
    Path.isAbsolute_of_same same, walks, walks, if_neg (Nat.not_le.mpr short),
    if_neg (Nat.not_le.mpr short')]

end FileSystem
end Linkage
