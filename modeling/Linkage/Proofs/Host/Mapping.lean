import Linkage.Proofs.Process.Frame
import Mathlib.Data.List.Perm.Basic

/-!
# Requests to the platform's loader, one after the other

The platform's loader answers a request from the files and from what it has mapped before.
Of the latter two views are enough: the image that is given under a name (`Host.namedImage`),
and the image that has been mapped from a file (`Host.fileImage`).  A request adds to these
views what it is answered itself, and this is what any later request for the same would have
been answered anyway.  So no request changes the answer to another one (`answer_mapLibrary`),
and the memory behind several requests does not depend on their order (`recalls_of_perm`).
-/

namespace Linkage

/-! ## Changing one element of a list -/

section Modify

variable {α β : Type} {q : α → Bool} {f : α → α} {g : α → β} {l : List α} {i : Nat}

/-- An element is found as before, as far as `g` tells, if the change shows in neither. -/
theorem map_find?_modify (found : ∀ a, q (f a) = q a) (told : ∀ a, g (f a) = g a) :
    ((l.modify i f).find? q).map g = (l.find? q).map g := by
  induction l generalizing i with
  | nil => simp
  | cons a l ih =>
    cases i with
    | zero =>
      rw [List.modify_zero_cons, List.find?_cons, List.find?_cons, found]
      cases q a with
      | true => exact congrArg some (told a)
      | false => rfl
    | succ i =>
      rw [List.modify_succ_cons, List.find?_cons, List.find?_cons]
      cases q a with
      | true => rfl
      | false => exact ih

/-- Where nothing was found, the changed element is. -/
theorem find?_modify_of_none (none : l.find? q = none) (found : ∀ a, q (f a) = true) :
    (l.modify i f).find? q = l[i]?.map f := by
  induction l generalizing i with
  | nil => simp
  | cons a l ih =>
    rw [List.find?_cons] at none
    split at none
    · exact absurd none (by simp)
    · rename_i other
      cases i with
      | zero => simp [found]
      | succ i =>
        rw [List.modify_succ_cons, List.find?_cons, other]
        simpa using ih none

end Modify

namespace Host

variable {host : Host} {y z p : Path} {id : FileId}

/-! ## What has been mapped -/

/-- The image that is given under a name without following it. -/
def namedImage (host : Host) (name : String) : Option Image :=
  (host.mapped.find? fun m => m.names.contains name).map (·.image)

/-- The image that has been mapped from a file. -/
def fileImage (host : Host) (id : FileId) : Option Image :=
  (host.mapped.find? fun m => m.file = id).map (·.image)

theorem mapped_findIdx? {index : Nat}
    (here : (host.mapped.findIdx? fun m => m.file = id) = some index) :
    host.fileImage id = (host.mapped[index]?).map (·.image) := by
  obtain ⟨lt, is, before⟩ := List.findIdx?_eq_some_iff_getElem.mp here
  have found : (host.mapped.find? fun m => m.file = id) = some host.mapped[index] :=
    List.find?_eq_some_iff_getElem.mpr ⟨is, index, lt, rfl, by simpa using before⟩
  rw [fileImage, found, List.getElem?_eq_getElem lt]

theorem fileImage_of_findIdx?_none
    (nowhere : (host.mapped.findIdx? fun m => m.file = id) = none) : host.fileImage id = none := by
  rw [fileImage, Option.map_eq_none_iff, List.find?_eq_none]
  intro m hm
  simpa using List.findIdx?_eq_none_iff.mp nowhere m hm

/-- A path is followed to a file, which is mapped if it has not been. -/
theorem answer_mapFile (host : Host) (p : Path) :
    (host.mapFile p).1 = (host.files.fileAt? host.cwd p).bind fun id =>
      (host.fileImage id).or (host.imageOf? id) := by
  fun_cases Host.mapFile host p with
  | case1 none => simp [none]
  | case2 id found index here =>
    have lt := (List.findIdx?_eq_some_iff_findIdx_eq.mp here).1
    rw [found, Option.bind_some, mapped_findIdx? here, List.getElem?_eq_getElem lt]
    rfl
  | case3 id found nowhere none =>
    rw [found, Option.bind_some, fileImage_of_findIdx?_none nowhere, none]
    rfl
  | case4 id found nowhere image here =>
    rw [found, Option.bind_some, fileImage_of_findIdx?_none nowhere, here]
    rfl

theorem fileImage_mapFile (host : Host) (p : Path) (id : FileId) :
    (host.mapFile p).2.fileImage id =
      if host.files.fileAt? host.cwd p = some id then (host.fileImage id).or (host.imageOf? id)
      else host.fileImage id := by
  fun_cases Host.mapFile host p with
  | case1 none => simp [none]
  | case2 id' found index here =>
    have same : (host.nameMapped index p.text).fileImage id = host.fileImage id :=
      map_find?_modify (fun _ => rfl) fun _ => rfl
    rw [same, found]
    split
    · rename_i is
      obtain rfl := Option.some.inj is
      have lt := (List.findIdx?_eq_some_iff_findIdx_eq.mp here).1
      rw [mapped_findIdx? here, List.getElem?_eq_getElem lt]
      rfl
    · rfl
  | case3 id' found nowhere none =>
    rw [found]
    split
    · rename_i is
      obtain rfl := Option.some.inj is
      rw [none, Option.or_none]
    · rfl
  | case4 id' found nowhere image here =>
    have added : ({ host with mapped := host.mapped ++ [⟨id', image, [p.text]⟩] } : Host).fileImage
        id = (host.fileImage id).or (if id' = id then some image else none) := by
      simp only [fileImage, List.find?_append, Option.map_or]
      congr 1
      by_cases same : id' = id
      · simp [same]
      · simp [same]
    rw [added, found]
    by_cases same : id' = id
    · subst same
      rw [if_pos rfl, if_pos rfl, here]
    · rw [if_neg same, if_neg fun is => same (Option.some.inj is), Option.or_none]

/-- A request that is answered by a file adds its text to the names of this file. -/
theorem namedImage_mapFile (unnamed : host.namedImage p.text = none) (name : String) :
    (host.mapFile p).2.namedImage name =
      if name = p.text then (host.mapFile p).1 else host.namedImage name := by
  have not_named : (host.mapped.find? fun m => m.names.contains p.text) = none :=
    Option.map_eq_none_iff.mp unnamed
  fun_cases Host.mapFile host p with
  | case1 none =>
    split
    · rename_i is
      rw [is, unnamed]
    · rfl
  | case2 id found index here =>
    by_cases is : name = p.text
    · subst is
      rw [if_pos rfl, namedImage, nameMapped, find?_modify_of_none not_named (by simp),
        Option.map_map]
      rfl
    · rw [if_neg is]
      exact map_find?_modify (fun m => by simp [is]) fun _ => rfl
  | case3 id found nowhere none =>
    split
    · rename_i is
      rw [is, unnamed]
    · rfl
  | case4 id found nowhere image here =>
    simp only [namedImage, List.find?_append, Option.map_or]
    by_cases is : name = p.text
    · subst is
      rw [not_named]
      simp
    · simp [is]

/-! ## Requests by name -/

/-- A request leads to a file: its text is a path, no name that is known, and it is followed
to this file. -/
def Leads (host : Host) (p : Path) (id : FileId) : Prop :=
  '/' ∈ p.text.toList ∧ host.namedImage p.text = none ∧ host.files.fileAt? host.cwd p = some id

instance : Decidable (host.Leads p id) := inferInstanceAs (Decidable (_ ∧ _ ∧ _))

theorem text_ne_empty_of_slash (slash : '/' ∈ p.text.toList) : p.text.isEmpty = false := by
  rw [← Bool.not_eq_true, String.isEmpty_iff]
  intro empty
  rw [empty] at slash
  exact absurd slash (by simp)

theorem mapNamed_of_no_slash (bare : '/' ∉ p.text.toList) (host other : Host) :
    (host.mapNamed p).1 = (other.mapNamed p).1 ∧ (host.mapNamed p).2 = host := by
  have searched : p.text.toList.contains '/' = false := by simpa using bare
  simp only [mapNamed, searched]
  split <;> exact ⟨rfl, rfl⟩

/-- A path is answered by its text, or else by the file it is followed to. -/
theorem mapNamed_of_slash (slash : '/' ∈ p.text.toList) (host : Host) :
    (host.mapNamed p).1 = (host.namedImage p.text).or (host.mapFile p).1 ∧
      (host.mapNamed p).2 =
        if host.namedImage p.text = none then (host.mapFile p).2 else host := by
  have searched : p.text.toList.contains '/' = true := by simpa using slash
  rcases known : host.mapped.find? fun m => m.names.contains p.text with _ | m
  · simp only [mapNamed, searched, text_ne_empty_of_slash slash, namedImage, known]
    exact ⟨rfl, rfl⟩
  · simp only [mapNamed, searched, text_ne_empty_of_slash slash, namedImage, known]
    exact ⟨rfl, rfl⟩

theorem host_mapNamed (host : Host) (p : Path) :
    (host.mapNamed p).2 = { host with mapped := (host.mapNamed p).2.mapped } := by
  fun_cases Host.mapNamed host p with
  | case1 | case2 | case3 => rfl
  | case4 => exact Process.host_mapFile ..

theorem namedImage_mapNamed (host : Host) (p : Path) (name : String) :
    (host.mapNamed p).2.namedImage name =
      if name = p.text ∧ '/' ∈ p.text.toList then (host.mapNamed p).1
      else host.namedImage name := by
  by_cases slash : '/' ∈ p.text.toList
  · obtain ⟨answer, behind⟩ := mapNamed_of_slash slash host
    rw [answer, behind]
    simp only [slash, and_true]
    cases known : host.namedImage p.text with
    | none => rw [if_pos rfl, namedImage_mapFile known, Option.none_or]
    | some image =>
      rw [if_neg (by simp)]
      split
      · rename_i is
        rw [is, known, Option.some_or]
      · rfl
  · rw [(mapNamed_of_no_slash slash host host).2, if_neg fun h => slash h.2]

theorem fileImage_mapNamed (host : Host) (p : Path) (id : FileId) :
    (host.mapNamed p).2.fileImage id =
      if host.Leads p id then (host.fileImage id).or (host.imageOf? id)
      else host.fileImage id := by
  by_cases slash : '/' ∈ p.text.toList
  · rw [(mapNamed_of_slash slash host).2]
    by_cases unknown : host.namedImage p.text = none
    · rw [if_pos unknown, fileImage_mapFile]
      simp only [Leads, slash, unknown, true_and]
    · rw [if_neg unknown, if_neg fun leads => unknown leads.2.1]
  · rw [(mapNamed_of_no_slash slash host host).2, if_neg fun leads => slash leads.1]

/-! ## Memories that are the same -/

/-- Two hosts have the same surroundings, and their platform's loaders remember the same. -/
structure Recalls (h h' : Host) : Prop where
  files : h'.files = h.files
  cwd : h'.cwd = h.cwd
  libraryPath : h'.libraryPath = h.libraryPath
  programDir : h'.programDir = h.programDir
  named : ∀ name, h'.namedImage name = h.namedImage name
  filed : ∀ id, h'.fileImage id = h.fileImage id

namespace Recalls

variable {h h' h'' : Host}

@[refl] theorem refl (h : Host) : Recalls h h := ⟨rfl, rfl, rfl, rfl, fun _ => rfl, fun _ => rfl⟩

theorem trans (a : Recalls h h') (b : Recalls h' h'') : Recalls h h'' where
  files := b.files.trans a.files
  cwd := b.cwd.trans a.cwd
  libraryPath := b.libraryPath.trans a.libraryPath
  programDir := b.programDir.trans a.programDir
  named := fun name => (b.named name).trans (a.named name)
  filed := fun id => (b.filed id).trans (a.filed id)

theorem imageOf? (same : Recalls h h') (id : FileId) : h'.imageOf? id = h.imageOf? id := by
  rw [Host.imageOf?, same.files, Host.imageOf?]

/-- The same memory gives the same answers. -/
theorem answer (same : Recalls h h') (p : Path) : (h'.mapNamed p).1 = (h.mapNamed p).1 := by
  by_cases slash : '/' ∈ p.text.toList
  · rw [(mapNamed_of_slash slash h').1, (mapNamed_of_slash slash h).1, answer_mapFile,
      answer_mapFile, same.named, same.files, same.cwd]
    congr 2
    funext id
    rw [same.filed, same.imageOf?]
  · exact (mapNamed_of_no_slash slash h' h).1

theorem leads_iff (same : Recalls h h') : h'.Leads p id ↔ h.Leads p id := by
  rw [Leads, Leads, same.named, same.files, same.cwd]

/-- What is the same behind no request is the same behind one. -/
theorem mapNamed (same : Recalls h h') (p : Path) :
    Recalls (h.mapNamed p).2 (h'.mapNamed p).2 where
  files := by rw [host_mapNamed h', host_mapNamed h, same.files]
  cwd := by rw [host_mapNamed h', host_mapNamed h, same.cwd]
  libraryPath := by rw [host_mapNamed h', host_mapNamed h, same.libraryPath]
  programDir := by rw [host_mapNamed h', host_mapNamed h, same.programDir]
  named := fun name => by
    rw [namedImage_mapNamed, namedImage_mapNamed, same.answer, same.named]
  filed := fun id => by
    rw [fileImage_mapNamed, fileImage_mapNamed, same.filed, same.imageOf?]
    simp only [same.leads_iff]

end Recalls

/-! ## One request behind another -/

theorem files_mapNamed (host : Host) (p : Path) : (host.mapNamed p).2.files = host.files := by
  rw [host_mapNamed]

theorem cwd_mapNamed (host : Host) (p : Path) : (host.mapNamed p).2.cwd = host.cwd := by
  rw [host_mapNamed]

theorem imageOf?_mapNamed (host : Host) (p : Path) (id : FileId) :
    (host.mapNamed p).2.imageOf? id = host.imageOf? id := by
  rw [imageOf?, files_mapNamed, imageOf?]

/-- A request does not touch what is known under another text. -/
theorem namedImage_mapNamed_of_ne (other : z ≠ y) :
    (host.mapNamed y).2.namedImage z.text = host.namedImage z.text := by
  rw [namedImage_mapNamed, if_neg fun is => other (congrArg Path.mk is.1)]

theorem leads_mapNamed_iff (other : z ≠ y) :
    (host.mapNamed y).2.Leads z id ↔ host.Leads z id := by
  rw [Leads, Leads, namedImage_mapNamed_of_ne other, files_mapNamed, cwd_mapNamed]

/-- **No request changes the answer to another one.** -/
theorem answer_mapNamed (host : Host) (y z : Path) :
    ((host.mapNamed y).2.mapNamed z).1 = (host.mapNamed z).1 := by
  by_cases slash : '/' ∈ z.text.toList
  · by_cases same : z = y
    · subst same
      -- asked again, a path that was answered is known by its text
      rw [(mapNamed_of_slash slash _).1, namedImage_mapNamed, if_pos ⟨rfl, slash⟩]
      cases answer : (host.mapNamed z).1 with
      | some image => rfl
      | none =>
        have known : host.namedImage z.text = none ∧ (host.mapFile z).1 = none := by
          rw [← Option.or_eq_none_iff, ← (mapNamed_of_slash slash host).1, answer]
        rw [Option.none_or, (mapNamed_of_slash slash host).2, if_pos known.1,
          Process.host_mapFile_of_none known.2, known.2]
    · rw [(mapNamed_of_slash slash _).1, (mapNamed_of_slash slash host).1,
        namedImage_mapNamed_of_ne same, answer_mapFile, answer_mapFile, files_mapNamed,
        cwd_mapNamed]
      congr 2
      funext id
      rw [fileImage_mapNamed, imageOf?_mapNamed]
      split
      · rw [Option.or_assoc, Option.or_self]
      · rfl
  · exact (mapNamed_of_no_slash slash _ _).1

/-- **Two requests leave the same memory in either order.** -/
theorem swap_mapNamed (host : Host) (y z : Path) :
    Recalls ((host.mapNamed y).2.mapNamed z).2 ((host.mapNamed z).2.mapNamed y).2 := by
  by_cases same : z = y
  · rw [same]
  have other : y ≠ z := fun is => same is.symm
  refine ⟨?_, ?_, ?_, ?_, fun name => ?_, fun id => ?_⟩
  · simp only [files_mapNamed]
  · simp only [cwd_mapNamed]
  · rw [host_mapNamed, host_mapNamed host z, host_mapNamed (host.mapNamed y).2 z,
      host_mapNamed host y]
  · rw [host_mapNamed, host_mapNamed host z, host_mapNamed (host.mapNamed y).2 z,
      host_mapNamed host y]
  · simp only [namedImage_mapNamed, answer_mapNamed]
    by_cases is : name = z.text
    · have not : name ≠ y.text := fun is' => same (congrArg Path.mk (is.symm.trans is'))
      simp only [not, false_and, if_false]
    · simp only [is, false_and, if_false]
  · simp only [fileImage_mapNamed, imageOf?_mapNamed, leads_mapNamed_iff same,
      leads_mapNamed_iff other]
    by_cases leadsY : host.Leads y id
    · by_cases leadsZ : host.Leads z id
      · simp only [leadsY, leadsZ, if_true]
      · simp only [leadsY, leadsZ, if_true, if_false]
    · simp only [leadsY, if_false]

/-! ## Requests for libraries -/

/-- The path that the platform gets to see of a request. -/
def seen (p : Path) : Option Path := (Text.platformName? p.text).map fun cs => ⟨String.ofList cs⟩

theorem mapLibrary_eq (host : Host) (p : Path) : host.mapLibrary p =
    match seen p with
    | none => (none, host)
    | some p => host.mapNamed p := by
  rw [mapLibrary, seen]
  cases Text.platformName? p.text with
  | none => rfl
  | some cs => rfl

theorem answer_mapLibrary (host : Host) (y z : Path) :
    ((host.mapLibrary y).2.mapLibrary z).1 = (host.mapLibrary z).1 := by
  rw [mapLibrary_eq host y]
  cases seen y with
  | none => rfl
  | some y =>
    rw [mapLibrary_eq, mapLibrary_eq]
    cases seen z with
    | none => rfl
    | some z => exact answer_mapNamed host y z

theorem Recalls.mapLibrary {h h' : Host} (same : Recalls h h') (p : Path) :
    Recalls (h.mapLibrary p).2 (h'.mapLibrary p).2 := by
  rw [mapLibrary_eq h, mapLibrary_eq h']
  cases seen p with
  | none => exact same
  | some p => exact same.mapNamed p

theorem swap_mapLibrary (host : Host) (y z : Path) :
    Recalls ((host.mapLibrary y).2.mapLibrary z).2 ((host.mapLibrary z).2.mapLibrary y).2 := by
  rw [mapLibrary_eq host y, mapLibrary_eq host z]
  cases hy : seen y with
  | none =>
    rw [mapLibrary_eq, mapLibrary_eq, hy]
  | some y =>
    cases hz : seen z with
    | none =>
      rw [mapLibrary_eq, mapLibrary_eq, hy, hz]
    | some z =>
      rw [mapLibrary_eq, mapLibrary_eq, hy, hz]
      exact swap_mapNamed host y z

/-- A host behind requests for libraries. -/
def mapAll (host : Host) (paths : List Path) : Host :=
  paths.foldl (fun h p => (h.mapLibrary p).2) host

theorem mapAll_cons (host : Host) (p : Path) (paths : List Path) :
    host.mapAll (p :: paths) = (host.mapLibrary p).2.mapAll paths := rfl

theorem mapAll_append (host : Host) (paths paths' : List Path) :
    host.mapAll (paths ++ paths') = (host.mapAll paths).mapAll paths' := List.foldl_append ..

theorem mapAll_eq (host : Host) (paths : List Path) :
    host.mapAll paths = { host with mapped := (host.mapAll paths).mapped } := by
  induction paths generalizing host with
  | nil => rfl
  | cons p paths ih =>
    rw [mapAll_cons, ih, Process.host_mapLibrary]

/-- **No requests change the answer to another one.** -/
theorem answer_mapAll (host : Host) (paths : List Path) (z : Path) :
    ((host.mapAll paths).mapLibrary z).1 = (host.mapLibrary z).1 := by
  induction paths generalizing host with
  | nil => rfl
  | cons p paths ih => rw [mapAll_cons, ih, answer_mapLibrary]

theorem Recalls.mapAll {h h' : Host} (same : Recalls h h') (paths : List Path) :
    Recalls (h.mapAll paths) (h'.mapAll paths) := by
  induction paths generalizing h h' with
  | nil => exact same
  | cons p paths ih => exact ih (same.mapLibrary p)

/-- **The memory behind several requests does not depend on their order.** -/
theorem recalls_of_perm (host : Host) {paths paths' : List Path} (perm : paths.Perm paths') :
    Recalls (host.mapAll paths) (host.mapAll paths') := by
  induction perm generalizing host with
  | nil => exact .refl host
  | cons p _ ih => exact ih _
  | swap y z paths => exact (swap_mapLibrary host z y).mapAll paths
  | trans _ _ ih ih' => exact (ih host).trans (ih' host)

end Host
end Linkage
