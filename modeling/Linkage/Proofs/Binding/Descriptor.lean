import Linkage.Proofs.Process.Dwindling

/-!
# The check against the exported signature

A name and the descriptor that goes with it are looked up one after the other, the
descriptor under the name with `_signature` behind it.  The platform takes a name with or
without a zero character at its end, so two requested names find an export
(`Image.find?_eq_some`).  Of these only the bare one finds the descriptor as well: behind a
zero character the suffix makes a name that the platform refuses.

`Library.binding` says which function of a library is bound for a name, and binding comes to
this as long as no watch has a lookup fail (`Answering.resolve_eq`).  `resolve_described` is
what it comes to for a function that has a descriptor: asked for by its bare name the function
is bound exactly if the descriptor reads as the declared signature, and asked for with a zero
character behind the name it is bound unchecked (`resolve_unchecked`).
-/

namespace Linkage

/-! ## Names and exports -/

/-- The function exported under a name, if it has an address. -/
def Image.export? (image : Image) (e : String) : Option Function :=
  ((image.exports.find? fun x => x.1 = e).map (·.2)).join

namespace Text

variable {name : String} {cs : List Char}

/-- What is left of a name with at most a zero character at its end. -/
theorem withoutTerminator_eq_iff {name : List Char} (free : '\x00' ∉ cs) :
    withoutTerminator name = cs ↔ name = cs ∨ name = cs ++ ['\x00'] := by
  rw [withoutTerminator]
  by_cases last : name.getLast? = some '\x00'
  · obtain ⟨front, rfl⟩ := List.getLast?_eq_some_iff.mp last
    have other : front ++ ['\x00'] ≠ cs := by
      rintro rfl
      exact free (by simp)
    rw [if_pos last, List.dropLast_concat]
    simp [other]
  · have other : name ≠ cs ++ ['\x00'] := by
      rintro rfl
      exact last (by simp)
    rw [if_neg last]
    simp [other]

/-- The platform gets to see a name without zero characters, which it was given as it is or
with one behind it. -/
theorem platformName?_eq_some : platformName? name = some cs ↔
    '\x00' ∉ cs ∧ (name.toList = cs ∨ name.toList = cs ++ ['\x00']) := by
  have seen : platformName? name = some cs ↔
      '\x00' ∉ cs ∧ withoutTerminator name.toList = cs := by
    rw [platformName?]
    generalize withoutTerminator name.toList = left
    by_cases inside : '\x00' ∈ left
    · simp only [List.contains_eq_mem, inside, decide_true, if_true]
      exact ⟨fun h => absurd h (by simp), fun ⟨free, same⟩ => absurd inside (same ▸ free)⟩
    · simp only [List.contains_eq_mem, inside, decide_false, Bool.false_eq_true, if_false,
        Option.some.injEq]
      exact ⟨fun same => ⟨same ▸ inside, same⟩, And.right⟩
  rw [seen]
  exact and_congr_right withoutTerminator_eq_iff

end Text

namespace Image

variable {image : Image} {name e : String} {f : Function}

/-- An export is found under its name, with or without a zero character behind it. -/
theorem find?_eq_export? (found : Text.platformName? name = some e.toList) (named : e ≠ "") :
    image.find? name = image.export? e := by
  have nonempty : e.toList ≠ [] := by simpa using named
  have same : ∀ x : String × Exported, (x.1.toList = e.toList) = (x.1 = e) := fun x =>
    propext String.toList_inj
  rw [find?, found, export?]
  simp only [same]

/-- **What is found under a requested name is exported under that name, or under it without a
zero character at its end.** -/
theorem find?_eq_some : image.find? name = some f ↔
    ∃ e, e ≠ "" ∧ Text.platformName? name = some e.toList ∧ image.export? e = some f := by
  constructor
  · intro h
    rcases seen : Text.platformName? name with _ | cs
    · exact absurd h (by simp [find?, seen])
    · have named : cs ≠ [] := by
        rintro rfl
        exact absurd h (by simp [find?, seen])
      have named' : String.ofList cs ≠ "" := by simpa using named
      have seen' : Text.platformName? name = some (String.ofList cs).toList := by
        rw [seen, String.toList_ofList]
      refine ⟨_, named', by rw [String.toList_ofList], ?_⟩
      rw [← find?_eq_export? seen' named', h]
  · rintro ⟨e, named, found, exported⟩
    rw [find?_eq_export? found named, exported]

end Image

/-! ## What a library says of a name -/

/-- The function of a library that is bound for a name, or why none is. -/
def Library.binding (lib : Library) (name : String) (declared : Signature) :
    Except BridgeError Function :=
  match lib.table.find? name with
  | none => .error (.symbolNotFound name lib.path)
  | some f =>
    if declared ≠ .callable then
      .error (.signatureMismatch name declared.text onlyCallable)
    else
      match lib.table.find? (name ++ Signature.suffix) with
      | none => .ok f
      | some g =>
        if Signature.parse? (descriptorText g) = some declared then .ok f
        else .error (.signatureMismatch name declared.text (descriptorText g))

theorem Library.binding_eq_ok {lib : Library} {name : String} {declared : Signature}
    {f : Function} : lib.binding name declared = .ok f ↔
      lib.table.find? name = some f ∧ declared = .callable ∧
        ∀ g, lib.table.find? (name ++ Signature.suffix) = some g →
          Signature.parse? (descriptorText g) = some declared := by
  rw [binding]
  rcases lib.table.find? name with _ | f'
  · simp
  by_cases callable : declared = .callable
  · rcases lib.table.find? (name ++ Signature.suffix) with _ | g
    · simp [callable]
    · by_cases reads : Signature.parse? (descriptorText g) = some .callable <;>
        simp [callable, reads]
  · simp [callable]

/-! ## Binding in a library that no watch interferes with -/

namespace Process

variable {p q : Process} {h : Handle} {lib : Library} {image : Image} {name e : String}
  {declared : Signature} {f g : Function}

/-- An opened library in which every name is looked up as it is. -/
structure Candid (p : Process) (h : Handle) (lib : Library) : Prop where
  opened : p.libraries[h]? = some lib
  undisturbed : p.coming lib.watch .symbol = []

/-- An opened library in which every lookup that a watch decides on passes. -/
structure Answering (p : Process) (h : Handle) (lib : Library) : Prop where
  opened : p.libraries[h]? = some lib
  passes : Passing lib.watch p

theorem Candid.answering (c : p.Candid h lib) : p.Answering h lib where
  opened := c.opened
  passes := fun _ mem => absurd (c.undisturbed ▸ mem) List.not_mem_nil

/-- It gives what its functions have under the name, and goes on to do so. -/
theorem Answering.findSymbol (c : p.Answering h lib) (name : String) :
    (p.findSymbol h name).1 = .ok (lib.table.find? name) ∧
      (p.findSymbol h name).2.Answering h lib := by
  have passes : (p.takeVerdict lib.watch .symbol).1 = .pass := by
    rw [(takeVerdict_spec ..).1]
    exact (verdict_mem_coming p lib.watch .symbol 0).elim id (c.passes _)
  refine ⟨?_, by rw [(heard_findSymbol ..).libraries, c.opened],
    c.passes.dwindles (dwindles_findSymbol p h name)⟩
  simp only [Process.findSymbol, c.opened, passes]

/-- **What binding comes to** is what the library says of the name and of the descriptor that
goes with it. -/
theorem Answering.resolve_eq (c : p.Answering h lib) (name : String) (declared : Signature) :
    (p.resolve h name declared).1 =
      match lib.binding name declared with
      | .ok f => .ok ⟨h, name, declared, f⟩
      | .error e => .error e := by
  have path : p.pathOf h = lib.path := by rw [pathOf, c.opened, Option.map_some, Option.getD_some]
  have heard := heard_findSymbol p h name
  obtain ⟨found, c⟩ := c.findSymbol name
  unfold Process.resolve Library.binding
  rcases look : p.findSymbol h name with ⟨o, q⟩
  rw [look] at found c heard
  obtain rfl : o = .ok (lib.table.find? name) := found
  rcases lib.table.find? name with _ | f
  · dsimp only
    rw [heard.pathOf, path]
  obtain ⟨described, -⟩ := c.findSymbol (name ++ Signature.suffix)
  dsimp only at described ⊢
  split
  · rfl
  · unfold Process.exportedDescriptor
    rcases look : q.findSymbol h (name ++ Signature.suffix) with ⟨o, r⟩
    rw [look] at described
    obtain rfl : o = .ok (lib.table.find? (name ++ Signature.suffix)) := described
    rcases lib.table.find? (name ++ Signature.suffix) with _ | g
    · rfl
    · dsimp only
      split <;> rfl

/-- A function is bound if the name is found, the declared signature is the one that can be
called, and the descriptor, if one is found, reads as this signature. -/
theorem Answering.resolve (c : p.Answering h lib) (name : String) (declared : Signature) :
    (p.resolve h name declared).1 = .ok ⟨h, name, declared, f⟩ ↔
      lib.table.find? name = some f ∧ declared = .callable ∧
        ∀ g, lib.table.find? (name ++ Signature.suffix) = some g →
          Signature.parse? (descriptorText g) = some declared := by
  rw [c.resolve_eq, ← Library.binding_eq_ok]
  rcases lib.binding name declared with e | g <;> simp

theorem Candid.resolve (c : p.Candid h lib) (name : String) (declared : Signature) :
    (p.resolve h name declared).1 = .ok ⟨h, name, declared, f⟩ ↔
      lib.table.find? name = some f ∧ declared = .callable ∧
        ∀ g, lib.table.find? (name ++ Signature.suffix) = some g →
          Signature.parse? (descriptorText g) = some declared :=
  c.answering.resolve name declared

/-- What describes nothing, and what is no text of a signature, does not pass the check. -/
theorem parse?_descriptorText : Signature.parse? (descriptorText g) = some declared ↔
    ∃ bytes, g.describe = some bytes ∧
      Signature.parse? (String.ofList (Utf8.decodeLossy bytes)) = some declared := by
  rw [descriptorText]
  rcases g.describe with _ | bytes
  · have unreadable : Signature.parse? nullDescriptor = none := by decide
    simp [unreadable]
  · simp

/-- **The check against an exported descriptor.**  Let a library on the disk export a function
and a descriptor that goes with it, and let a requested name find the function.  It is bound
exactly if the declared signature is the one that can be called and the name either has a zero
character at its end --- then nothing else is checked --- or has none and the descriptor gives
a text that reads as the declared signature. -/
theorem resolve_described (c : p.Candid h lib) (mapped : lib.table = .mapped image)
    (named : e ≠ "") (exported : image.export? e = some f)
    (described : image.export? (e ++ Signature.suffix) = some g)
    (found : Text.platformName? name = some e.toList) :
    (p.resolve h name declared).1 = .ok ⟨h, name, declared, f⟩ ↔
      declared = .callable ∧ (name = e ++ "\x00" ∨
        name = e ∧ ∃ bytes, g.describe = some bytes ∧
          Signature.parse? (String.ofList (Utf8.decodeLossy bytes)) = some declared) := by
  have function : lib.table.find? name = some f := by
    rw [mapped]
    exact Image.find?_eq_some.mpr ⟨e, named, found, exported⟩
  obtain ⟨free, bare | closed⟩ := Text.platformName?_eq_some.mp found
  · obtain rfl : name = e := String.toList_inj.mp bare
    have descriptor : lib.table.find? (name ++ Signature.suffix) = some g := by
      have found : Text.platformName? (name ++ Signature.suffix) =
          some (name ++ Signature.suffix).toList :=
        Text.platformName?_eq_some.mpr ⟨by simpa [Signature.suffix] using free, Or.inl rfl⟩
      rw [mapped]
      exact Image.find?_eq_some.mpr ⟨_, by simp [Signature.suffix], found, described⟩
    have longer : name ≠ name ++ "\x00" := fun same => by
      simpa using congrArg String.length same
    rw [c.resolve, ← parse?_descriptorText]
    simp [function, descriptor, longer]
  · obtain rfl : name = e ++ "\x00" := String.toList_inj.mp (by simpa using closed)
    have descriptor : lib.table.find? (e ++ "\x00" ++ Signature.suffix) = none := by
      rw [mapped, Option.eq_none_iff_forall_ne_some]
      intro g seen
      obtain ⟨e', -, seen, -⟩ := Image.find?_eq_some.mp seen
      obtain ⟨free, same | same⟩ := Text.platformName?_eq_some.mp seen
      · exact free (same ▸ by simp)
      · exact absurd (congrArg List.getLast? same) (by simp [Signature.suffix])
    rw [c.resolve]
    simp [function, descriptor]

/-- A library with two functions that count bytes.  One of them describes itself as what can be
called, the other as a function with another result. -/
def counting : Image :=
  ⟨[("good", some .byteLength),
    ("good_signature", some (.describing .callable)),
    ("narrow", some .byteLength),
    ("narrow_signature", some (.describing ⟨[.charPtr], .int⟩))]⟩

/-- A process that has loaded it from the disk. -/
def counting.process : Process :=
  (((Process.start ⟨⟨[(["libm.so"], .file 0)], [.library counting]⟩, [], none, none, []⟩).newLoader
    "m" (.system [⟨"/"⟩])).2.ensureLoaded 0).2

theorem counting.candid : counting.process.Candid 0 ⟨⟨"/libm.so"⟩, .mapped counting, none⟩ where
  opened := by decide +kernel
  undisturbed := rfl

/-- By their bare names the first function is bound and the second is not. -/
theorem resolve_described_counting :
    (counting.process.resolve 0 "good" .callable).1 =
        .ok ⟨0, "good", .callable, .byteLength⟩ ∧
      (counting.process.resolve 0 "narrow" .callable).1 ≠
        .ok ⟨0, "narrow", .callable, .byteLength⟩ := by
  constructor
  · have exported : counting.export? "good" = some .byteLength := by decide
    have described : counting.export? ("good" ++ Signature.suffix) =
        some (.describing .callable) := by decide
    refine (resolve_described counting.candid rfl (by decide) exported described
      (by decide)).mpr ⟨rfl, Or.inr ⟨rfl, _, rfl, by decide⟩⟩
  · intro bound
    have exported : counting.export? "narrow" = some .byteLength := by decide
    have described : counting.export? ("narrow" ++ Signature.suffix) =
        some (.describing ⟨[.charPtr], .int⟩) := by decide
    obtain ⟨-, closed | ⟨-, bytes, gives, reads⟩⟩ := (resolve_described counting.candid rfl
      (by decide) exported described (by decide)).mp bound
    · exact absurd closed (by decide)
    · obtain rfl := Option.some.inj gives
      exact absurd reads (by decide)

/-- **With a zero character behind its name the second function is bound all the same**, though
its descriptor gives the text of another signature. -/
theorem resolve_unchecked :
    (counting.process.resolve 0 "narrow\x00" .callable).1 =
        .ok ⟨0, "narrow\x00", .callable, .byteLength⟩ ∧
      counting.find? "narrow\x00" = counting.export? "narrow" ∧
      ∃ g, counting.export? "narrow_signature" = some g ∧
        Signature.parse? (descriptorText g) = some ⟨[.charPtr], .int⟩ ∧
        (⟨[.charPtr], .int⟩ : Signature) ≠ .callable := by
  refine ⟨by decide +kernel, by decide +kernel, _, rfl, by decide +kernel, by decide⟩

end Process
end Linkage
