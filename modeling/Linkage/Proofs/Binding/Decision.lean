import Linkage.Proofs.Binding.Descriptor
import Linkage.Proofs.Signature.Grammar
import Linkage.Proofs.Text.Decoding

/-!
# How a binding is decided

Binding looks up two names, that of the function and that of its descriptor, and what it comes to
is read off these two lookups (`resolve_decides`).  It does not matter which library is asked, nor
whether a watch has the lookups fail.  A name that is not found is reported before a declared
signature that cannot be called, and that one before a descriptor that says something else; the
descriptor is looked up only if nothing has been reported by then.

A descriptor is any bytes in front of a zero byte, and they are read with replacement.  That lets
nothing through.  Each ill-formed part is shown as U+FFFD, which is neither a blank nor a character
of the grammar, so no text with it is read as a signature (`replacement_not_mem`).  The bytes that
pass are the encodings of texts, and of texts that the grammar writes as the signature
(`parse?_decodeLossy`).
-/

namespace Linkage

/-! ## Descriptors read with replacement -/

theorem Utf8.decodeLossy_encode (text : List Char) : decodeLossy (encode text) = text := by
  rw [decodeLossy_eq, pieces_eq_map_scalar.mpr rfl, List.map_map]
  exact List.map_id' text

/-- Where a part is ill-formed the replacement character is shown. -/
theorem Utf8.replacement_mem_decodeLossy {bytes : List UInt8}
    (damaged : ¬ ∃ text, encode text = bytes) : '\uFFFD' ∈ decodeLossy bytes := by
  rw [decodeLossy_eq]
  exact List.mem_map.mpr ⟨.damage, damage_mem_pieces.mpr damaged, rfl⟩

namespace Signature

variable {s : Signature} {cs : List Char}

theorem replacement_not_mem_name (t : CType) : '\uFFFD' ∉ t.name.toList := by
  cases t <;> decide

/-- The replacement character is in no text of a signature, among its blanks neither. -/
theorem replacement_not_mem (written : s.Written cs) : '\uFFFD' ∉ cs := by
  intro within
  have shown : '\uFFFD' ∈ Text.unblanked cs := List.mem_filter.mpr ⟨within, by decide⟩
  rw [written.unblanked_eq, toList_text, List.mem_cons, List.mem_append, List.mem_append] at shown
  rcases shown with opens | (params | closes) | ret
  · exact absurd opens (by decide)
  · rcases Text.mem_of_mem_intercalate params with comma | ⟨part, among, within⟩
    · exact absurd comma (by decide)
    · obtain ⟨t, -, rfl⟩ := List.mem_map.mp among
      exact replacement_not_mem_name t within
  · exact absurd closes (by decide)
  · exact replacement_not_mem_name s.ret ret

/-- **Bytes read as a signature are the encoding of a text that is written so.** -/
theorem parse?_decodeLossy {bytes : List UInt8} :
    parse? (String.ofList (Utf8.decodeLossy bytes)) = some s ↔
      ∃ text, Utf8.encode text = bytes ∧ s.Written text := by
  rw [parse?_eq_some, String.toList_ofList]
  constructor
  · intro written
    obtain ⟨text, rfl⟩ : ∃ text, Utf8.encode text = bytes := by
      by_contra damaged
      exact replacement_not_mem written (Utf8.replacement_mem_decodeLossy damaged)
    exact ⟨text, rfl, Utf8.decodeLossy_encode text ▸ written⟩
  · rintro ⟨text, rfl, written⟩
    rwa [Utf8.decodeLossy_encode]

/-- Bytes that go wrong somewhere are read as no signature. -/
theorem parse?_of_broken {bytes : List UInt8} (front : List Char) (broken : Utf8.Broken bytes) :
    parse? (String.ofList (Utf8.decodeLossy (Utf8.encode front ++ bytes))) = none := by
  rw [Option.eq_none_iff_forall_ne_some]
  intro s reads
  obtain ⟨text, encoded, -⟩ := parse?_decodeLossy.mp reads
  exact broken.not_encoded front ⟨text, encoded⟩

end Signature

/-! ## The two lookups -/

namespace Process

variable {p : Process} {h : Handle} {name : String} {declared : Signature} {f g : Function}

/-- A lookup finds a function or none, or it panics. -/
theorem findSymbol_ne_error (p : Process) (h : Handle) (name : String) (e : BridgeError) :
    (p.findSymbol h name).1 ≠ .error e := by
  unfold findSymbol
  split
  · exact nofun
  · dsimp only
    split <;> exact nofun

/-- The lookup of the descriptor that goes with a name, which is made after that of the name. -/
def findDescriptor (p : Process) (h : Handle) (name : String) : Outcome (Option Function) :=
  ((p.findSymbol h name).2.findSymbol h (name ++ Signature.suffix)).1

/-- A name that is not found is reported, whatever signature is declared. -/
theorem resolve_of_missing (missing : (p.findSymbol h name).1 = .ok none) :
    (p.resolve h name declared).1 = .error (.symbolNotFound name (p.pathOf h)) := by
  have heard := heard_findSymbol p h name
  unfold resolve
  rcases look : p.findSymbol h name with ⟨o, q⟩
  rw [look] at missing heard
  obtain rfl : o = .ok none := missing
  exact congrArg (fun path => Outcome.error (.symbolNotFound name path)) (heard.pathOf h)

theorem resolve_of_panic (panicked : (p.findSymbol h name).1 = .panic) :
    (p.resolve h name declared).1 = .panic := by
  unfold resolve
  rcases look : p.findSymbol h name with ⟨o, q⟩
  rw [look] at panicked
  obtain rfl : o = .panic := panicked
  rfl

/-- A declared signature that cannot be called is reported before any descriptor is looked up. -/
theorem resolve_of_uncallable (found : (p.findSymbol h name).1 = .ok (some f))
    (other : declared ≠ .callable) :
    p.resolve h name declared =
      (.error (.signatureMismatch name declared.text onlyCallable), (p.findSymbol h name).2) := by
  unfold resolve
  rcases look : p.findSymbol h name with ⟨o, q⟩
  rw [look] at found
  obtain rfl : o = .ok (some f) := found
  exact if_pos other

/-- What the lookup of the descriptor makes of a function that has been found. -/
theorem resolve_of_found (found : (p.findSymbol h name).1 = .ok (some f)) :
    (p.resolve h name .callable).1 =
      match p.findDescriptor h name with
      | .panic => .panic
      | .error e => .error e
      | .ok none => .ok ⟨h, name, .callable, f⟩
      | .ok (some g) =>
        if Signature.parse? (descriptorText g) = some .callable then
          .ok ⟨h, name, .callable, f⟩
        else .error (.signatureMismatch name Signature.callable.text (descriptorText g)) := by
  unfold resolve findDescriptor
  rcases look : p.findSymbol h name with ⟨o, q⟩
  rw [look] at found
  obtain rfl : o = .ok (some f) := found
  dsimp only
  rw [if_neg (not_not_intro rfl)]
  unfold exportedDescriptor
  rcases q.findSymbol h (name ++ Signature.suffix) with ⟨(_ | g) | e | _, r⟩
  · rfl
  · dsimp only
    split <;> rfl
  · rfl
  · rfl

/-! ## What is bound -/

/-- What the descriptor of a name has to be for a signature to be accepted: there is none, or it
gives the encoding of a text of the signature. -/
def Accepts (descriptor : Option Function) (s : Signature) : Prop :=
  ∀ g, descriptor = some g → ∃ text, g.describe = some (Utf8.encode text) ∧ s.Written text

theorem accepts_iff {d : Option Function} {s : Signature} : Accepts d s ↔
    ∀ g, d = some g → Signature.parse? (descriptorText g) = some s := by
  refine forall₂_congr fun g _ => ?_
  rw [parse?_descriptorText]
  constructor
  · rintro ⟨text, gives, written⟩
    exact ⟨_, gives, Signature.parse?_decodeLossy.mpr ⟨text, rfl, written⟩⟩
  · rintro ⟨bytes, gives, reads⟩
    obtain ⟨text, rfl, written⟩ := Signature.parse?_decodeLossy.mp reads
    exact ⟨text, gives, written⟩

/-- A function is bound if it is found, declared as what can be called, and not described as
something else. -/
theorem resolve_eq_ok {r : SymbolReference} : (p.resolve h name declared).1 = .ok r ↔
    r = ⟨h, name, declared, r.function⟩ ∧ declared = .callable ∧
      (p.findSymbol h name).1 = .ok (some r.function) ∧
      ∃ d, p.findDescriptor h name = .ok d ∧ Accepts d .callable := by
  rcases found : (p.findSymbol h name).1 with (_ | f) | e | _
  · simp [resolve_of_missing found]
  · by_cases callable : declared = .callable
    · subst callable
      rw [resolve_of_found found]
      rcases p.findDescriptor h name with (_ | g) | e | _
      · simp only [Outcome.ok.injEq, accepts_iff]
        grind
      · simp only [Outcome.ok.injEq, accepts_iff]
        grind
      · simp
      · simp
    · simp [resolve_of_uncallable found callable, callable]
  · exact absurd found (findSymbol_ne_error p h name e)
  · simp [resolve_of_panic found]

/-- Binding panics only where a lookup does. -/
theorem resolve_eq_panic : (p.resolve h name declared).1 = .panic ↔
    (p.findSymbol h name).1 = .panic ∨ (∃ f, (p.findSymbol h name).1 = .ok (some f)) ∧
      declared = .callable ∧ p.findDescriptor h name = .panic := by
  rcases found : (p.findSymbol h name).1 with (_ | f) | e | _
  · simp [resolve_of_missing found]
  · by_cases callable : declared = .callable
    · subst callable
      rw [resolve_of_found found]
      rcases p.findDescriptor h name with (_ | g) | e | _
      · simp
      · dsimp only
        split <;> simp
      · simp
      · simp
    · simp [resolve_of_uncallable found callable, callable]
  · exact absurd found (findSymbol_ne_error p h name e)
  · simp [resolve_of_panic found]

/-- **How a binding is decided.**  In every process and for every library, name and declared
signature: a name that is not found is reported as such.  Else a declared signature that cannot
be called is reported with its text.  Else the function is bound if no descriptor is found, or one
whose bytes read as the signature; any other descriptor is reported with the text it gives, and
with `<null descriptor>` if it gives none.

What is bound carries the library, the name and the signature that were asked for, and the
function that was found.  The bytes that read as a signature are the encodings of its texts, with
whatever blanks the grammar allows, and so never ill-formed. -/
theorem resolve_decides (p : Process) (h : Handle) (name : String) (declared : Signature) :
    ((p.findSymbol h name).1 = .ok none →
      (p.resolve h name declared).1 = .error (.symbolNotFound name (p.pathOf h))) ∧
    (∀ f, (p.findSymbol h name).1 = .ok (some f) → declared ≠ .callable →
      (p.resolve h name declared).1 =
        .error (.signatureMismatch name declared.text onlyCallable)) ∧
    (∀ f, (p.findSymbol h name).1 = .ok (some f) → declared = .callable →
      (p.findDescriptor h name = .ok none →
        (p.resolve h name declared).1 = .ok ⟨h, name, declared, f⟩) ∧
      ∀ g, p.findDescriptor h name = .ok (some g) →
        (g.describe = none → (p.resolve h name declared).1 =
          .error (.signatureMismatch name declared.text "<null descriptor>")) ∧
        ∀ bytes, g.describe = some bytes → (p.resolve h name declared).1 =
          if Signature.parse? (String.ofList (Utf8.decodeLossy bytes)) = some .callable then
            .ok ⟨h, name, declared, f⟩
          else .error (.signatureMismatch name declared.text
            (String.ofList (Utf8.decodeLossy bytes)))) ∧
    (∀ r, (p.resolve h name declared).1 = .ok r ↔
      r = ⟨h, name, declared, r.function⟩ ∧ declared = .callable ∧
        (p.findSymbol h name).1 = .ok (some r.function) ∧
        ∃ d, p.findDescriptor h name = .ok d ∧ Accepts d .callable) ∧
    ((p.resolve h name declared).1 = .panic ↔
      (p.findSymbol h name).1 = .panic ∨ (∃ f, (p.findSymbol h name).1 = .ok (some f)) ∧
        declared = .callable ∧ p.findDescriptor h name = .panic) ∧
    (∀ bytes s, Signature.parse? (String.ofList (Utf8.decodeLossy bytes)) = some s ↔
      ∃ text, Utf8.encode text = bytes ∧ s.Written text) ∧
    ∀ front bytes, Utf8.Broken bytes →
      Signature.parse? (String.ofList (Utf8.decodeLossy (Utf8.encode front ++ bytes))) = none := by
  refine ⟨resolve_of_missing, fun f found other => by rw [resolve_of_uncallable found other],
    fun f found callable => ?_, fun r => resolve_eq_ok, resolve_eq_panic,
    fun bytes s => Signature.parse?_decodeLossy,
    fun front bytes => Signature.parse?_of_broken front⟩
  subst callable
  rw [resolve_of_found found]
  refine ⟨fun absent => by rw [absent], fun g described => ?_⟩
  rw [described]
  constructor
  · intro null
    have gives : descriptorText g = nullDescriptor := by rw [descriptorText, null]
    have unreadable : Signature.parse? nullDescriptor = none := by decide
    simp only [gives, unreadable]
    rfl
  · intro bytes some
    have gives : descriptorText g = String.ofList (Utf8.decodeLossy bytes) := by
      rw [descriptorText, some]
    simp only [gives]

/-- A text of the signature that can be called, with blanks in it. -/
def describing.padded : List UInt8 := Utf8.encode " ( c_char_ptr\u3000)->\tc_int64\x00".toList

/-- The text of this signature with a stray tail at its end. -/
def describing.spoiled : List UInt8 :=
  Utf8.encode "(c_char_ptr)->c_int64".toList ++ [0x80, 0, 0x41]

/-- A process that has loaded functions linked into it, which describe themselves with blanks,
with a null pointer and with a stray tail. -/
def describing.process : Process :=
  ((Process.start ⟨.empty, [], none, none, []⟩).newLoader "m" ⟨.inProcess ⟨0, "m",
    [("padded", .byteLength), ("padded_signature", .descriptor (some padded)),
      ("null", .byteLength), ("null_signature", .descriptor none),
      ("spoiled", .byteLength), ("spoiled_signature", .descriptor (some spoiled))]⟩,
    none, none⟩).2.ensureLoaded 0 |>.2

/-- The first is bound, the other two are not, and a name that is not found is reported before
the signature that it is declared with. -/
theorem resolve_decides_describing :
    (describing.process.resolve 0 "padded" .callable).1 =
        .ok ⟨0, "padded", .callable, .byteLength⟩ ∧
      (describing.process.resolve 0 "padded" ⟨[], .void⟩).1 =
        .error (.signatureMismatch "padded" "()->c_void" onlyCallable) ∧
      (describing.process.resolve 0 "null" .callable).1 =
        .error (.signatureMismatch "null" "(c_char_ptr)->c_int64" "<null descriptor>") ∧
      (describing.process.resolve 0 "spoiled" .callable).1 =
        .error (.signatureMismatch "spoiled" "(c_char_ptr)->c_int64"
          "(c_char_ptr)->c_int64\uFFFD") ∧
      (describing.process.resolve 0 "absent" ⟨[], .void⟩).1 =
        .error (.symbolNotFound "absent" (describing.process.pathOf 0)) := by
  have described : ∀ name f bytes,
      (describing.process.findSymbol 0 name).1 = .ok (some f) →
      describing.process.findDescriptor 0 name = .ok (some (.descriptor (some bytes))) →
      (describing.process.resolve 0 name .callable).1 =
        if Signature.parse? (String.ofList (Utf8.decodeLossy (cString bytes))) = some .callable then
          .ok ⟨0, name, .callable, f⟩
        else .error (.signatureMismatch name Signature.callable.text
          (String.ofList (Utf8.decodeLossy (cString bytes)))) :=
    fun name f bytes found found' =>
      ((((resolve_decides _ 0 name .callable).2.2.1 f found rfl).2 _ found').2 _ rfl)
  refine ⟨?_, ?_, ?_, ?_, ?_⟩
  · rw [described "padded" .byteLength describing.padded (by decide +kernel) (by decide +kernel)]
    decide +kernel
  · exact (resolve_decides _ 0 "padded" ⟨[], .void⟩).2.1 .byteLength (by decide +kernel) (by decide)
  · exact (((resolve_decides _ 0 "null" .callable).2.2.1 .byteLength (by decide +kernel) rfl).2
      (.descriptor none) (by decide +kernel)).1 rfl
  · rw [described "spoiled" .byteLength describing.spoiled (by decide +kernel) (by decide +kernel)]
    decide +kernel
  · exact (resolve_decides _ 0 "absent" ⟨[], .void⟩).1 (by decide +kernel)

end Process
end Linkage
