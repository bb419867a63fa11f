import Linkage.Proofs.Loading.Account

/-!
# One attempt to load

`Attempt p l o q` says how an attempt to have the library of a loader ends, and what is
left behind: the source does not have the library, or its place is registered, or the
source is asked to open it and does or does not.  An attempt ends in exactly one of
these ways (`attempt_load`, `Attempt.eq_load`).

From it follows what a load does to the account of the registry: an attempt that fails
leaves the account as it is, and one that succeeds adds what it opened and what the
loader got.
-/

namespace Linkage
namespace Process

variable {p q : Process} {l : LoaderId}

/-- The ways in which an attempt to have the library of a loader ends. -/
inductive Attempt (p : Process) (l : LoaderId) : Outcome Load → Process → Prop where
  | locatePanics {q : Process}
      (asked : p.locate (p.loader l).source (p.loader l).library (some l) = (.panic, q)) :
      Attempt p l .panic q
  | notLocated {e : BridgeError} {q : Process}
      (asked : p.locate (p.loader l).source (p.loader l).library (some l) = (.error e, q)) :
      Attempt p l (.error e) q
  | reused {path : Path} {h : Handle} {q : Process}
      (asked : p.locate (p.loader l).source (p.loader l).library (some l) = (.ok path, q))
      (registered : q.registered? (q.host.registryKey path) = some h) :
      Attempt p l (.ok ⟨path, q.host.registryKey path, h, false⟩) (q.note (.reusing path))
  | openPanics {path : Path} {q r : Process}
      (asked : p.locate (p.loader l).source (p.loader l).library (some l) = (.ok path, q))
      (registered : q.registered? (q.host.registryKey path) = none)
      (opening : q.openLibrary (p.loader l).source path (some l) = (.panic, r)) :
      Attempt p l .panic r
  | notOpened {path : Path} {e : BridgeError} {q r : Process}
      (asked : p.locate (p.loader l).source (p.loader l).library (some l) = (.ok path, q))
      (registered : q.registered? (q.host.registryKey path) = none)
      (opening : q.openLibrary (p.loader l).source path (some l) = (.error e, r)) :
      Attempt p l (.error e) r
  | opened {path : Path} {h : Handle} {q r : Process}
      (asked : p.locate (p.loader l).source (p.loader l).library (some l) = (.ok path, q))
      (registered : q.registered? (q.host.registryKey path) = none)
      (opening : q.openLibrary (p.loader l).source path (some l) = (.ok h, r)) :
      Attempt p l (.ok ⟨path, q.host.registryKey path, h, true⟩)
        (r.register (q.host.registryKey path) h)

theorem attempt_load (p : Process) (l : LoaderId) : Attempt p l (p.load l).1 (p.load l).2 := by
  fun_cases load p l with
  | case1 _ q asked => exact .locatePanics asked
  | case2 _ e q asked => exact .notLocated asked
  | case3 _ path q asked key h registered => exact .reused asked registered
  | case4 _ path q asked key registered r opening => exact .openPanics asked registered opening
  | case5 _ path q asked key registered e r opening => exact .notOpened asked registered opening
  | case6 _ path q asked key registered h r opening => exact .opened asked registered opening

/-- An attempt has one end. -/
theorem Attempt.eq_load {o : Outcome Load} (h : Attempt p l o q) : p.load l = (o, q) := by
  cases h <;> simp_all [load]

/-- An attempt leaves loaders, bridges and locks alone. -/
theorem load_leaves (p : Process) (l : LoaderId) :
    (p.load l).2.loaders = p.loaders ∧ (p.load l).2.bridges = p.bridges ∧
      (p.load l).2.held = p.held := by
  have attempt := attempt_load p l
  have heard := heard_locate p (p.loader l).source (p.loader l).library (some l)
  have opened : ∀ {path o q r}, p.locate (p.loader l).source (p.loader l).library (some l) =
      (.ok path, q) → q.openLibrary (p.loader l).source path (some l) = (o, r) →
      r.loaders = p.loaders ∧ r.bridges = p.bridges ∧ r.held = p.held := by
    intro path o q r asked opening
    have asking := (openLibrary_spec q (p.loader l).source path (some l)).1
    rw [asked] at heard
    rw [opening] at asking
    exact ⟨asking.loaders.trans heard.loaders, asking.bridges.trans heard.bridges,
      asking.held.trans heard.held⟩
  rcases load : p.load l with ⟨o, q⟩
  rw [load] at attempt
  dsimp only at attempt ⊢
  cases attempt with
  | locatePanics asked | notLocated asked | reused asked =>
    rw [asked] at heard
    exact ⟨heard.loaders, heard.bridges, heard.held⟩
  | openPanics asked _ opening | notOpened asked _ opening => exact opened asked opening
  | opened asked _ opening =>
    obtain ⟨loaders, bridges, held⟩ := opened asked opening
    exact ⟨loaders, bridges, held⟩

theorem stays_load (p : Process) (l : LoaderId) : Stays p (p.load l).2 := by
  have attempt := attempt_load p l
  have heard := heard_locate p (p.loader l).source (p.loader l).library (some l)
  have opened : ∀ {path o q r}, p.locate (p.loader l).source (p.loader l).library (some l) =
      (.ok path, q) → q.openLibrary (p.loader l).source path (some l) = (o, r) → Stays p r := by
    intro path o q r asked opening
    have stays := stays_openLibrary q (p.loader l).source path (some l)
    rw [asked] at heard
    rw [opening] at stays
    exact heard.stays.trans stays
  rcases load : p.load l with ⟨o, q⟩
  rw [load] at attempt
  dsimp only at attempt ⊢
  cases attempt with
  | locatePanics asked | notLocated asked =>
    rw [asked] at heard
    exact heard.stays
  | reused asked =>
    rw [asked] at heard
    exact heard.stays.trans (heard_note ..).stays
  | openPanics asked _ opening | notOpened asked _ opening => exact opened asked opening
  | opened asked _ opening => exact (opened asked opening).trans (stays_register ..)

/-- A request for a handle takes nothing away. -/
theorem stays_ensureLoaded (p : Process) (l : LoaderId) : Stays p (p.ensureLoaded l).2 := by
  rw [ensureLoaded]
  split
  · exact Stays.refl p
  · have tried := (stays_setState p l .loading).trans (stays_load (p.setState l .loading) l)
    split <;> rename_i load <;> rw [load] at tried
    · exact tried
    · exact (tried.trans (stays_setState ..)).trans (heard_note ..).stays
    · exact ((tried.trans (stays_storeHandle ..)).trans (stays_setState ..)).trans
        (heard_note ..).stays

/-! ## The history of a load -/

/-- What an attempt enters into the history. -/
def attemptEvents (p : Process) (l : LoaderId) : History :=
  match (p.locate (p.loader l).source (p.loader l).library (some l)).1, (p.load l).1 with
  | .ok path, .ok a =>
    if a.opened then [.located l path, .opened l p.host a] else [.located l path]
  | .ok path, _ => [.located l path]
  | _, _ => []

/-- What a request for the handle of a loader enters into the history. -/
def loadEvents (p : Process) (l : LoaderId) : History :=
  match (p.loader l).handle with
  | some _ => []
  | none =>
    let p := p.setState l .loading
    p.attemptEvents l ++
      match (p.load l).1 with
      | .ok a => [.loaded l p.host a]
      | _ => []

/-- What a call through a bridge enters into the history. -/
def callEvents (p : Process) (b : BridgeId) : History :=
  match (p.bridge b).bound with
  | some _ => []
  | none => p.loadEvents (p.bridge b).loader

/-- The host of an attempt is the host before it. -/
theorem host_of_located {path : Path}
    (asked : p.locate (p.loader l).source (p.loader l).library (some l) = (.ok path, q)) :
    q.host = p.host := by
  have heard := heard_locate p (p.loader l).source (p.loader l).library (some l)
  rw [asked] at heard
  exact heard.host

end Process

/-! ## What a load does to the account -/

/-- The account of a process in which nothing is under way: every library that was opened
is registered. -/
structure Balanced (p : Process) (ev : History) : Prop extends Account p ev where
  even : p.libraries.length = ev.opens.length

namespace Balanced

open Process

variable {p q : Process} {ev : History} {l : LoaderId} {a : Load}

theorem start (host : Host) : Balanced (.start host) [] := ⟨Account.start host, rfl⟩

theorem heard (h : Balanced p ev) (hq : Heard p q) : Balanced q ev :=
  ⟨h.toAccount.heard hq, hq.libraries ▸ h.even⟩

theorem setState (h : Balanced p ev) (l : LoaderId) (state : LoadState) :
    Balanced (p.setState l state) ev := ⟨h.toAccount.setState l state, h.even⟩

theorem located (h : Balanced p ev) (l : LoaderId) (path : Path) :
    Balanced p (ev ++ [.located l path]) := ⟨h.toAccount.located l path, by simpa using h.even⟩

/-- A source that does not open a library leaves the account as it is. -/
theorem notOpened (h : Balanced p ev) {s : Source} {path : Path} {owner : Option LoaderId}
    {o : Outcome Handle} (opening : p.openLibrary s path owner = (o, q)) (no : ∀ i, o ≠ .ok i) :
    Balanced q ev := by
  obtain ⟨asked, added⟩ := openLibrary_spec p s path owner
  rw [opening] at asked added
  obtain ⟨_, ok, -⟩ | ⟨-, same⟩ := added
  · exact absurd ok (no _)
  · refine ⟨h.toAccount.frame asked.registry (same ▸ List.prefix_refl _) (fun l => ?_) ?_, ?_⟩
    · rw [loader, asked.loaders, loader]
    · exact Nat.le_of_eq (by rw [asked.loaders])
    · rw [same, h.even]

/-- A library that is opened for a place that is not registered, and then registered. -/
theorem registerOpened (h : Balanced p ev) {s : Source} {path key : Path} {host : Host} {i : Handle}
    (unregistered : p.registered? key = none) (found : Found ev l host path key)
    (opening : p.openLibrary s path (some l) = (.ok i, q)) :
    Balanced (q.register key i) (ev ++ [.opened l host ⟨path, key, i, true⟩]) := by
  obtain ⟨asked, added⟩ := openLibrary_spec p s path (some l)
  rw [opening] at asked added
  dsimp only at asked added
  obtain ⟨table, ok, added⟩ | ⟨no, -⟩ := added
  · obtain rfl : i = p.libraries.length := Outcome.ok.inj ok
    have account : Account q ev := by
      refine h.toAccount.frame asked.registry (added ▸ List.prefix_append ..) (fun l => ?_) ?_
      · rw [loader, asked.loaders, loader]
      · exact Nat.le_of_eq (by rw [asked.loaders])
    have last : q.libraries.length = ev.opens.length + 1 := by
      rw [added, List.length_append, h.even, List.length_singleton]
    refine ⟨account.register (a := ⟨path, key, _, true⟩) last h.even ?_ ?_ found, ?_⟩
    · simp [pathOf, added]
    · rw [Process.registered?, asked.registry, ← Process.registered?, unregistered]
    · simpa [Process.register] using last
  · exact absurd rfl (no i)

/-- **An attempt keeps the account**, whether it succeeds, fails or panics, and enters into
the history what it did. -/
theorem load (h : Balanced p ev) (l : LoaderId) :
    Balanced (p.load l).2 (ev ++ p.attemptEvents l) := by
  have attempt := attempt_load p l
  have heard := heard_locate p (p.loader l).source (p.loader l).library (some l)
  rcases load : p.load l with ⟨o, q⟩
  rw [load] at attempt
  dsimp only at attempt ⊢
  cases attempt with
  | locatePanics asked | notLocated asked =>
    have events : p.attemptEvents l = [] := by simp [attemptEvents, asked]
    rw [asked] at heard
    simpa [events] using h.heard heard
  | @reused path i r asked registered =>
    have events : p.attemptEvents l = [.located l path] := by simp [attemptEvents, asked, load]
    rw [asked] at heard
    exact events ▸ ((h.heard heard).heard (heard_note ..)).located l path
  | @openPanics path r _ asked registered opening =>
    have events : p.attemptEvents l = [.located l path] := by simp [attemptEvents, asked, load]
    rw [asked] at heard
    exact events ▸ ((h.heard heard).located l path).notOpened opening (by simp)
  | @notOpened path e r _ asked registered opening =>
    have events : p.attemptEvents l = [.located l path] := by simp [attemptEvents, asked, load]
    rw [asked] at heard
    exact events ▸ ((h.heard heard).located l path).notOpened opening (by simp)
  | @opened path i r _ asked registered opening =>
    have events : p.attemptEvents l = [.located l path] ++
        [.opened l p.host ⟨path, r.host.registryKey path, i, true⟩] := by
      simp [attemptEvents, asked, load]
    rw [asked] at heard
    have found : Found (ev ++ [.located l path]) l p.host path (r.host.registryKey path) :=
      ⟨List.mem_append_right _ (List.mem_singleton_self _), by rw [heard.host]⟩
    rw [events, ← List.append_assoc]
    exact ((h.heard heard).located l path).registerOpened registered found opening

end Balanced

open Process

/-- What a successful attempt has found: the place is registered with the handle. -/
theorem Balanced.load_found {p q : Process} {ev : History} {l : LoaderId} {a : Load}
    (h : Balanced p ev) (load : p.load l = (.ok a, q)) :
    q.registered? a.key = some a.handle ∧
      Found (ev ++ p.attemptEvents l) l p.host a.path a.key := by
  have balanced := h.load l
  have attempt := attempt_load p l
  rw [load] at attempt balanced
  dsimp only at attempt balanced
  cases attempt with
  | @reused path i r asked registered =>
    have events : p.attemptEvents l = [.located l path] := by simp [attemptEvents, asked, load]
    refine ⟨?_, by simp [events], by rw [host_of_located asked]⟩
    rw [(heard_note r _).registered?, registered]
  | @opened path i r _ asked registered opening =>
    have events : p.attemptEvents l = [.located l path] ++
        [.opened l p.host ⟨path, r.host.registryKey path, i, true⟩] := by
      simp [attemptEvents, asked, load]
    refine ⟨?_, by simp [events], by rw [host_of_located asked]⟩
    exact balanced.registered?_eq_some.mpr ⟨⟨path, _, i, true⟩,
      History.mem_opens.mpr ⟨l, p.host, by simp [events]⟩, by simp, rfl⟩

namespace Balanced

variable {p q : Process} {ev : History} {l : LoaderId} {a : Load}

/-- A loader without a handle gets the one that is registered for its place. -/
theorem finishLoaded (h : Balanced p ev) {host : Host} (hl : l < p.loaders.length)
    (none : (p.loader l).handle = none) (registered : p.registered? a.key = some a.handle)
    (found : Found ev l host a.path a.key) :
    Balanced (p.finishLoaded l a).2 (ev ++ [.loaded l host a]) := by
  have stored : Balanced (p.storeHandle l a.handle) (ev ++ [.loaded l host a]) :=
    ⟨h.toAccount.storeHandle hl none registered found, by
      simpa [Process.storeHandle, updateLoader] using h.even⟩
  exact (stored.setState l .loaded).heard (heard_note ..)

/-- **A request for the handle of a loader keeps the account**, whether it succeeds,
fails or panics, and enters into the history what it did. -/
theorem ensureLoaded (h : Balanced p ev) (hl : l < p.loaders.length) :
    Balanced (p.ensureLoaded l).2 (ev ++ p.loadEvents l) := by
  rcases none : (p.loader l).handle with _ | i
  swap
  · simpa [Process.ensureLoaded, loadEvents, none] using h
  rw [Process.ensureLoaded, loadEvents, none]
  dsimp only
  have start := h.setState l .loading
  have without : ((p.setState l .loading).loader l).handle = .none := by rw [handle_setState, none]
  have length : l < (p.setState l .loading).loaders.length := by
    rwa [(stays_setState p l .loading).loaders_eq]
  generalize p.setState l .loading = p at start without length ⊢
  have attempted := start.load l
  have loaders := (load_leaves p l).1
  rcases load : p.load l with ⟨o, q⟩
  rw [load] at attempted loaders
  cases o with
  | panic => simpa using attempted
  | error e =>
    rw [List.append_nil]
    exact (attempted.setState l .failed).heard (heard_note ..)
  | ok a =>
    obtain ⟨registered, found⟩ := start.load_found load
    rw [← List.append_assoc]
    refine attempted.finishLoaded (loaders ▸ length) ?_ registered found
    rw [loader, loaders, ← loader, without]

/-- A bridge that has its bound function loads nothing. -/
theorem resolved (h : Balanced p ev) {b : BridgeId} (hb : (p.bridge b).loader < p.loaders.length) :
    Balanced (p.resolved b).2 (ev ++ p.callEvents b) := by
  rcases none : (p.bridge b).bound with _ | r
  swap
  · simpa [Process.resolved, callEvents, none] using h
  have loaded := h.ensureLoaded hb
  simp only [Process.resolved, callEvents, none]
  rcases load : p.ensureLoaded (p.bridge b).loader with ⟨o, q⟩
  rw [load] at loaded
  cases o with
  | panic => exact loaded
  | error e => exact loaded
  | ok i =>
    have bound := loaded.heard (heard_bind q b i)
    dsimp only
    rcases bind : q.bind b i with ⟨o, r⟩
    rw [bind] at bound
    cases o with
    | panic => exact bound
    | error e => exact bound
    | ok f =>
      refine ⟨bound.toAccount.frame rfl (List.prefix_refl _) (fun _ => rfl) ?_, bound.even⟩
      exact (stays_storeSymbol r b f).loaders

/-- **A call through a bridge keeps the account**, wherever it ends. -/
theorem call (h : Balanced p ev) {b : BridgeId} (hb : (p.bridge b).loader < p.loaders.length)
    (text : String) : Balanced (p.call b text).2 (ev ++ p.callEvents b) := by
  have resolved := h.resolved hb
  rw [Process.call]
  rcases resolve : p.resolved b with ⟨o, q⟩
  rw [resolve] at resolved
  cases o with
  | panic => exact resolved
  | error e => exact resolved
  | ok r => exact resolved.heard (heard_invoke q r text)

end Balanced
end Linkage
