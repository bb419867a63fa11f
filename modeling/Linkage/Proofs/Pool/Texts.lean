import Linkage.Proofs.Bridge.Stages
import Linkage.Proofs.Pool.Waiting
import Linkage.Proofs.Process.Quiet

/-!
# Threads and the texts of their calls

A thread looks at its text when it copies it, and that is the last stage but one.  So two pools
that differ in the text of one call go on alike: `Pool.TextApart` relates what they come to, and
each stage of the one is a stage of the other or one of those behind the copying, which do
nothing but report (`TextApart.step`).  The two need not take the same number of stages there:
a text with a U+0000 is refused where another one is copied and measured.

The function is called with a copy, and a text with a U+0000 has none, so no thread comes to the
call with such a text (`Run.copied`).
-/

namespace Linkage

open Process

/-! ## One thread -/

namespace Task

variable {self : ThreadId} {p q : Process} {goal : Goal} {b : BridgeId} {t u : String}
  {r : SymbolReference} {s s' : Stage}

/-- The stages that do not look at the text of a call. -/
def Blind (s : Stage) : Prop := (∀ r, s ≠ .copy r) ∧ ∀ r argument, s ≠ .invoke r argument

/-- A stage that does not look at the text goes on the same with another one. -/
theorem advance_text (blind : Blind s) :
    advance self p (.call b t) s = advance self p (.call b u) s := by
  cases s with
  | copy r => exact absurd rfl (blind.1 r)
  | invoke r argument => exact absurd rfl (blind.2 r argument)
  | readSymbol =>
    simp only [Task.advance, callOf]
    cases (p.bridge b).bound <;> rfl
  | _ => rfl

/-- Where the call of a bound function can be, from the copying of its text to its end. -/
inductive Measuring (r : SymbolReference) (t : String) : Stage → Prop
  | copy : Measuring r t (.copy r)
  | invoke {argument : Argument} (copied : Argument.ofText t = .ok argument) :
      Measuring r t (.invoke r argument)
  | done : Measuring r t (.done (answerOf (r.function.outcome r.name t)))

/-- A measuring thread goes on measuring, and does nothing but report. -/
theorem Measuring.advance (h : Measuring r t s)
    (ha : Task.advance self p (.call b t) s = some (q, s')) :
    Measuring r t s' ∧ q.quiet = p.quiet := by
  cases h with
  | copy =>
    simp only [Task.advance, callOf] at ha
    split at ha
    · rename_i offset refused
      obtain ⟨rfl, rfl⟩ := Prod.mk.inj (Option.some.inj ha)
      have outcome : answerOf (r.function.outcome r.name t) = .error (.marshal offset) := by
        rw [Function.outcome, refused, answerOf]
      exact ⟨outcome ▸ .done, rfl⟩
    · rename_i argument copied
      obtain ⟨rfl, rfl⟩ := Prod.mk.inj (Option.some.inj ha)
      exact ⟨.invoke copied, rfl⟩
  | @invoke argument copied =>
    rw [advance_invoke] at ha
    obtain ⟨rfl, rfl⟩ := Prod.mk.inj (Option.some.inj ha)
    have outcome : (p.classify r t (r.function.invoke argument.buffer)).1 =
        r.function.outcome r.name t := by
      rw [← outcome_invoke p r t, Process.invoke, copied]
    exact ⟨outcome ▸ .done, quiet_classify ..⟩
  | done => exact absurd ha (by simp [Task.advance])

/-- A measuring thread can go on to its end. -/
theorem Measuring.next (h : Measuring r t s) (self : ThreadId) (p : Process) (b : BridgeId) :
    (∃ o, s = .done o) ∨ ∃ q s', Task.advance self p (.call b t) s = some (q, s') := by
  cases h with
  | copy =>
    refine Or.inr ?_
    simp only [Task.advance, callOf]
    cases Argument.ofText t <;> exact ⟨_, _, rfl⟩
  | invoke => exact Or.inr ⟨_, _, advance_invoke ..⟩
  | done => exact Or.inl ⟨_, rfl⟩

/-- A text that is copied has no U+0000. -/
theorem not_zero_of_copied {argument : Argument} (copied : Argument.ofText t = .ok argument) :
    '\x00' ∉ t.toList :=
  Argument.exists_ofText_eq_ok.mp ⟨argument, copied⟩

/-- Nothing but the copying of a text leads to the call with the copy. -/
theorem eq_copy_of_invoke {argument : Argument}
    (ha : Task.advance self p goal s = some (q, .invoke r argument)) :
    s = .copy r ∧ Argument.ofText (callOf goal).2 = .ok argument := by
  have loaded : ∀ o, afterLoading goal o ≠ .invoke r argument := by
    rintro (_ | _ | _) <;> cases goal <;> simp [afterLoading]
  have bound : ∀ o, afterBinding o ≠ .invoke r argument := by
    rintro (_ | _ | _) <;> simp [afterBinding]
  cases s <;> simp only [Task.advance] at ha
  all_goals grind [Option.map_eq_some_iff]

/-- What a function answers is classified without the process. -/
theorem outcome_classify (p q : Process) (r : SymbolReference) (t : String) (raw : Int64) :
    (q.classify r t raw).1 = (p.classify r t raw).1 := by
  unfold classify
  split <;> rfl

/-- A thread goes on the same where only reports of calls are others. -/
theorem advance_of_quiet {p' : Process} (same : q.quiet = p.quiet)
    (ha : Task.advance self p goal s = some (p', s')) :
    ∃ q', Task.advance self q goal s = some (q', s') ∧ q'.quiet = p'.quiet := by
  by_cases calls : ∃ r argument, s = .invoke r argument
  · obtain ⟨r, argument, rfl⟩ := calls
    rw [advance_invoke] at ha
    obtain ⟨rfl, rfl⟩ := Prod.mk.inj (Option.some.inj ha)
    rw [outcome_classify q p]
    exact ⟨_, advance_invoke .., by rw [quiet_classify, quiet_classify, same]⟩
  · have silent : ∀ r argument, s ≠ .invoke r argument :=
      fun r argument hs => calls ⟨r, argument, hs⟩
    have quiet := @advance_quiet self q goal s silent
    rw [same, advance_quiet silent, ha] at quiet
    obtain ⟨⟨q', s''⟩, hq, he⟩ := Option.map_eq_some_iff.mp quiet.symm
    obtain ⟨hp, rfl⟩ := Prod.mk.inj he
    exact ⟨q', hq, hp⟩

/-- Where two calls of a bridge with different texts can be together: at one stage that does not
look at the text, or both measuring with one function. -/
inductive Abreast (t u : String) : Stage → Stage → Prop
  | blind {s : Stage} (blind : Blind s) : Abreast t u s s
  | measuring {r : SymbolReference} {s s' : Stage} (h : Measuring r t s) (h' : Measuring r u s') :
      Abreast t u s s'

theorem abreast_of_blind (blind : Blind s) (ha : Task.advance self p goal s = some (q, s')) :
    Abreast t u s' s' := by
  by_cases blind' : Blind s'
  · exact .blind blind'
  · by_cases copies : ∃ r, s' = .copy r
    · obtain ⟨r, rfl⟩ := copies
      exact .measuring .copy .copy
    · refine absurd ⟨fun r hs => copies ⟨r, hs⟩, fun r argument hs => ?_⟩ blind'
      subst hs
      exact blind.1 r (eq_copy_of_invoke ha).1

end Task

/-! ## Two pools -/

namespace Pool

variable {x y z : Pool} {i j : ThreadId} {b : BridgeId} {t u : String} {moments : List Moment}

/-- Two pools that have come the same way but for the text of one call. -/
structure TextApart (i : ThreadId) (b : BridgeId) (t u : String) (x y : Pool) : Prop where
  process : y.process.quiet = x.process.quiet
  others : ∀ j, j ≠ i → y.tasks[j]? = x.tasks[j]?
  call : ∃ s s', x.tasks[i]? = some ⟨.call b t, s⟩ ∧ y.tasks[i]? = some ⟨.call b u, s'⟩ ∧
    Task.Abreast t u s s'

/-- What pools come to by stages of their threads. -/
abbrev Steps : Pool → Pool → Prop := Relation.ReflTransGen Step

/-- A stage of one pool is one of the other, or none if the thread is measuring. -/
theorem TextApart.step (h : TextApart i b t u x y) (hx : x.step? j = some z) :
    ∃ w, Steps y w ∧ TextApart i b t u z w := by
  obtain ⟨goal, s, p, s', ht, ha, rfl⟩ := step?_eq_some.mp hx
  obtain ⟨c, c', hi, hi', abreast⟩ := h.call
  have hlt := (List.getElem?_eq_some_iff.mp ht).1
  by_cases hj : j = i
  · subst hj
    obtain ⟨rfl, rfl⟩ := Task.mk.inj (Option.some.inj (ht.symm.trans hi))
    cases abreast with
    | blind blind =>
      obtain ⟨q, hq, quiet⟩ := Task.advance_of_quiet h.process ha
      rw [Task.advance_text blind] at hq
      have step := step?_eq_some.mpr ⟨_, _, _, _, hi', hq, rfl⟩
      refine ⟨_, .single ⟨_, step⟩, quiet, fun k hk => ?_, s', s', ?_, ?_,
        Task.abreast_of_blind blind ha⟩
      · rw [List.getElem?_set_ne (Ne.symm hk), List.getElem?_set_ne (Ne.symm hk), h.others k hk]
      · exact List.getElem?_set_self hlt
      · exact List.getElem?_set_self (List.getElem?_eq_some_iff.mp hi').1
    | measuring measuring measuring' =>
      obtain ⟨goes, quiet⟩ := measuring.advance ha
      refine ⟨_, .refl, h.process.trans quiet.symm, fun k hk => ?_, s', c', ?_, hi',
        .measuring goes measuring'⟩
      · rw [List.getElem?_set_ne (Ne.symm hk), h.others k hk]
      · exact List.getElem?_set_self hlt
  · obtain ⟨q, hq, quiet⟩ := Task.advance_of_quiet h.process ha
    have ht' := (h.others j hj).trans ht
    have hlt' := (List.getElem?_eq_some_iff.mp ht').1
    have step := step?_eq_some.mpr ⟨_, _, _, _, ht', hq, rfl⟩
    refine ⟨_, .single ⟨_, step⟩, quiet, fun k hk => ?_, c, c', ?_, ?_, abreast⟩
    · by_cases hkj : k = j
      · subst hkj
        rw [List.getElem?_set_self hlt, List.getElem?_set_self hlt']
      · rw [List.getElem?_set_ne (Ne.symm hkj), List.getElem?_set_ne (Ne.symm hkj), h.others k hk]
    · rw [List.getElem?_set_ne hj, hi]
    · rw [List.getElem?_set_ne hj, hi']

/-- **What threads come to with one text they come to with another**, but for the reports of
calls and the end of the call that has the text. -/
theorem TextApart.steps (h : TextApart i b t u x y) (steps : Steps x z) :
    ∃ w, Steps y w ∧ TextApart i b t u z w := by
  induction steps with
  | refl => exact ⟨y, .refl, h⟩
  | tail _ next ih =>
    obtain ⟨j, hx⟩ := next
    obtain ⟨w, before, apart⟩ := ih
    obtain ⟨w', behind, apart'⟩ := apart.step hx
    exact ⟨w', before.trans behind, apart'⟩

/-- A thread that is measuring can be let go on to its end, and the pools stay as far apart. -/
theorem TextApart.ends_of_measuring (h : TextApart i b t u x y) {s s' : Stage} {r : SymbolReference}
    (hi : x.tasks[i]? = some ⟨.call b t, s⟩) (measuring : Task.Measuring r t s)
    (hi' : y.tasks[i]? = some ⟨.call b u, s'⟩) (measuring' : Task.Measuring r u s') :
    ∃ w o, Steps y w ∧ TextApart i b t u x w ∧ w.tasks[i]? = some ⟨.call b u, .done o⟩ := by
  -- on the number of stages that remain
  induction hn : s'.remaining using Nat.strongRecOn generalizing y s' with
  | ind n ih =>
    rcases measuring'.next i y.process b with ⟨o, rfl⟩ | ⟨q, s'', ha⟩
    · exact ⟨y, o, .refl, h, hi'⟩
    · obtain ⟨goes, quiet⟩ := measuring'.advance ha
      have here := List.getElem?_set_self (List.getElem?_eq_some_iff.mp hi').1
        (a := (⟨.call b u, s''⟩ : Task))
      have next : y.Step ⟨q, y.tasks.set i ⟨.call b u, s''⟩⟩ :=
        ⟨i, step?_eq_some.mpr ⟨_, _, _, _, hi', ha, rfl⟩⟩
      have apart : TextApart i b t u x ⟨q, y.tasks.set i ⟨.call b u, s''⟩⟩ := by
        refine ⟨quiet.trans h.process, fun k hk => ?_, s, s'', hi, here, .measuring measuring goes⟩
        rw [List.getElem?_set_ne (Ne.symm hk), h.others k hk]
      have fewer := hn ▸ Task.advance_remaining ha
      obtain ⟨w, o, behind, ends⟩ := ih _ fewer apart here goes rfl
      exact ⟨w, o, .head next behind, ends⟩

/-- Where a call has ended in one pool, it can be let go on to its end in the other. -/
theorem TextApart.ends (h : TextApart i b t u x y) {o : Outcome Answer}
    (ended : x.tasks[i]? = some ⟨.call b t, .done o⟩) :
    ∃ w o', Steps y w ∧ TextApart i b t u x w ∧ w.tasks[i]? = some ⟨.call b u, .done o'⟩ := by
  obtain ⟨c, c', hi, hi', abreast⟩ := h.call
  cases abreast with
  | blind =>
    obtain ⟨-, rfl⟩ := Task.mk.inj (Option.some.inj (ended.symm.trans hi))
    exact ⟨y, o, .refl, h, hi'⟩
  | measuring measuring measuring' => exact h.ends_of_measuring hi measuring hi' measuring'

/-- Pools that start with one text and with another. -/
theorem textApart_start (p : Process) {goals : List Goal} (hi : goals[i]? = some (.call b t))
    (u : String) : TextApart i b t u ⟨p, goals.map Task.ofGoal⟩
      ⟨p, (goals.set i (.call b u)).map Task.ofGoal⟩ := by
  have hlt := (List.getElem?_eq_some_iff.mp hi).1
  refine ⟨rfl, fun j hj => ?_, .readSymbol, .readSymbol, ?_, ?_, .blind ⟨?_, ?_⟩⟩
  · rw [List.getElem?_map, List.getElem?_map, List.getElem?_set_ne (Ne.symm hj)]
  · rw [List.getElem?_map, hi]
    rfl
  · rw [List.getElem?_map, List.getElem?_set_self hlt]
    rfl
  · simp
  · simp

/-- **No function is called with anything but a copy of the text**, so none is called for a text
with a U+0000. -/
theorem copied_of_steps {p : Process} {goals : List Goal}
    (steps : Steps ⟨p, goals.map Task.ofGoal⟩ z) {task : Task} (ht : task ∈ z.tasks)
    {r : SymbolReference} {argument : Argument} (calls : task.stage = .invoke r argument) :
    Argument.ofText (Task.callOf task.goal).2 = .ok argument := by
  induction steps generalizing task r argument with
  | refl =>
    obtain ⟨goal, -, rfl⟩ := List.mem_map.mp ht
    cases goal <;> cases calls
  | tail _ next ih =>
    obtain ⟨j, hj⟩ := next
    obtain ⟨goal, s, q, s', hj, ha, rfl⟩ := step?_eq_some.mp hj
    rcases List.mem_or_eq_of_mem_set ht with other | rfl
    · exact ih other calls
    · obtain rfl : s' = .invoke r argument := calls
      exact (Task.eq_copy_of_invoke ha).2

end Pool
end Linkage
