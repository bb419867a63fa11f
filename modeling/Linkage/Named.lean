/-!
# Things under names

A list of things in which each name stands at most once.  Putting a thing under a
name takes away what was there.
-/

namespace Linkage

/-- Things under names. -/
abbrev Named (α : Type) := List (String × α)

namespace Named

variable {α : Type}

/-- The thing under a name. -/
def get? (things : Named α) (name : String) : Option α :=
  (things.find? fun e => e.1 = name).map (·.2)

/-- Takes away what is under a name. -/
def erase (things : Named α) (name : String) : Named α :=
  things.filter fun e => e.1 ≠ name

/-- Puts a thing under a name, in place of what is there. -/
def put (things : Named α) (name : String) (a : α) : Named α :=
  things.erase name ++ [(name, a)]

@[simp] theorem get?_put_self (things : Named α) (name : String) (a : α) :
    (things.put name a).get? name = some a := by
  have h : (things.erase name).find? (fun e => e.1 = name) = none := by
    simp [erase]
  simp [get?, put, List.find?_append, h]

theorem get?_erase_of_ne (things : Named α) {name other : String} (h : other ≠ name) :
    (things.erase name).get? other = things.get? other := by
  rw [get?, erase, List.find?_filter, get?]
  congr 2
  funext e
  by_cases he : e.1 = other
  · simp [he, h]
  · simp [he]

theorem get?_put_of_ne (things : Named α) {name other : String} (h : other ≠ name) (a : α) :
    (things.put name a).get? other = things.get? other := by
  have last : [(name, a)].find? (fun e => e.1 = other) = none := by simp [h.symm]
  rw [get?, put, List.find?_append, last, Option.or_none, ← get?, get?_erase_of_ne things h]

theorem mem_of_get? {things : Named α} {name : String} {a : α} (h : things.get? name = some a) :
    (name, a) ∈ things := by
  obtain ⟨e, he, rfl⟩ := Option.map_eq_some_iff.mp h
  have hn : e.1 = name := by simpa using List.find?_some he
  exact hn ▸ List.mem_of_find?_eq_some he

theorem mem_of_mem_erase {things : Named α} {name : String} {e : String × α}
    (h : e ∈ things.erase name) : e ∈ things := (List.mem_filter.mp h).1

theorem mem_of_mem_put {things : Named α} {name : String} {a : α} {e : String × α}
    (h : e ∈ things.put name a) : e ∈ things ∨ e = (name, a) := by
  rcases List.mem_append.mp h with h | h
  · exact Or.inl (mem_of_mem_erase h)
  · exact Or.inr (List.mem_singleton.mp h)

end Named
end Linkage
