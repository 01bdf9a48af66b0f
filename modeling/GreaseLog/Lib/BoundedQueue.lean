import Mathlib.Data.List.Basic

/- A first-in first-out queue that never holds more than its capacity. -/

structure BoundedQueue (α : Type) (capacity : Nat) where
  items : List α
  bounded : items.length ≤ capacity
  deriving DecidableEq

namespace BoundedQueue
variable {α : Type} {capacity : Nat}

@[ext] theorem ext {q r : BoundedQueue α capacity} (h : q.items = r.items) : q = r := by
  cases q; cases r
  simp_all

def empty : BoundedQueue α capacity := ⟨[], Nat.zero_le _⟩

def remaining (q : BoundedQueue α capacity) : Nat := q.items.length

abbrev HasRoom (q : BoundedQueue α capacity) : Prop := q.items.length < capacity

def addIfRoom (q : BoundedQueue α capacity) (a : α) : BoundedQueue α capacity × Bool :=
  if h : q.HasRoom then (⟨q.items ++ [a], by rw [List.length_append]; exact h⟩, true) else (q, false)

def remove (q : BoundedQueue α capacity) : Option (α × BoundedQueue α capacity) :=
  match h : q.items with
  | [] => none
  | a :: rest => some (a, ⟨rest, by have := q.bounded; simp [h] at this; omega⟩)

@[simp] theorem empty_items : (empty : BoundedQueue α capacity).items = [] := rfl

@[simp] theorem addIfRoom_room {q : BoundedQueue α capacity} (a : α) (room : q.HasRoom) :
    (q.addIfRoom a).2 = true ∧ (q.addIfRoom a).1.items = q.items ++ [a] := by
  simp [addIfRoom, room]

@[simp] theorem addIfRoom_full {q : BoundedQueue α capacity} (a : α) (full : ¬ q.HasRoom) :
    q.addIfRoom a = (q, false) := by
  simp [addIfRoom, full]

theorem addIfRoom_cases (q : BoundedQueue α capacity) (a : α) :
    (q.HasRoom ∧ (q.addIfRoom a).2 = true ∧ (q.addIfRoom a).1.items = q.items ++ [a]) ∨
      (¬ q.HasRoom ∧ q.addIfRoom a = (q, false)) := by
  by_cases room : q.HasRoom
  · exact Or.inl ⟨room, addIfRoom_room a room⟩
  · exact Or.inr ⟨room, addIfRoom_full a room⟩

theorem remove_none_iff (q : BoundedQueue α capacity) : q.remove = none ↔ q.items = [] := by
  unfold remove
  split <;> simp_all

theorem remove_some {q r : BoundedQueue α capacity} {a : α} (h : q.remove = some (a, r)) :
    q.items = a :: r.items := by
  unfold remove at h
  split at h
  · contradiction
  · rename_i first rest eq
    obtain ⟨rfl, rfl⟩ := Prod.mk.inj (Option.some.inj h)
    exact eq

theorem remove_cons {q : BoundedQueue α capacity} {a : α} {rest : List α}
    (h : q.items = a :: rest) : ∃ r, q.remove = some (a, r) ∧ r.items = rest := by
  unfold remove
  split
  · simp_all
  · rename_i first others eq
    obtain ⟨rfl, rfl⟩ := List.cons.inj (eq.symm.trans h)
    exact ⟨_, rfl, rfl⟩

end BoundedQueue
