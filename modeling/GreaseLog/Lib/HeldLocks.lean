import Mathlib.Data.List.Basic

/- What one thread does with locks that are not reentrant: to take one that it
   holds is to wait for itself. -/
namespace HeldLocks
variable {Lock Act : Type}

inductive Event (Lock Act : Type) where
  | lock (l : Lock)
  | unlock (l : Lock)
  | act (a : Act)
  deriving DecidableEq

def Event.act? : Event Lock Act → Option Act
  | .lock _ => none
  | .unlock _ => none
  | .act a => some a

def acts (events : List (Event Lock Act)) : List Act := events.filterMap Event.act?

@[simp] theorem acts_append (first second : List (Event Lock Act)) :
    acts (first ++ second) = acts first ++ acts second := List.filterMap_append

variable [DecidableEq Lock]

/-- The locks held in the end; none if the thread waits for itself. -/
def after : List Lock → List (Event Lock Act) → Option (List Lock)
  | held, [] => some held
  | held, .lock l :: rest => if l ∈ held then none else after (l :: held) rest
  | held, .unlock l :: rest => after (held.erase l) rest
  | held, .act _ :: rest => after held rest

def Balanced (events : List (Event Lock Act)) : Prop := after [] events = some []

theorem after_append (held : List Lock) (first second : List (Event Lock Act)) :
    after held (first ++ second) = (after held first).bind fun held' => after held' second := by
  induction first generalizing held with
  | nil => rfl
  | cons e rest ih =>
    cases e with
    | lock l =>
      simp only [List.cons_append, after]
      split
      · rfl
      · exact ih _
    | unlock l => exact ih _
    | act a => exact ih _

theorem balanced_nil : Balanced ([] : List (Event Lock Act)) := rfl

theorem Balanced.append {first second : List (Event Lock Act)} (one : Balanced first)
    (other : Balanced second) : Balanced (first ++ second) := by
  unfold Balanced at *
  rw [after_append, one]
  exact other

theorem balanced_lock (l : Lock) (a : Act) : Balanced [.lock l, .act a, .unlock l] := by
  simp [Balanced, after]

theorem balanced_touch (l : Lock) : Balanced [(.lock l : Event Lock Act), .unlock l] := by
  simp [Balanced, after]

theorem balanced_act (a : Act) {rest : List (Event Lock Act)} (others : Balanced rest) :
    Balanced (.act a :: rest) := others

end HeldLocks
