import Mathlib.Data.List.Basic

/- The threads at a condition variable: asleep, or woken and not yet back with the
   mutex. Units of a resource are covered when each of them has a woken thread, or
   nobody is asleep. -/

structure CondVar (W : Type) where
  asleep : List W := []
  woken : List W := []

namespace CondVar
variable {W : Type} {c : CondVar W} {m n i : Nat} {w : W}

def wait (c : CondVar W) (w : W) : CondVar W := { c with asleep := c.asleep ++ [w] }

def wake (c : CondVar W) (i : Nat) : CondVar W :=
  match c.asleep[i]? with
  | some w => ⟨c.asleep.eraseIdx i, c.woken ++ [w]⟩
  | none => c

/-- A signal wakes a thread if one is asleep; `which` decides among them. -/
def signal (c : CondVar W) (which : Nat) : CondVar W := c.wake (which % c.asleep.length)

def broadcast (c : CondVar W) : CondVar W := ⟨[], c.woken ++ c.asleep⟩

def resume (c : CondVar W) (i : Nat) : CondVar W := { c with woken := c.woken.eraseIdx i }

/-- A wait that times out: the thread is assumed to take no signal with it, which POSIX does not
    promise. -/
def giveUp (c : CondVar W) (i : Nat) : CondVar W := { c with asleep := c.asleep.eraseIdx i }

def Covered (c : CondVar W) (n : Nat) : Prop := c.asleep = [] ∨ n ≤ c.woken.length

instance (c : CondVar W) (n : Nat) : Decidable (c.Covered n) :=
  decidable_of_iff (c.asleep.isEmpty ∨ n ≤ c.woken.length) (by rw [Covered, List.isEmpty_iff])

theorem covered_none (c : CondVar W) : c.Covered 0 := Or.inr (Nat.zero_le _)

theorem Covered.fewer (covered : c.Covered n) (fewer : m ≤ n) : c.Covered m := by
  rcases covered with nobody | enough
  · exact Or.inl nobody
  · exact Or.inr (Nat.le_trans fewer enough)

theorem Covered.wake (covered : c.Covered n) (i : Nat) : (c.wake i).Covered n := by
  unfold CondVar.wake
  cases asleep : c.asleep[i]? with
  | none => exact covered
  | some w =>
    rcases covered with nobody | enough
    · rw [nobody] at asleep
      cases asleep
    · right
      rw [List.length_append]
      exact Nat.le_add_right_of_le enough

theorem Covered.signal (covered : c.Covered n) (which : Nat) : (c.signal which).Covered (n + 1) := by
  unfold CondVar.signal CondVar.wake
  rcases covered with nobody | enough
  · rw [nobody]
    exact Or.inl nobody
  · cases asleep : c.asleep[which % c.asleep.length]? with
    | some w =>
      right
      rw [List.length_append]
      exact Nat.succ_le_succ enough
    | none =>
      left
      have outside := List.getElem?_eq_none_iff.mp asleep
      by_contra somebody
      have positive := List.length_pos_of_ne_nil somebody
      exact absurd (Nat.mod_lt which positive) (Nat.not_lt.mpr outside)

theorem covered_broadcast (c : CondVar W) (n : Nat) : c.broadcast.Covered n := Or.inl rfl

theorem Covered.resume (covered : c.Covered (n + 1)) (inside : i < c.woken.length) :
    (c.resume i).Covered n := by
  rcases covered with nobody | enough
  · exact Or.inl nobody
  · right
    have length := List.length_eraseIdx_of_lt inside
    have back : (c.resume i).woken.length = c.woken.length - 1 := length
    omega

theorem Covered.giveUp (covered : c.Covered n) (i : Nat) : (c.giveUp i).Covered n := by
  rcases covered with nobody | enough
  · left
    show c.asleep.eraseIdx i = []
    rw [nobody]
    rfl
  · exact Or.inr enough

end CondVar
