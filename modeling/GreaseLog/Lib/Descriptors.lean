import Mathlib.Data.List.Count

/- A table of descriptors. What is opened gets the lowest number that is free. -/

abbrev Descriptors (Holder : Type) := List (Option Holder)

namespace Descriptors
variable {Holder : Type}

def holder (fds : Descriptors Holder) (fd : Nat) : Option Holder := fds[fd]?.join

/-- The table with one more, and its number. -/
def openLowest : Descriptors Holder → Holder → Descriptors Holder × Nat
  | [], h => ([some h], 0)
  | none :: rest, h => (some h :: rest, 0)
  | some g :: rest, h => (some g :: (openLowest rest h).1, (openLowest rest h).2 + 1)

def close (fds : Descriptors Holder) (fd : Nat) : Descriptors Holder := fds.set fd none

def count (kind : Holder → Bool) (fds : Descriptors Holder) : Nat := fds.countP (·.any kind)

theorem open_free (fds : Descriptors Holder) (h : Holder) : fds.holder (fds.openLowest h).2 = none := by
  induction fds with
  | nil => rfl
  | cons slot rest ih =>
    cases slot with
    | none => rfl
    | some g => exact ih

theorem holder_opened (fds : Descriptors Holder) (h : Holder) :
    (fds.openLowest h).1.holder (fds.openLowest h).2 = some h := by
  induction fds with
  | nil => rfl
  | cons slot rest ih =>
    cases slot with
    | none => rfl
    | some g => exact ih

theorem holder_open_other (fds : Descriptors Holder) (h : Holder) {fd : Nat}
    (other : fd ≠ (fds.openLowest h).2) : (fds.openLowest h).1.holder fd = fds.holder fd := by
  induction fds generalizing fd with
  | nil =>
    cases fd with
    | zero => exact absurd rfl other
    | succ fd => rfl
  | cons slot rest ih =>
    cases slot with
    | none =>
      cases fd with
      | zero => exact absurd rfl other
      | succ fd => rfl
    | some g =>
      cases fd with
      | zero => rfl
      | succ fd => exact ih fun same => other (congrArg Nat.succ same)

theorem holder_closed (fds : Descriptors Holder) (fd : Nat) : (fds.close fd).holder fd = none := by
  unfold holder close
  rw [List.getElem?_set_self']
  cases fds[fd]? <;> rfl

theorem holder_close_other (fds : Descriptors Holder) {fd other : Nat} (different : other ≠ fd) :
    (fds.close fd).holder other = fds.holder other := by
  unfold holder close
  rw [List.getElem?_set_ne (Ne.symm different)]

theorem holder_open {fds : Descriptors Holder} {h g : Holder} {fd : Nat}
    (holds : (fds.openLowest h).1.holder fd = some g) :
    fd = (fds.openLowest h).2 ∧ g = h ∨ fds.holder fd = some g := by
  by_cases new : fd = (fds.openLowest h).2
  · rw [new, holder_opened] at holds
    exact Or.inl ⟨new, (Option.some.inj holds).symm⟩
  · rw [holder_open_other fds h new] at holds
    exact Or.inr holds

theorem holder_close {fds : Descriptors Holder} {g : Holder} {closed fd : Nat}
    (holds : (fds.close closed).holder fd = some g) : fds.holder fd = some g := by
  by_cases same : fd = closed
  · rw [same, holder_closed] at holds
    cases holds
  · rwa [holder_close_other fds same] at holds

theorem holder_open_iff {fds : Descriptors Holder} {h g : Holder} (other : g ≠ h) (fd : Nat) :
    (fds.openLowest h).1.holder fd = some g ↔ fds.holder fd = some g := by
  constructor
  · intro holds
    rcases holder_open holds with ⟨_, is⟩ | before
    · exact absurd is other
    · exact before
  · intro before
    have old : fd ≠ (fds.openLowest h).2 := by
      rintro rfl
      rw [open_free] at before
      cases before
    exact (holder_open_other fds h old).trans before

theorem holder_close_iff {fds : Descriptors Holder} {g : Holder} {closed : Nat}
    (other : fds.holder closed ≠ some g) (fd : Nat) :
    (fds.close closed).holder fd = some g ↔ fds.holder fd = some g := by
  refine ⟨holder_close, fun before => ?_⟩
  have apart : fd ≠ closed := by
    rintro rfl
    exact other before
  exact (holder_close_other fds apart).trans before

theorem count_open (kind : Holder → Bool) (fds : Descriptors Holder) (h : Holder) :
    (fds.openLowest h).1.count kind = fds.count kind + (kind h).toNat := by
  induction fds with
  | nil => cases of : kind h <;> simp [openLowest, count, of]
  | cons slot rest ih =>
    cases slot with
    | none => cases of : kind h <;> simp [openLowest, count, of]
    | some g =>
      have here : ∀ fds : Descriptors Holder, count kind (some g :: fds) = count kind fds + (kind g).toNat := by
        intro fds
        cases of : kind g <;> simp [count, of]
      rw [openLowest, here, here, ih]
      omega

theorem count_close {k : Holder → Bool} {fds : Descriptors Holder} {fd : Nat} {g : Holder}
    (holds : fds.holder fd = some g) : (fds.close fd).count k + (k g).toNat = fds.count k := by
  induction fds generalizing fd with
  | nil => cases holds
  | cons slot rest ih =>
    cases fd with
    | zero =>
      obtain rfl : slot = some g := holds
      cases of : k g <;> simp [close, count, of]
    | succ fd =>
      have later := ih holds
      have here : ∀ fds : Descriptors Holder,
          count k (slot :: fds) = count k fds + (slot.any k).toNat := by
        intro fds
        cases of : slot.any k <;> simp [count, of]
      have steps : close (slot :: rest) (fd + 1) = slot :: close rest fd := rfl
      rw [steps, here, here]
      omega

end Descriptors
