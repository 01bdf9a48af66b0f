import Mathlib.Data.List.Nodup
import Mathlib.Logic.Function.Basic

/- Items numbered as they are issued, each of which has one holder until it is
   settled. -/

structure Serials (Holder : Type) where
  issued : Nat := 0
  holds : Holder → Option Nat := fun _ => none
  /-- In the order they were settled in. -/
  settled : List Nat := []

namespace Serials
variable {Holder : Type} {s : Serials Holder} {holders : List Holder} {h : Holder} {k : Nat}

def held (s : Serials Holder) (holders : List Holder) : List Nat := holders.filterMap s.holds

/-- Every item issued has been settled once, or has one holder. -/
def Conserved (s : Serials Holder) (holders : List Holder) : Prop :=
  (s.settled ++ s.held holders).Perm (List.range s.issued)

theorem conserved_start (holders : List Holder) : ({} : Serials Holder).Conserved holders := by
  have none : ({} : Serials Holder).held holders = [] := by simp [held]
  simp [Conserved, none]

theorem Conserved.nodup (conserved : s.Conserved holders) :
    (s.settled ++ s.held holders).Nodup :=
  conserved.nodup_iff.mpr List.nodup_range

theorem Conserved.held_open (conserved : s.Conserved holders) (member : h ∈ holders)
    (holds : s.holds h = some k) : k ∉ s.settled := by
  intro done
  have held : k ∈ s.held holders := List.mem_filterMap.mpr ⟨h, member, holds⟩
  exact (List.nodup_append.mp conserved.nodup).2.2 k done k held rfl

theorem Conserved.settled_lt (conserved : s.Conserved holders) (done : k ∈ s.settled) :
    k < s.issued :=
  List.mem_range.mp (conserved.mem_iff.mp (List.mem_append_left _ done))

theorem Conserved.accounted (conserved : s.Conserved holders) (issued : k < s.issued) :
    k ∈ s.settled ∨ ∃ h ∈ holders, s.holds h = some k := by
  have among := conserved.mem_iff.mpr (List.mem_range.mpr issued)
  rcases List.mem_append.mp among with done | held
  · exact Or.inl done
  · exact Or.inr (List.mem_filterMap.mp held)

variable [DecidableEq Holder]

def issue (s : Serials Holder) (h : Holder) : Serials Holder :=
  { s with issued := s.issued + 1, holds := Function.update s.holds h (some s.issued) }

def settle (s : Serials Holder) (h : Holder) : Serials Holder :=
  { s with holds := Function.update s.holds h none, settled := s.settled ++ (s.holds h).toList }

theorem held_release (nodup : holders.Nodup) (member : h ∈ holders) (f : Holder → Option Nat) :
    (holders.filterMap f).Perm ((f h).toList ++ holders.filterMap (Function.update f h none)) := by
  induction holders with
  | nil => cases member
  | cons g rest ih =>
    obtain ⟨absent, nodup⟩ := List.nodup_cons.mp nodup
    rcases List.mem_cons.mp member with rfl | later
    · have others : rest.filterMap (Function.update f h none) = rest.filterMap f := by
        apply List.filterMap_congr
        intro g member
        exact Function.update_of_ne (fun same : g = h => absent (same ▸ member)) none f
      rw [List.filterMap_cons, List.filterMap_cons, Function.update_self, others]
      cases f h <;> exact List.Perm.refl _
    · have other : g ≠ h := fun same => absent (same ▸ later)
      have rest' := ih nodup later
      rw [List.filterMap_cons, List.filterMap_cons, Function.update_of_ne other]
      cases f g with
      | none => exact rest'
      | some k => exact (rest'.cons k).trans List.perm_middle.symm

theorem issue_conserved (conserved : s.Conserved holders) (nodup : holders.Nodup)
    (member : h ∈ holders) (free : s.holds h = none) : (s.issue h).Conserved holders := by
  have taken : ((s.issue h).held holders).Perm (s.issued :: s.held holders) := by
    have split := held_release nodup member (s.issue h).holds
    have now : (s.issue h).holds h = some s.issued := Function.update_self ..
    have before : Function.update (s.issue h).holds h none = s.holds := by
      rw [issue, Function.update_idem, ← free, Function.update_eq_self]
    rwa [now, before] at split
  have next : (s.settled ++ (s.issue h).held holders).Perm
      (s.issued :: (s.settled ++ s.held holders)) :=
    (taken.append_left s.settled).trans List.perm_middle
  unfold Conserved
  rw [show (s.issue h).issued = s.issued + 1 from rfl, List.range_succ]
  exact next.trans ((conserved.cons s.issued).trans (List.perm_append_singleton _ _).symm)

theorem settle_conserved (conserved : s.Conserved holders) (nodup : holders.Nodup)
    (member : h ∈ holders) : (s.settle h).Conserved holders := by
  have split := held_release nodup member s.holds
  unfold Conserved
  rw [settle, List.append_assoc]
  exact ((split.append_left s.settled).symm).trans conserved

end Serials
