import Mathlib.Algebra.BigOperators.Group.Finset.Basic
import Mathlib.Algebra.BigOperators.Group.List.Basic
import Mathlib.Algebra.GroupWithZero.Nat
import Mathlib.Data.List.Count
import Mathlib.Data.List.Perm.Basic

/- Totals over a list or a set when one of its members changes or goes. -/
namespace Totals
variable {α : Type}

theorem perm_eraseIdx {l : List α} {n : Nat} {a : α} (at_n : l[n]? = some a) :
    l.Perm (a :: l.eraseIdx n) := by
  obtain ⟨bound, is⟩ := List.getElem?_eq_some_iff.mp at_n
  have perm := List.getElem_cons_eraseIdx_perm bound
  rw [is] at perm
  exact perm.symm

theorem countP_change [DecidableEq α] {l : List α} (nodup : l.Nodup) {b : α} (member : b ∈ l)
    {p q : α → Bool} (same : ∀ c, c ≠ b → q c = p c) :
    l.countP q + (p b).toNat = l.countP p + (q b).toNat := by
  induction l with
  | nil => cases member
  | cons a rest ih =>
    obtain ⟨notIn, nodup'⟩ := List.nodup_cons.mp nodup
    rw [List.countP_cons, List.countP_cons]
    by_cases first : a = b
    · subst first
      have others : rest.countP q = rest.countP p := by
        apply List.countP_congr
        intro c mem
        rw [same c fun is => notIn (is ▸ mem)]
      cases p a <;> cases q a <;> simp [others]
    · have rest' := ih nodup' ((List.mem_cons.mp member).resolve_left (Ne.symm first))
      rw [same a first]
      omega

theorem sum_set {f g : α → Nat} {l : List α} {n : Nat} {a : α} (at_n : l[n]? = some a)
    (same : ∀ k c, k ≠ n → l[k]? = some c → f c = g c) (b : α) :
    ((l.set n b).map f).sum + g a = (l.map g).sum + f b := by
  induction l generalizing n with
  | nil => cases at_n
  | cons c rest ih =>
    cases n with
    | zero =>
      obtain rfl : c = a := Option.some.inj at_n
      have others : rest.map f = rest.map g := by
        apply List.map_congr_left
        intro d mem
        obtain ⟨k, at_k⟩ := List.mem_iff_getElem?.mp mem
        exact same (k + 1) d (Nat.succ_ne_zero k) at_k
      simp only [List.set_cons_zero, List.map_cons, List.sum_cons, others]
      omega
    | succ n =>
      have first := same 0 c (Nat.succ_ne_zero n).symm rfl
      have rest' := ih at_n fun k d other at_k => same (k + 1) d (fun eq => other (Nat.succ.inj eq)) at_k
      simp only [List.set_cons_succ, List.map_cons, List.sum_cons, first]
      omega

theorem sum_update [DecidableEq α] {who : Finset α} {f : α → Nat} {a : α} (member : a ∈ who) (n : Nat) :
    ∑ b ∈ who, Function.update f a n b + f a = ∑ b ∈ who, f b + n := by
  have others : ∑ b ∈ who.erase a, Function.update f a n b = ∑ b ∈ who.erase a, f b :=
    Finset.sum_congr rfl fun b other => Function.update_of_ne (Finset.ne_of_mem_erase other) _ _
  rw [← Finset.add_sum_erase who _ member, ← Finset.add_sum_erase who (fun b => f b) member,
    others, Function.update_self]
  omega

end Totals
