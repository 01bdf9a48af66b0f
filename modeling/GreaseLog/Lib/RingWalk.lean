import Mathlib.Data.List.Basic
import Mathlib.Logic.Function.Basic

/- Walks around a ring of `size` cells, forwards or backwards, and the values
   that such a walk reads. A position wraps by comparison, at most once. -/

namespace RingWalk
variable {α : Type} {size : Int} {back : Bool} {start : Int}

def next (size : Int) (back : Bool) (p : Int) : Int :=
  if back then (if p - 1 < 0 then size - 1 else p - 1)
  else (if p + 1 ≥ size then 0 else p + 1)

def walk (size : Int) (back : Bool) (start : Int) (i : Nat) : Int :=
  if back then (if (i : Int) ≤ start then start - i else start + size - i)
  else (if start + i < size then start + i else start + i - size)

def Inside (size p : Int) : Prop := 0 ≤ p ∧ p < size

theorem walk_zero (inside : Inside size start) : walk size back start 0 = start := by
  obtain ⟨low, high⟩ := inside
  unfold walk
  split_ifs <;> omega

theorem walk_inside (inside : Inside size start) {i : Nat} (short : (i : Int) ≤ size) :
    Inside size (walk size back start i) := by
  obtain ⟨low, high⟩ := inside
  unfold walk Inside
  split_ifs <;> omega

theorem next_inside (inside : Inside size start) : Inside size (next size back start) := by
  obtain ⟨low, high⟩ := inside
  unfold next Inside
  split_ifs <;> omega

theorem next_walk (inside : Inside size start) {i : Nat} (short : (i : Int) < size) :
    next size back (walk size back start i) = walk size back start (i + 1) := by
  obtain ⟨low, high⟩ := inside
  unfold next walk
  split_ifs <;> omega

theorem walk_next (inside : Inside size start) {i : Nat} (short : (i : Int) < size) :
    walk size back (next size back start) i = walk size back start (i + 1) := by
  obtain ⟨low, high⟩ := inside
  unfold next walk
  split_ifs <;> omega

theorem walk_injective (inside : Inside size start) {i j : Nat} (first : (i : Int) < size)
    (second : (j : Int) < size) (same : walk size back start i = walk size back start j) :
    i = j := by
  obtain ⟨low, high⟩ := inside
  unfold walk at same
  split_ifs at same <;> omega

/-- Turning around after n steps meets the same cells in the opposite order. -/
theorem walk_turned (inside : Inside size start) {n i : Nat} (short : (n : Int) < size)
    (before : i ≤ n) :
    walk size (!back) (walk size back start n) i = walk size back start (n - i) := by
  obtain ⟨low, high⟩ := inside
  cases back <;> simp only [walk, Bool.not_true, Bool.not_false, Bool.false_eq_true, ↓reduceIte] <;>
    split_ifs <;> omega

def read (cells : Nat → α) (size : Int) (back : Bool) (start : Int) (n : Nat) : List α :=
  (List.range n).map fun i => cells (walk size back start i).toNat

theorem read_last (cells : Nat → α) (n : Nat) :
    read cells size back start (n + 1) =
      read cells size back start n ++ [cells (walk size back start n).toNat] := by
  simp [read, List.range_succ]

theorem read_first (cells : Nat → α) (inside : Inside size start) {n : Nat}
    (short : (n : Int) < size) :
    read cells size back start (n + 1) =
      cells start.toNat :: read cells size back (next size back start) n := by
  simp only [read, List.range_succ_eq_map, List.map_cons, walk_zero inside, List.map_map]
  congr 1
  apply List.map_congr_left
  intro i member
  have early := List.mem_range.mp member
  rw [walk_next inside (by omega)]
  rfl

theorem read_update (cells : Nat → α) (inside : Inside size start) {n : Nat}
    (short : (n : Int) < size) (value : α) :
    read (Function.update cells (walk size back start n).toNat value) size back start n =
      read cells size back start n := by
  apply List.map_congr_left
  intro i member
  have early := List.mem_range.mp member
  have here : Inside size (walk size back start i) := walk_inside inside (by omega)
  have there : Inside size (walk size back start n) := walk_inside inside (by omega)
  apply Function.update_of_ne
  intro same
  have met : walk size back start i = walk size back start n := by
    have := here.1
    have := there.1
    omega
  have := walk_injective inside (by omega) short met
  omega

theorem read_turned (cells : Nat → α) (inside : Inside size start) {n : Nat}
    (short : (n : Int) < size) :
    read cells size (!back) (walk size back start n) (n + 1) =
      (read cells size back start (n + 1)).reverse := by
  apply List.ext_getElem
  · simp [read]
  · intro i low high
    have early : i < n + 1 := by simpa [read] using low
    have flipped : n + 1 - 1 - i = n - i := by omega
    simp only [read, List.getElem_map, List.getElem_range, List.getElem_reverse, List.length_map,
      List.length_range, flipped]
    rw [walk_turned inside short (by omega)]

end RingWalk
