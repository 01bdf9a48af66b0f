import GreaseLog.Lib.RingWalk

/- The circular FIFO of tw_circular.h, used by one thread. `cnt` is the count of
   its semaphore, the number of free slots. A call that would block is `none`. -/
namespace GreaseLog

structure SafeCircular (T : Type) where
  size : Nat
  cnt : Nat
  reversed : Bool
  nextIn : Int
  nextOut : Int
  data : Nat → T

namespace SafeCircular
open RingWalk
variable {T : Type}

/-- `blank` is the object that fills a new slot. -/
def new (size : Nat) (blank : T) : SafeCircular T :=
  { size := size, cnt := size, reversed := false, nextIn := -1, nextOut := 0, data := fun _ => blank }

def remain (q : SafeCircular T) : Nat := q.size - q.cnt

def nextNextIn (q : SafeCircular T) : Int := next q.size q.reversed q.nextIn

def nextNextOut (q : SafeCircular T) : Int := next q.size q.reversed q.nextOut

def addMv (q : SafeCircular T) (d : T) : Option (SafeCircular T) :=
  if q.cnt ≥ 1 then
    some { q with
      cnt := q.cnt - 1
      nextIn := q.nextNextIn
      data := Function.update q.data q.nextNextIn.toNat d }
  else none

/-- The slot keeps the value it held; nothing reads it again before it is written. -/
def removeMv (q : SafeCircular T) : Option (T × SafeCircular T) :=
  if q.remain > 0 then
    some (q.data q.nextOut.toNat,
      if q.remain = 1 then
        { q with cnt := q.cnt + 1, nextIn := -1, nextOut := 0, reversed := false }
      else { q with cnt := q.cnt + 1, nextOut := q.nextNextOut })
  else none

def reverse (q : SafeCircular T) : SafeCircular T :=
  if q.remain < 1 then q
  else { q with reversed := !q.reversed, nextOut := q.nextIn, nextIn := q.nextOut }

def clear (q : SafeCircular T) (blank : T) : SafeCircular T :=
  { q with cnt := q.size, reversed := false, nextIn := -1, nextOut := 0, data := fun _ => blank }

/-- What the two queues are afterwards, this one first. The other one keeps its direction. -/
def transferFrom (_q other : SafeCircular T) : SafeCircular T × SafeCircular T :=
  (other, { other with cnt := other.size, nextIn := -1, nextOut := 0 })

def items (q : SafeCircular T) : List T := read q.data q.size q.reversed q.nextOut q.remain

structure Holds (q : SafeCircular T) (items : List T) : Prop where
  counted : q.cnt + items.length = q.size
  start : Inside q.size q.nextOut
  values : items = read q.data q.size q.reversed q.nextOut items.length
  last : (items = [] ∧ q.reversed = false ∧ q.nextIn = -1 ∧ q.nextOut = 0) ∨
    ∃ n, items.length = n + 1 ∧ q.nextIn = walk q.size q.reversed q.nextOut n

theorem Holds.remain {q : SafeCircular T} {items : List T} (holds : q.Holds items) :
    q.remain = items.length := by
  have counted := holds.counted
  unfold SafeCircular.remain
  omega

theorem Holds.items_eq {q : SafeCircular T} {items : List T} (holds : q.Holds items) :
    q.items = items := by
  rw [SafeCircular.items, holds.remain]
  exact holds.values.symm

theorem new_holds {size : Nat} (positive : 0 < size) (blank : T) : (new size blank).Holds [] where
  counted := rfl
  start := by simp [new, Inside, positive]
  values := rfl
  last := Or.inl ⟨rfl, rfl, rfl, rfl⟩

theorem clear_holds {q : SafeCircular T} {items : List T} (holds : q.Holds items) (blank : T) :
    (q.clear blank).Holds [] := by
  obtain ⟨low, high⟩ := holds.start
  have positive : 0 < q.size := by omega
  exact ⟨rfl, by simp [clear, Inside, positive], rfl, Or.inl ⟨rfl, rfl, rfl, rfl⟩⟩

theorem nextNextIn_eq {q : SafeCircular T} {items : List T} (holds : q.Holds items) :
    q.nextNextIn = walk q.size q.reversed q.nextOut items.length := by
  have inside := holds.start
  have counted := holds.counted
  unfold nextNextIn
  rcases holds.last with ⟨rfl, forwards, before, first⟩ | ⟨n, length, last⟩
  · rw [List.length_nil, walk_zero inside, forwards, before, first]
    obtain ⟨low, high⟩ := inside
    simp only [next, Bool.false_eq_true, ↓reduceIte]
    split_ifs <;> omega
  · rw [last, length]
    exact next_walk inside (by omega)

theorem addMv_holds {q : SafeCircular T} {items : List T} (holds : q.Holds items)
    (room : items.length < q.size) (d : T) :
    ∃ q', q.addMv d = some q' ∧ q'.size = q.size ∧ q'.Holds (items ++ [d]) := by
  have inside := holds.start
  have counted := holds.counted
  have slot := nextNextIn_eq holds
  have free : q.cnt ≥ 1 := by omega
  rw [addMv, if_pos free]
  refine ⟨_, rfl, rfl, ?_⟩
  constructor
  · simp only [List.length_append, List.length_singleton]
    omega
  · exact inside
  · simp only [List.length_append, List.length_singleton, read_last, slot]
    rw [read_update q.data inside (by omega), Function.update_self, ← holds.values]
  · exact Or.inr ⟨items.length, by simp, slot⟩

theorem addMv_full {q : SafeCircular T} {items : List T} (holds : q.Holds items)
    (full : items.length = q.size) (d : T) : q.addMv d = none := by
  have counted := holds.counted
  rw [addMv, if_neg (by omega)]

theorem removeMv_empty {q : SafeCircular T} (holds : q.Holds []) : q.removeMv = none := by
  rw [removeMv, if_neg (by rw [holds.remain]; simp)]

theorem removeMv_holds {q : SafeCircular T} {d : T} {items : List T} (holds : q.Holds (d :: items)) :
    ∃ q', q.removeMv = some (d, q') ∧ q'.size = q.size ∧ q'.Holds items := by
  have inside := holds.start
  have counted := holds.counted
  have remain := holds.remain
  have values := holds.values
  rw [List.length_cons] at counted remain values
  have short : (items.length : Int) < q.size := by omega
  rw [read_first q.data inside short] at values
  obtain ⟨front, rest⟩ := List.cons.inj values
  have found : q.remain > 0 := by omega
  rw [removeMv, if_pos found, ← front]
  cases items with
  | nil =>
    rw [if_pos (by simpa using remain)]
    refine ⟨_, rfl, rfl, ?_⟩
    constructor
    · simp only [List.length_nil] at counted ⊢
      omega
    · simp only [Inside]
      omega
    · rfl
    · exact Or.inl ⟨rfl, rfl, rfl, rfl⟩
  | cons second items =>
    rw [List.length_cons] at remain
    rw [if_neg (by omega)]
    refine ⟨_, rfl, rfl, ?_⟩
    constructor
    · simp only [List.length_cons] at counted ⊢
      omega
    · exact next_inside inside
    · exact rest
    · refine Or.inr ⟨items.length, by simp, ?_⟩
      rcases holds.last with ⟨none, _⟩ | ⟨n, length, last⟩
      · cases none
      · have same : n = items.length + 1 := by simpa using length.symm
        rw [List.length_cons] at short
        rw [last, same]
        exact (walk_next inside (by omega)).symm

theorem reverse_holds {q : SafeCircular T} {items : List T} (holds : q.Holds items) :
    q.reverse.size = q.size ∧ q.reverse.Holds items.reverse := by
  have inside := holds.start
  have counted := holds.counted
  have remain := holds.remain
  unfold reverse
  rcases holds.last with ⟨rfl, _⟩ | ⟨n, length, last⟩
  · rw [if_pos (by simp [remain])]
    exact ⟨rfl, holds⟩
  · rw [if_neg (by omega)]
    refine ⟨rfl, ?_⟩
    have short : (n : Int) < q.size := by omega
    constructor
    · rw [List.length_reverse]
      exact counted
    · rw [last]
      exact walk_inside inside (by omega)
    · rw [List.length_reverse, length, last, read_turned q.data inside short, ← length,
        ← holds.values]
    · refine Or.inr ⟨n, by rw [List.length_reverse, length], ?_⟩
      rw [last, walk_turned inside short (Nat.le_refl n), Nat.sub_self, walk_zero inside]

end SafeCircular

end GreaseLog
