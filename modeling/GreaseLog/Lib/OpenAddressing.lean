import Mathlib.Data.Fintype.EquivFin
import Mathlib.Data.List.Nodup
import Mathlib.Data.Nat.Find
import Mathlib.Data.Nat.ModEq
import Mathlib.Logic.Function.Basic
import GreaseLog.Lib.Totals

/- Hash tables by open addressing. A key is looked for along its own sequence of
   places, past every slot that is taken or has been; an entry that is removed
   leaves its slot marked. A table can be moved into one of another size in the
   same memory. -/
namespace OpenAddressing
variable {Key Value : Type}

inductive Slot (Key Value : Type) where
  | empty
  | deleted
  | live : Key → Value → Slot Key Value

def Slot.entry : Slot Key Value → Option (Key × Value)
  | .live key value => some (key, value)
  | _ => none

def Slot.taken : Slot Key Value → Bool
  | .empty => false
  | _ => true

theorem entry_some {s : Slot Key Value} {key : Key} {value : Value} :
    s.entry = some (key, value) ↔ s = .live key value := by
  cases s <;> simp [Slot.entry]

theorem taken_false {s : Slot Key Value} : s.taken = false ↔ s = .empty := by
  cases s <;> simp [Slot.taken]

def entries (n : Nat) (T : Nat → Slot Key Value) : List (Key × Value) :=
  (List.range n).filterMap fun i => (T i).entry

def others (n x : Nat) (T : Nat → Slot Key Value) : List (Key × Value) :=
  ((List.range n).erase x).filterMap fun i => (T i).entry

def occupied (n : Nat) (T : Nat → Slot Key Value) : Nat :=
  (List.range n).countP fun i => (T i).taken

def keys (n : Nat) (T : Nat → Slot Key Value) : List Key := (entries n T).map Prod.fst

theorem mem_entries {n : Nat} {T : Nat → Slot Key Value} {key : Key} {value : Value} :
    (key, value) ∈ entries n T ↔ ∃ i < n, T i = .live key value := by
  simp [entries, entry_some]

theorem mem_keys {n : Nat} {T : Nat → Slot Key Value} {key : Key} :
    key ∈ keys n T ↔ ∃ i < n, ∃ value, T i = .live key value := by
  unfold keys
  constructor
  · intro member
    obtain ⟨⟨k, value⟩, at_i, rfl⟩ := List.mem_map.mp member
    obtain ⟨i, bound, is⟩ := mem_entries.mp at_i
    exact ⟨i, bound, value, is⟩
  · intro ⟨i, bound, value, is⟩
    exact List.mem_map.mpr ⟨(key, value), mem_entries.mpr ⟨i, bound, is⟩, rfl⟩

theorem entries_nil {n : Nat} {T : Nat → Slot Key Value}
    (none : ∀ i < n, ∀ key value, T i ≠ .live key value) : entries n T = [] := by
  rw [List.eq_nil_iff_forall_not_mem]
  intro ⟨key, value⟩ member
  obtain ⟨i, bound, is⟩ := mem_entries.mp member
  exact none i bound key value is

def entriesFrom (n i : Nat) (T : Nat → Slot Key Value) : List (Key × Value) :=
  (List.range' i (n - i)).filterMap fun i => (T i).entry

theorem entriesFrom_zero (n : Nat) (T : Nat → Slot Key Value) : entriesFrom n 0 T = entries n T := by
  rw [entriesFrom, entries, List.range_eq_range', Nat.sub_zero]

theorem entriesFrom_end (n : Nat) (T : Nat → Slot Key Value) : entriesFrom n n T = [] := by
  simp [entriesFrom]

theorem entriesFrom_step {n i : Nat} (bound : i < n) (T : Nat → Slot Key Value) :
    entriesFrom n i T = (T i).entry.toList ++ entriesFrom n (i + 1) T := by
  obtain ⟨k, rfl⟩ := Nat.exists_eq_add_of_lt bound
  have left : i + k + 1 - i = k + 1 := by omega
  have rest : i + k + 1 - (i + 1) = k := by omega
  rw [entriesFrom, entriesFrom, left, rest, List.range'_succ, List.filterMap_cons]
  cases (T i).entry <;> rfl

section Setting
variable {n x : Nat} {T : Nat → Slot Key Value}

theorem entries_at (bound : x < n) :
    (entries n T).Perm ((T x).entry.toList ++ others n x T) := by
  have split := List.perm_cons_erase (List.mem_range.mpr bound)
  have mapped := split.filterMap fun i => (T i).entry
  rw [List.filterMap_cons] at mapped
  cases first : (T x).entry with
  | none =>
    rw [first] at mapped
    exact mapped
  | some e =>
    rw [first] at mapped
    exact mapped

theorem others_set (s : Slot Key Value) : others n x (Function.update T x s) = others n x T := by
  apply List.filterMap_congr
  intro i member
  have other : i ≠ x := ((List.nodup_range).mem_erase_iff.mp member).1
  rw [Function.update_of_ne other]

theorem entries_set (bound : x < n) (s : Slot Key Value) :
    (entries n (Function.update T x s)).Perm (s.entry.toList ++ others n x T) := by
  have at_x := entries_at (T := Function.update T x s) bound
  rw [others_set, Function.update_self] at at_x
  exact at_x

theorem occupied_set (bound : x < n) (s : Slot Key Value) :
    occupied n (Function.update T x s) + (T x).taken.toNat = occupied n T + s.taken.toNat := by
  have change := Totals.countP_change (List.nodup_range) (List.mem_range.mpr bound)
    (p := fun i => (T i).taken) (q := fun i => (Function.update T x s i).taken)
    (by
      intro i other
      rw [Function.update_of_ne other])
  rw [Function.update_self] at change
  exact change

theorem entries_place (bound : x < n) (free : (T x).entry = none) (key : Key) (value : Value) :
    (entries n (Function.update T x (.live key value))).Perm ((key, value) :: entries n T) := by
  have before := entries_at (T := T) bound
  rw [free] at before
  exact (entries_set bound _).trans (before.symm.cons _)

theorem entries_remove (bound : x < n) {key : Key} {value : Value} (is : T x = .live key value) :
    (entries n T).Perm ((key, value) :: entries n (Function.update T x .deleted)) := by
  have before := entries_at (T := T) bound
  rw [is] at before
  exact before.trans ((entries_set bound .deleted).symm.cons _)

end Setting

theorem occupied_le (n : Nat) (T : Nat → Slot Key Value) : occupied n T ≤ n := by
  have most := List.countP_le_length (p := fun i => (T i).taken) (l := List.range n)
  rwa [List.length_range] at most

theorem length_le_occupied (n : Nat) (T : Nat → Slot Key Value) :
    (entries n T).length ≤ occupied n T := by
  rw [entries, List.length_filterMap_eq_countP]
  apply List.countP_mono_left
  intro i _ some
  cases is : T i <;> simp_all [Slot.entry, Slot.taken]

theorem occupied_eq_length {n : Nat} {T : Nat → Slot Key Value} (none : ∀ i < n, T i ≠ .deleted) :
    occupied n T = (entries n T).length := by
  rw [entries, List.length_filterMap_eq_countP]
  apply List.countP_congr
  intro i member
  have kept := none i (List.mem_range.mp member)
  cases is : T i <;> simp_all [Slot.entry, Slot.taken]

theorem exists_empty {n : Nat} {T : Nat → Slot Key Value} (room : occupied n T < n) :
    ∃ i < n, T i = .empty := by
  by_contra full
  have all : ∀ i ∈ List.range n, (T i).taken = true := by
    intro i member
    by_contra free
    rw [Bool.not_eq_true, taken_false] at free
    exact full ⟨i, List.mem_range.mp member, free⟩
  have count := List.countP_eq_length.mpr all
  rw [List.length_range] at count
  rw [occupied, count] at room
  exact Nat.lt_irrefl n room

def packed (L : List (Key × Value)) (i : Nat) : Slot Key Value :=
  match L[i]? with
  | some (key, value) => .live key value
  | none => .empty

section Packed
variable {L : List (Key × Value)}

theorem packed_entry (i : Nat) : (packed L i).entry = L[i]? := by
  unfold packed
  split
  · rename_i at_i
    exact at_i.symm
  · rename_i at_i
    exact at_i.symm

theorem packed_live {i : Nat} {key : Key} {value : Value} :
    packed L i = .live key value ↔ L[i]? = some (key, value) := by
  rw [← entry_some, packed_entry]

theorem packed_empty {i : Nat} : packed L i = .empty ↔ L.length ≤ i := by
  rw [← List.getElem?_eq_none_iff, ← packed_entry]
  unfold packed
  split <;> simp [Slot.entry]

theorem entries_packed {n : Nat} (room : L.length ≤ n) : entries n (packed L) = L := by
  have first : ∀ k, entries k (packed L) = L.take k := by
    intro k
    induction k with
    | zero => rfl
    | succ k ih =>
      have one : [k].filterMap (fun i => (packed L i).entry) = L[k]?.toList := by
        rw [List.filterMap_cons, packed_entry]
        cases L[k]? <;> rfl
      rw [entries, List.range_succ, List.filterMap_append, one, List.take_add_one]
      exact congrArg (· ++ L[k]?.toList) ih
  rw [first, List.take_of_length_le room]

theorem packed_append (key : Key) (value : Value) :
    Function.update (packed L) L.length (.live key value) = packed (L ++ [(key, value)]) := by
  funext i
  by_cases last : i = L.length
  · subst last
    rw [Function.update_self]
    exact (packed_live.mpr (by simp)).symm
  · have same : (L ++ [(key, value)])[i]? = L[i]? := by
      by_cases before : i < L.length
      · exact List.getElem?_append_left before
      · rw [List.getElem?_eq_none (by simp; omega), List.getElem?_eq_none (by omega)]
    rw [Function.update_of_ne last]
    unfold packed
    rw [same]

theorem packed_set {i : Nat} (bound : i < L.length) (key : Key) (value : Value) :
    Function.update (packed L) i (.live key value) = packed (L.set i (key, value)) := by
  funext k
  by_cases same : k = i
  · subst same
    rw [Function.update_self]
    exact (packed_live.mpr (List.getElem?_set_self bound)).symm
  · rw [Function.update_of_ne same]
    unfold packed
    rw [List.getElem?_set_ne (Ne.symm same)]

end Packed

/-- The places where a key is looked for: all inside the table, and in the end every one. -/
structure Covers (n : Nat) (probe : Key → Nat → Nat) : Prop where
  inside : ∀ key j, probe key j < n
  comes : ∀ key i, i < n → ∃ j < n, probe key j = i

/-- From any start, steps that have no factor in common with the size come to every place. -/
theorem stride_comes {n start inc : Nat} (coprime : Nat.Coprime n inc) (i : Nat) (bound : i < n) :
    ∃ j < n, (start + j * inc) % n = i := by
  have injective : Function.Injective fun j : Fin n =>
      (⟨(start + j * inc) % n, Nat.mod_lt _ (Nat.zero_lt_of_lt bound)⟩ : Fin n) := by
    intro a b same
    have steps : start + a * inc ≡ start + b * inc [MOD n] := Fin.mk.inj same
    have scaled : a * inc ≡ b * inc [MOD n] := Nat.ModEq.add_left_cancel' start steps
    have equal : a.val ≡ b.val [MOD n] := Nat.ModEq.cancel_right_of_coprime coprime scaled
    apply Fin.ext
    rwa [Nat.ModEq, Nat.mod_eq_of_lt a.isLt, Nat.mod_eq_of_lt b.isLt] at equal
  obtain ⟨j, is⟩ := Finite.injective_iff_surjective.mp injective ⟨i, bound⟩
  exact ⟨j, j.isLt, Fin.mk.inj is⟩

theorem stride_returns {n start inc j : Nat} (coprime : Nat.Coprime n inc) (begins : start < n)
    (back : (start + j * inc) % n = start) : n ∣ j := by
  have steps : start + j * inc ≡ start + 0 [MOD n] := by
    rw [Nat.ModEq, back, Nat.add_zero, Nat.mod_eq_of_lt begins]
  have scaled : j * inc ≡ 0 [MOD n] := Nat.ModEq.add_left_cancel' start steps
  exact coprime.dvd_of_dvd_mul_right ((Nat.modEq_zero_iff_dvd).mp scaled)

/-- No key twice, and every entry on its key's way with no empty slot before it. -/
structure Table (n : Nat) (probe : Key → Nat → Nat) (T : Nat → Slot Key Value) : Prop where
  nodup : (keys n T).Nodup
  reached : ∀ i < n, ∀ key value, T i = .live key value →
    ∃ j < n, probe key j = i ∧ ∀ j' < j, T (probe key j') ≠ .empty

def Stops (s : Slot Key Value) (key : Key) : Prop := s = .empty ∨ ∃ value, s = .live key value

section Table
variable {n : Nat} {probe : Key → Nat → Nat} {T : Nat → Slot Key Value}

theorem table_empty (T : Nat → Slot Key Value) (none : ∀ i < n, T i = .empty) :
    Table n probe T where
  nodup := by
    rw [keys, entries_nil]
    · exact List.nodup_nil
    · intro i bound key value is
      rw [none i bound] at is
      cases is
  reached := by
    intro i bound key value is
    rw [none i bound] at is
    cases is

/-- A search ends, as long as the table has an empty slot. -/
theorem exists_stop (covers : Covers n probe) (room : occupied n T < n) (key : Key) :
    ∃ j < n, Stops (T (probe key j)) key ∧ ∀ j' < j, ¬ Stops (T (probe key j')) key := by
  classical
  obtain ⟨i, bound, free⟩ := exists_empty room
  obtain ⟨j, within, rfl⟩ := covers.comes key i bound
  have some : ∃ j, Stops (T (probe key j)) key := ⟨j, Or.inl free⟩
  exact ⟨Nat.find some, (Nat.find_min' some (Or.inl free)).trans_lt within, Nat.find_spec some,
    fun j' before => Nat.find_min some before⟩

theorem search_missing (table : Table n probe T) {key : Key} {j : Nat}
    (passed : ∀ j' < j, ¬ Stops (T (probe key j')) key) (is : T (probe key j) = .empty) :
    key ∉ keys n T := by
  intro member
  obtain ⟨i, bound, value, at_i⟩ := mem_keys.mp member
  obtain ⟨k, _, rfl, before⟩ := table.reached i bound key value at_i
  rcases Nat.lt_trichotomy j k with less | rfl | more
  · exact before j less is
  · rw [is] at at_i
    cases at_i
  · exact passed k more (Or.inr ⟨value, at_i⟩)

theorem Table.place (table : Table n probe T) (covers : Covers n probe) {key : Key} {j : Nat}
    (bound : j < n) (free : (T (probe key j)).entry = none)
    (before : ∀ j' < j, T (probe key j') ≠ .empty) (absent : key ∉ keys n T) (value : Value) :
    Table n probe (Function.update T (probe key j) (.live key value)) where
  nodup := by
    have perm := (entries_place (covers.inside key j) free key value).map Prod.fst
    exact perm.nodup_iff.mpr (List.nodup_cons.mpr ⟨absent, table.nodup⟩)
  reached := by
    have full : ∀ i, T i ≠ .empty → Function.update T (probe key j) (.live key value) i ≠ .empty := by
      intro i taken
      by_cases same : i = probe key j
      · subst same
        simp
      · rwa [Function.update_of_ne same]
    intro i within k v is
    by_cases same : i = probe key j
    · subst same
      rw [Function.update_self] at is
      cases is
      exact ⟨j, bound, rfl, fun j' less => full _ (before j' less)⟩
    · rw [Function.update_of_ne same] at is
      obtain ⟨j', within', place, passed⟩ := table.reached i within k v is
      exact ⟨j', within', place, fun j'' less => full _ (passed j'' less)⟩

/-- What is taken stays taken: a value is put in another's place, or a mark in an entry's. -/
theorem Table.change (table : Table n probe T) {x : Nat} (bound : x < n) {s : Slot Key Value}
    (taken : s ≠ .empty) (keyed : ∀ key value, s = .live key value → ∃ old, T x = .live key old) :
    Table n probe (Function.update T x s) where
  nodup := by
    have before := (entries_at (T := T) bound).map Prod.fst
    have after := (entries_set (T := T) bound s).map Prod.fst
    have whole := before.nodup_iff.mp table.nodup
    apply after.nodup_iff.mpr
    rw [List.map_append] at whole ⊢
    cases s with
    | empty => exact absurd rfl taken
    | deleted => exact (List.nodup_append.mp whole).2.1
    | live key value =>
      obtain ⟨old, is⟩ := keyed key value rfl
      rw [is] at whole
      exact whole
  reached := by
    have full : ∀ i, T i ≠ .empty → Function.update T x s i ≠ .empty := by
      intro i before
      by_cases same : i = x
      · subst same
        rwa [Function.update_self]
      · rwa [Function.update_of_ne same]
    intro i within k v is
    have old : ∃ v', T i = .live k v' := by
      by_cases same : i = x
      · subst same
        rw [Function.update_self] at is
        exact keyed k v is
      · rw [Function.update_of_ne same] at is
        exact ⟨v, is⟩
    obtain ⟨v', at_i⟩ := old
    obtain ⟨j, within', place, passed⟩ := table.reached i within k v' at_i
    exact ⟨j, within', place, fun j' less => full _ (passed j' less)⟩

end Table

/-- Entries on their way from the table F of n slots to the table G of m slots, in the same
    memory: those in F have not been moved, one may be in hand. -/
structure Moving (n m : Nat) (probe : Key → Nat → Nat) (all hand : List (Key × Value))
    (F G : Nat → Slot Key Value) : Prop where
  table : Table m probe G
  whole : (hand ++ (entries n F ++ entries m G)).Perm all
  settled : ∀ i, G i ≠ .deleted
  apart : ∀ i < n, ∀ key value, F i = .live key value → G i = .empty

section Moving
variable {n m : Nat} {probe : Key → Nat → Nat} {all : List (Key × Value)}
  {F G : Nat → Slot Key Value}

theorem moving_start (probe : Key → Nat → Nat) (none : ∀ i, G i = .empty) :
    Moving n m probe (entries n F) [] F G where
  table := table_empty G fun i _ => none i
  whole := by
    have nothing : entries m G = [] := entries_nil (by simp [none])
    rw [nothing]
    simp
  settled := by
    intro i is
    rw [none i] at is
    cases is
  apart := fun i _ _ _ _ => none i

theorem Moving.take (moving : Moving n m probe all [] F G) {x : Nat} (bound : x < n) {key : Key}
    {value : Value} (is : F x = .live key value) :
    Moving n m probe all [(key, value)] (Function.update F x .deleted) G where
  table := moving.table
  whole := ((entries_remove bound is).symm.append_right _).trans moving.whole
  settled := moving.settled
  apart := by
    intro i within k v at_i
    by_cases same : i = x
    · subst same
      rw [Function.update_self] at at_i
      cases at_i
    · rw [Function.update_of_ne same] at at_i
      exact moving.apart i within k v at_i

theorem Moving.count {hand : List (Key × Value)} (moving : Moving n m probe all hand F G) :
    hand.length + (entries n F).length + occupied m G = all.length := by
  rw [occupied_eq_length fun i _ => moving.settled i, ← moving.whole.length_eq, List.length_append,
    List.length_append, Nat.add_assoc]

theorem Moving.absent {key : Key} {value : Value} (moving : Moving n m probe all [(key, value)] F G)
    (nodup : (all.map Prod.fst).Nodup) : key ∉ keys m G := by
  have whole := (moving.whole.map Prod.fst).nodup_iff.mpr nodup
  have fresh : key ∉ (entries n F ++ entries m G).map Prod.fst := (List.nodup_cons.mp whole).1
  intro member
  apply fresh
  rw [List.map_append]
  exact List.mem_append_right _ member

variable {key : Key} {value : Value} {j : Nat}

/-- What the table gains by the entry in hand, whether or not another was in its way. -/
theorem Moving.placed (moving : Moving n m probe all [(key, value)] F G)
    (nodup : (all.map Prod.fst).Nodup) (covers : Covers m probe) (bound : j < m)
    (free : G (probe key j) = .empty) (before : ∀ j' < j, G (probe key j') ≠ .empty) :
    Table m probe (Function.update G (probe key j) (.live key value)) ∧
      (entries m (Function.update G (probe key j) (.live key value))).Perm
        ((key, value) :: entries m G) ∧
      ∀ i, Function.update G (probe key j) (.live key value) i ≠ .deleted := by
  have none : (G (probe key j)).entry = none := by
    rw [free]
    rfl
  refine ⟨moving.table.place covers bound none before (moving.absent nodup) value,
    entries_place (covers.inside key j) none key value, ?_⟩
  intro i
  by_cases same : i = probe key j
  · subst same
    simp
  · rw [Function.update_of_ne same]
    exact moving.settled i

theorem Moving.kick (moving : Moving n m probe all [(key, value)] F G)
    (nodup : (all.map Prod.fst).Nodup) (covers : Covers m probe) (bound : j < m)
    (free : G (probe key j) = .empty) (before : ∀ j' < j, G (probe key j') ≠ .empty)
    (old : probe key j < n) {key' : Key} {value' : Value}
    (is : F (probe key j) = .live key' value') :
    Moving n m probe all [(key', value')] (Function.update F (probe key j) .deleted)
      (Function.update G (probe key j) (.live key value)) := by
  obtain ⟨table, gained, settled⟩ := moving.placed nodup covers bound free before
  constructor
  · exact table
  · have lost := entries_remove old is
    have sum : ((key', value') :: (entries n (Function.update F (probe key j) .deleted) ++
        entries m (Function.update G (probe key j) (.live key value)))).Perm
        (entries n F ++ (key, value) :: entries m G) := by
      rw [← List.cons_append]
      exact lost.symm.append gained
    exact (sum.trans List.perm_middle).trans moving.whole
  · exact settled
  · intro i within k v at_i
    by_cases same : i = probe key j
    · subst same
      rw [Function.update_self] at at_i
      cases at_i
    · rw [Function.update_of_ne same] at at_i ⊢
      exact moving.apart i within k v at_i

theorem Moving.settle (moving : Moving n m probe all [(key, value)] F G)
    (nodup : (all.map Prod.fst).Nodup) (covers : Covers m probe) (bound : j < m)
    (free : G (probe key j) = .empty) (before : ∀ j' < j, G (probe key j') ≠ .empty)
    (unused : probe key j < n → (F (probe key j)).entry = none) :
    Moving n m probe all [] F (Function.update G (probe key j) (.live key value)) := by
  obtain ⟨table, gained, settled⟩ := moving.placed nodup covers bound free before
  constructor
  · exact table
  · have sum : (entries n F ++ entries m (Function.update G (probe key j) (.live key value))).Perm
        (entries n F ++ (key, value) :: entries m G) := gained.append_left _
    exact (sum.trans List.perm_middle).trans moving.whole
  · exact settled
  · intro i within k v at_i
    by_cases same : i = probe key j
    · subst same
      rw [entry_some.mpr at_i] at unused
      cases unused within
    · rw [Function.update_of_ne same]
      exact moving.apart i within k v at_i

theorem Moving.finish (moving : Moving n m probe all [] F G)
    (done : ∀ i < n, ∀ key value, F i ≠ .live key value) : (entries m G).Perm all := by
  have whole := moving.whole
  rw [entries_nil done] at whole
  exact whole

end Moving

end OpenAddressing
