import Mathlib.Data.List.AList
import GreaseLog.KhashPut
import GreaseLog.Lib.Runs

/- TW_KHash_32: the operations of tw_khash.h on the hash table, each under the table's
   lock, the iterator, and what any sequence of operations amounts to. -/
namespace GreaseLog
open OpenAddressing

/-- The table, and the count that gotoStart and releaseIter keep. -/
structure TwKHash32 (Key Data : Type) where
  KHASHMAP : KhA Key Data
  iterators_out : Nat

def kh_value {Key Data : Type} (h : KhA Key Data) (k : Nat) : Option Data := h.vals[k]?.join

def kh_set_value {Key Data : Type} (h : KhA Key Data) (k : Nat) (d : Data) : Option (KhA Key Data) :=
  if k < h.vals.length then some { h with vals := h.vals.set k (some d) } else none

/-- What an operation gives back: whether it did something, the data it filled in or
    points to, or a count. -/
inductive HashAnswer (Data : Type) where
  | done : Bool → Option Data → HashAnswer Data
  | data : Option Data → HashAnswer Data
  | size : Nat → HashAnswer Data
  deriving DecidableEq

namespace TwKHash32
variable {Key Data : Type} [DecidableEq Key] (hash : Key → BitVec 32)

def init (items : Nat) : Option (TwKHash32 Key Data) := do
  let h := kh_init_A
  if items > 0 then return ⟨← kh_resize_A hash h items, 0⟩
  else return ⟨h, 0⟩

def putNew (t : TwKHash32 Key Data) (key : Key) (d : Data) : Option (TwKHash32 Key Data) := do
  let (h, k, _) ← kh_put_A hash t.KHASHMAP key
  return { t with KHASHMAP := ← kh_set_value h k d }

def replace (t : TwKHash32 Key Data) (k : Nat) (d : Data) : Option (TwKHash32 Key Data × Data) := do
  let old ← kh_value t.KHASHMAP k
  return ({ t with KHASHMAP := ← kh_set_value t.KHASHMAP k d }, old)

/-- What the functions that replace do: the old data, where the key was in the table. -/
def addOver (t : TwKHash32 Key Data) (key : Key) (d : Data) :
    Option (TwKHash32 Key Data × Option Data) := do
  let k ← kh_get_A hash t.KHASHMAP key
  if k ≠ t.KHASHMAP.n_buckets then
    let (t, old) ← t.replace k d
    return (t, some old)
  else return (← t.putNew hash key d, none)

/-- What the functions that do not replace do: the key's bucket, where it was in the table. -/
def addUnder (t : TwKHash32 Key Data) (key : Key) (d : Data) :
    Option (TwKHash32 Key Data × Option Nat) := do
  let k ← kh_get_A hash t.KHASHMAP key
  if k = t.KHASHMAP.n_buckets then return (← t.putNew hash key d, none)
  else return (t, some k)

def addReplace (t : TwKHash32 Key Data) (key : Key) (dat : Data) :
    Option (TwKHash32 Key Data × HashAnswer Data) := do
  let (t, _) ← t.addOver hash key dat
  return (t, .done true none)

def addReplaceOld (t : TwKHash32 Key Data) (key : Key) (dat : Data) :
    Option (TwKHash32 Key Data × HashAnswer Data) := do
  let (t, old) ← t.addOver hash key dat
  return (t, .done true old)

/-- The data is DATA() here, and what is returned points to it. -/
def addReplaceNew (t : TwKHash32 Key Data) (key : Key) (new : Data) :
    Option (TwKHash32 Key Data × HashAnswer Data) := do
  let (t, _) ← t.addOver hash key new
  return (t, .data (some new))

def addNoreplace (t : TwKHash32 Key Data) (key : Key) (dat : Data) :
    Option (TwKHash32 Key Data × HashAnswer Data) := do
  let (t, k) ← t.addUnder hash key dat
  return (t, .done k.isNone none)

def addNoreplaceNew (t : TwKHash32 Key Data) (key : Key) (new : Data) :
    Option (TwKHash32 Key Data × HashAnswer Data) := do
  let (t, k) ← t.addUnder hash key new
  return (t, .data (if k.isSome then none else some new))

def findOrNew (t : TwKHash32 Key Data) (key : Key) (new : Data) :
    Option (TwKHash32 Key Data × HashAnswer Data) := do
  match ← t.addUnder hash key new with
  | (t, some k) => return (t, .data (some (← kh_value t.KHASHMAP k)))
  | (t, none) => return (t, .data (some new))

def find (t : TwKHash32 Key Data) (key : Key) : Option (Option Data) := do
  let k ← kh_get_A hash t.KHASHMAP key
  if k ≠ t.KHASHMAP.n_buckets then return some (← kh_value t.KHASHMAP k)
  else return none

def takeOut (t : TwKHash32 Key Data) (key : Key) : Option (TwKHash32 Key Data × Option Data) := do
  let k ← kh_get_A hash t.KHASHMAP key
  if k ≠ t.KHASHMAP.n_buckets then
    let d ← kh_value t.KHASHMAP k
    return ({ t with KHASHMAP := ← kh_del_A t.KHASHMAP k }, some d)
  else return (t, none)

def remove (t : TwKHash32 Key Data) (key : Key) : Option (TwKHash32 Key Data × HashAnswer Data) := do
  let (t, d) ← t.takeOut hash key
  return (t, .done d.isSome none)

def removeFill (t : TwKHash32 Key Data) (key : Key) :
    Option (TwKHash32 Key Data × HashAnswer Data) := do
  let (t, d) ← t.takeOut hash key
  return (t, .done d.isSome d)

/-- What is deleted at a bucket: the value, and the key in the array. -/
def deleteAt (h : KhA Key Data) (k : Nat) : Option Unit := do
  if ← ac_iseither h.flags k then return
  let _ ← kh_value h k
  let _ ← h.keys[k]?.join
  return

def removeAll (t : TwKHash32 Key Data) : Option (TwKHash32 Key Data × HashAnswer Data) := do
  (List.range t.KHASHMAP.n_buckets).forM (deleteAt t.KHASHMAP)
  return ({ t with KHASHMAP := ← kh_clear_A t.KHASHMAP }, .done true none)

def size (t : TwKHash32 Key Data) : Nat := t.KHASHMAP.size

def skip (h : KhA Key Data) : Nat → Nat → Option Nat
  | 0, _ => none
  | fuel + 1, i => do
    if i = h.n_buckets then return i
    if ← ac_iseither h.flags i then skip h fuel (i + 1) else return i

def gotoStart (t : TwKHash32 Key Data) : Option (TwKHash32 Key Data × Nat) := do
  let i ← skip t.KHASHMAP (t.KHASHMAP.n_buckets + 1) 0
  return ({ t with iterators_out := t.iterators_out + 1 }, i)

def getNext (t : TwKHash32 Key Data) (iter : Nat) : Option (Nat × Bool) := do
  if iter = t.KHASHMAP.n_buckets then return (iter, false)
  let i ← skip t.KHASHMAP (t.KHASHMAP.n_buckets + 1) (iter + 1)
  return (i, i != t.KHASHMAP.n_buckets)

def atEnd (t : TwKHash32 Key Data) (iter : Nat) : Bool := iter == t.KHASHMAP.n_buckets

def iterKey (t : TwKHash32 Key Data) (iter : Nat) : Option (Option Key) :=
  if iter ≠ t.KHASHMAP.n_buckets then (t.KHASHMAP.keys[iter]?.join).map some else some none

def iterData (t : TwKHash32 Key Data) (iter : Nat) : Option (Option Data) :=
  if iter ≠ t.KHASHMAP.n_buckets then (kh_value t.KHASHMAP iter).map some else some none

def walk (t : TwKHash32 Key Data) : Nat → Nat → Option (List (Key × Data))
  | 0, _ => none
  | fuel + 1, iter => do
    if t.atEnd iter then return []
    let some key ← t.iterKey iter | none
    let some data ← t.iterData iter | none
    let (iter, _) ← t.getNext iter
    return (key, data) :: (← walk t fuel iter)

def visited (t : TwKHash32 Key Data) : Option (List (Key × Data)) := do
  let (t, iter) ← t.gotoStart
  t.walk (t.KHASHMAP.n_buckets + 1) iter

def releaseIter (t : TwKHash32 Key Data) : TwKHash32 Key Data :=
  if t.iterators_out > 0 then { t with iterators_out := t.iterators_out - 1 } else t

end TwKHash32

inductive HashCall (Key Data : Type) where
  | addReplace : Key → Data → HashCall Key Data
  | addReplaceOld : Key → Data → HashCall Key Data
  | addReplaceNew : Key → Data → HashCall Key Data
  | addNoreplace : Key → Data → HashCall Key Data
  | addNoreplaceNew : Key → Data → HashCall Key Data
  | findOrNew : Key → Data → HashCall Key Data
  | find : Key → HashCall Key Data
  | remove : Key → HashCall Key Data
  | removeFill : Key → HashCall Key Data
  | removeAll : HashCall Key Data
  | size : HashCall Key Data
  | gotoStart : HashCall Key Data
  | releaseIter : HashCall Key Data

section Calls
variable {Key Data : Type} [DecidableEq Key] (hash : Key → BitVec 32)

def TwKHash32.call (t : TwKHash32 Key Data) :
    HashCall Key Data → Option (TwKHash32 Key Data × HashAnswer Data)
  | .addReplace key dat => t.addReplace hash key dat
  | .addReplaceOld key dat => t.addReplaceOld hash key dat
  | .addReplaceNew key new => t.addReplaceNew hash key new
  | .addNoreplace key dat => t.addNoreplace hash key dat
  | .addNoreplaceNew key new => t.addNoreplaceNew hash key new
  | .findOrNew key new => t.findOrNew hash key new
  | .find key => (t.find hash key).map fun d => (t, .data d)
  | .remove key => t.remove hash key
  | .removeFill key => t.removeFill hash key
  | .removeAll => t.removeAll
  | .size => some (t, .size t.size)
  | .gotoStart => t.gotoStart.map fun r => (r.1, .done true none)
  | .releaseIter => some (t.releaseIter, .done true none)

def TwKHash32.runs (t : TwKHash32 Key Data) :
    List (HashCall Key Data) → Option (TwKHash32 Key Data × List (HashAnswer Data))
  | [] => some (t, [])
  | c :: cs => do
    let (t, answer) ← t.call hash c
    let (t, answers) ← t.runs cs
    return (t, answer :: answers)

abbrev HashMapOf (Key Data : Type) [DecidableEq Key] := AList fun _ : Key => Data

def HashCall.onMap (m : HashMapOf Key Data) : HashCall Key Data → HashMapOf Key Data
  | .addReplace key dat | .addReplaceOld key dat | .addReplaceNew key dat => m.insert key dat
  | .addNoreplace key dat | .addNoreplaceNew key dat | .findOrNew key dat =>
    if (m.lookup key).isSome then m else m.insert key dat
  | .remove key | .removeFill key => m.erase key
  | .removeAll => ∅
  | .find _ | .size | .gotoStart | .releaseIter => m

def HashCall.answer (m : HashMapOf Key Data) : HashCall Key Data → HashAnswer Data
  | .addReplace _ _ => .done true none
  | .addReplaceOld key _ => .done true (m.lookup key)
  | .addReplaceNew _ new => .data (some new)
  | .addNoreplace key _ => .done (m.lookup key).isNone none
  | .addNoreplaceNew key new => .data (if (m.lookup key).isSome then none else some new)
  | .findOrNew key new => .data (some ((m.lookup key).getD new))
  | .find key => .data (m.lookup key)
  | .remove key => .done (m.lookup key).isSome none
  | .removeFill key => .done (m.lookup key).isSome (m.lookup key)
  | .removeAll | .gotoStart | .releaseIter => .done true none
  | .size => .size m.keys.length

def HashCall.answers (m : HashMapOf Key Data) : List (HashCall Key Data) → List (HashAnswer Data)
  | [] => []
  | c :: cs => c.answer m :: HashCall.answers (c.onMap m) cs

/-- The buckets that a call may ask for are counted in 32 bits. -/
def HashCall.Fits (m : HashMapOf Key Data) (c : HashCall Key Data) : Prop :=
  (c.onMap m).keys.length ≤ 2 ^ 30

instance (m : HashMapOf Key Data) (c : HashCall Key Data) : Decidable (c.Fits m) :=
  inferInstanceAs (Decidable (_ ≤ _))

end Calls

/-! The calls on top of a search and a put, whatever is known of the arrays. -/

section Shared
variable {Key Data : Type} [DecidableEq Key] {hash : Key → BitVec 32}

/-- A search for the key comes to its data, or to the end. -/
inductive Search (hash : Key → BitVec 32) (h : KhA Key Data) (key : Key) : Option Data → Prop where
  | found {k : Nat} {old : Data} (run : kh_get_A hash h key = some k) (inside : k ≠ h.n_buckets)
      (value : kh_value h k = some old) : Search hash h key (some old)
  | missing (run : kh_get_A hash h key = some h.n_buckets) : Search hash h key none

variable {t : TwKHash32 Key Data} {key : Key} {d : Data} {old : Option Data} {P : KhA Key Data → Prop}

theorem Search.find (search : Search hash t.KHASHMAP key old) : t.find hash key = some old := by
  cases search with
  | found run inside value => simp [TwKHash32.find, run, inside, value]
  | missing run => simp [TwKHash32.find, run]

theorem Search.addOver (search : Search hash t.KHASHMAP key old)
    (replaces : ∀ k, kh_get_A hash t.KHASHMAP key = some k → k ≠ t.KHASHMAP.n_buckets →
      ∃ h', kh_set_value t.KHASHMAP k d = some h' ∧ P h')
    (new : old = none → ∃ t', t.putNew hash key d = some t' ∧ P t'.KHASHMAP) :
    ∃ t', t.addOver hash key d = some (t', old) ∧ P t'.KHASHMAP := by
  cases search with
  | found run inside value =>
    obtain ⟨h', set, holds'⟩ := replaces _ run inside
    refine ⟨{ t with KHASHMAP := h' }, ?_, holds'⟩
    simp [TwKHash32.addOver, TwKHash32.replace, run, inside, value, set]
  | missing run =>
    obtain ⟨t', done, holds'⟩ := new rfl
    exact ⟨t', by simp [TwKHash32.addOver, run, done], holds'⟩

theorem Search.addUnder (search : Search hash t.KHASHMAP key old)
    (kept : old.isSome → P t.KHASHMAP)
    (new : old = none → ∃ t', t.putNew hash key d = some t' ∧ P t'.KHASHMAP) :
    ∃ t' k, t.addUnder hash key d = some (t', k) ∧ P t'.KHASHMAP ∧
      k.map (kh_value t'.KHASHMAP) = old.map some := by
  cases search with
  | @found k _ run inside value =>
    exact ⟨t, some k, by simp [TwKHash32.addUnder, run, inside], kept rfl, by simp [value]⟩
  | missing run =>
    obtain ⟨t', done, holds'⟩ := new rfl
    exact ⟨t', none, by simp [TwKHash32.addUnder, run, done], holds', rfl⟩

theorem call_over {t' : TwKHash32 Key Data} (run : t.addOver hash key d = some (t', old)) :
    t.call hash (.addReplace key d) = some (t', .done true none) ∧
      t.call hash (.addReplaceOld key d) = some (t', .done true old) ∧
      t.call hash (.addReplaceNew key d) = some (t', .data (some d)) := by
  simp [TwKHash32.call, TwKHash32.addReplace, TwKHash32.addReplaceOld, TwKHash32.addReplaceNew, run]

theorem call_under {t' : TwKHash32 Key Data} {k : Option Nat}
    (run : t.addUnder hash key d = some (t', k)) (value : k.map (kh_value t'.KHASHMAP) = old.map some) :
    t.call hash (.addNoreplace key d) = some (t', .done old.isNone none) ∧
      t.call hash (.addNoreplaceNew key d) =
        some (t', .data (if old.isSome then none else some d)) ∧
      t.call hash (.findOrNew key d) = some (t', .data (some (old.getD d))) := by
  cases k <;> cases old <;>
    simp_all [TwKHash32.call, TwKHash32.addNoreplace, TwKHash32.addNoreplaceNew, TwKHash32.findOrNew]

omit [DecidableEq Key] in
theorem releaseIter_table (t : TwKHash32 Key Data) : t.releaseIter.KHASHMAP = t.KHASHMAP := by
  rw [TwKHash32.releaseIter]
  split <;> rfl

omit [DecidableEq Key] in
theorem init_holds (hash : Key → BitVec 32) (empty : P kh_init_A)
    (resized : ∀ {asked}, Sized (rounded asked) →
      (kh_init_A : KhA Key Data).size < ac_upper (rounded asked) →
      ∃ h', kh_resize_A hash kh_init_A asked = some h' ∧ P h')
    {items : Nat} (int : items < 2 ^ 31) :
    ∃ t : TwKHash32 Key Data, TwKHash32.init hash items = some t ∧ P t.KHASHMAP := by
  by_cases more : items > 0
  · have sized := rounded_sized more (by omega : items ≤ 2 ^ 31)
    have big := sized.pos
    have enough : (kh_init_A : KhA Key Data).size < ac_upper (rounded items) := by
      show 0 < ac_upper (rounded items)
      unfold ac_upper
      omega
    obtain ⟨h', run, holds'⟩ := resized sized enough
    exact ⟨⟨h', 0⟩, by simp [TwKHash32.init, more, run], holds'⟩
  · exact ⟨⟨kh_init_A, 0⟩, by simp [TwKHash32.init, more], empty⟩

end Shared

section Correct
variable {Key Data : Type} [DecidableEq Key] {hash : Key → BitVec 32}

def Represents (hash : Key → BitVec 32) (h : KhA Key Data) (m : HashMapOf Key Data) : Prop :=
  ∃ T, Stores hash h T ∧ ∀ key val, (key, val) ∈ entries h.n_buckets T ↔
    ∃ d, val = some d ∧ m.lookup key = some d

variable {h : KhA Key Data} {m : HashMapOf Key Data} {key : Key}

theorem represents_keys {T : Nat → Slot Key (Option Data)}
    (same : ∀ key val, (key, val) ∈ entries h.n_buckets T ↔ ∃ d, val = some d ∧ m.lookup key = some d)
    (key : Key) : key ∈ keys h.n_buckets T ↔ key ∈ m.keys := by
  rw [← AList.mem_keys, ← AList.lookup_isSome, keys, List.mem_map]
  constructor
  · rintro ⟨⟨k, val⟩, member, eq⟩
    obtain rfl : k = key := eq
    obtain ⟨d, _, found⟩ := (same _ _).mp member
    rw [found]
    rfl
  · intro there
    obtain ⟨d, found⟩ := Option.isSome_iff_exists.mp there
    exact ⟨(key, some d), (same _ _).mpr ⟨d, rfl, found⟩, rfl⟩

theorem represents_size (holds : Represents hash h m) : h.size = m.keys.length := by
  obtain ⟨T, stores, same⟩ := holds
  have perm : (keys h.n_buckets T).Perm m.keys :=
    (List.perm_ext_iff_of_nodup stores.table.nodup m.keys_nodup).mpr (represents_keys same)
  rw [stores.size, ← perm.length_eq, keys, List.length_map]

theorem represents_init (hash : Key → BitVec 32) :
    Represents hash (kh_init_A : KhA Key Data) ∅ := by
  refine ⟨_, init_stores hash, ?_⟩
  intro key val
  simp [kh_init_A, entries]

theorem represents_resize (holds : Represents hash h m) {asked : Nat} (sized : Sized (rounded asked))
    (enough : h.size < ac_upper (rounded asked)) :
    ∃ h', kh_resize_A hash h asked = some h' ∧ Represents hash h' m := by
  obtain ⟨T, stores, same⟩ := holds
  obtain ⟨h', T', run, stores', buckets, _, _, perm⟩ := resize_spec stores sized enough
  refine ⟨h', run, T', stores', ?_⟩
  intro key val
  rw [buckets, perm.mem_iff]
  exact same key val

theorem represents_search (holds : Represents hash h m) (key : Key) :
    Search hash h key (m.lookup key) := by
  obtain ⟨T, stores, same⟩ := holds
  rcases get_spec stores key with ⟨k, val, run, bound, is⟩ | ⟨run, absent⟩
  · obtain ⟨d, rfl, found⟩ := (same key val).mp (mem_entries.mpr ⟨k, bound, is⟩)
    have shown := stores.shown k bound
    rw [is] at shown
    have value : kh_value h k = some d := by
      rw [kh_value, shown.2.2]
      rfl
    rw [found]
    exact .found run (Nat.ne_of_lt bound) value
  · rw [represents_keys same, ← AList.mem_keys] at absent
    rw [AList.lookup_eq_none.mpr absent]
    exact .missing run

theorem represents_set (holds : Represents hash h m) {key : Key} {k : Nat}
    (run : kh_get_A hash h key = some k) (found : k ≠ h.n_buckets) (d : Data) :
    ∃ h', kh_set_value h k d = some h' ∧ Represents hash h' (m.insert key d) := by
  obtain ⟨T, stores, same⟩ := holds
  rcases get_spec stores key with ⟨k', val, run', bound, is⟩ | ⟨run', _⟩
  · obtain rfl : k = k' := Option.some.inj (run.symm.trans run')
    have in_vals : k < h.vals.length := by rwa [stores.vals_length]
    refine ⟨_, if_pos in_vals, _, stores.set_value bound is (some d), ?_⟩
    intro key' val'
    have before := entries_at (T := T) bound
    rw [is] at before
    have once := (before.map Prod.fst).nodup_iff.mp stores.table.nodup
    have after := entries_set (T := T) bound (.live key (some d))
    refine (after.mem_iff).trans ?_
    have member := same key' val'
    rw [before.mem_iff] at member
    simp only [Slot.entry, Option.toList_some, List.cons_append, List.nil_append,
      List.mem_cons] at member ⊢
    by_cases eq : key' = key
    · subst eq
      have unique : (key', val') ∉ others h.n_buckets k T := by
        intro twice
        exact (List.nodup_cons.mp once).1 (List.mem_map.mpr ⟨_, twice, rfl⟩)
      rw [AList.lookup_insert]
      simp only [unique, or_false, Prod.mk.injEq, true_and]
      constructor
      · intro v
        exact ⟨d, v, rfl⟩
      · rintro ⟨_, v, eq⟩
        exact v.trans (eq ▸ rfl)
    · rw [AList.lookup_insert_ne eq, ← member]
      simp [eq]
  · exact absurd (Option.some.inj (run.symm.trans run')) found

theorem represents_put (holds : Represents hash h m) {key : Key} (absent : m.lookup key = none)
    (few : m.keys.length < 2 ^ 30) (d : Data) :
    ∃ h' h'' k r, kh_put_A hash h key = some (h', k, r) ∧ kh_set_value h' k d = some h'' ∧
      Represents hash h'' (m.insert key d) := by
  have size := represents_size holds
  obtain ⟨T, stores, same⟩ := holds
  have fresh : key ∉ keys h.n_buckets T := by
    rw [represents_keys same, ← AList.mem_keys]
    exact AList.lookup_eq_none.mp absent
  obtain ⟨h', T', k, r, val, run, _, stores', bound, is, perm⟩ :=
    put_absent stores (by omega) fresh
  have in_vals : k < h'.vals.length := by rwa [stores'.vals_length]
  refine ⟨h', _, k, r, run, if_pos in_vals, _, stores'.set_value bound is (some d), ?_⟩
  intro key' val'
  have before := entries_at (T := T') bound
  rw [is] at before
  have rest : (others h'.n_buckets k T').Perm (entries h.n_buckets T) :=
    (before.symm.trans perm).cons_inv
  refine ((entries_set (T := T') bound (.live key (some d))).mem_iff).trans ?_
  simp only [Slot.entry, Option.toList_some, List.cons_append, List.nil_append, List.mem_cons,
    rest.mem_iff, same key' val']
  by_cases eq : key' = key
  · subst eq
    rw [AList.lookup_insert]
    simp only [absent, reduceCtorEq, and_false, exists_false, or_false, Prod.mk.injEq, true_and]
    constructor
    · intro v
      exact ⟨d, v, rfl⟩
    · rintro ⟨_, v, eq⟩
      exact v.trans (eq ▸ rfl)
  · rw [AList.lookup_insert_ne eq]
    simp [eq]

theorem represents_del (holds : Represents hash h m) {key : Key} {k : Nat}
    (run : kh_get_A hash h key = some k) (found : k ≠ h.n_buckets) :
    ∃ h', kh_del_A h k = some h' ∧ Represents hash h' (m.erase key) := by
  obtain ⟨T, stores, same⟩ := holds
  rcases get_spec stores key with ⟨k', val, run', bound, is⟩ | ⟨run', _⟩
  · obtain rfl : k = k' := Option.some.inj (run.symm.trans run')
    obtain ⟨h', gone, stores', buckets, _⟩ := del_spec stores bound is
    refine ⟨h', gone, _, stores', ?_⟩
    intro key' val'
    have lost := entries_remove bound is
    have once := (lost.map Prod.fst).nodup_iff.mp stores.table.nodup
    have member := same key' val'
    rw [lost.mem_iff, List.mem_cons] at member
    rw [buckets]
    by_cases eq : key' = key
    · subst eq
      rw [AList.lookup_erase]
      simp only [reduceCtorEq, and_false, exists_false, iff_false]
      intro twice
      exact (List.nodup_cons.mp once).1 (List.mem_map.mpr ⟨_, twice, rfl⟩)
    · rw [AList.lookup_erase_ne eq, ← member]
      simp [eq]
  · exact absurd (Option.some.inj (run.symm.trans run')) found

theorem represents_clear (holds : Represents hash h m) :
    ∃ h', kh_clear_A h = some h' ∧ Represents hash h' ∅ := by
  obtain ⟨T, stores, same⟩ := holds
  obtain ⟨h', run, stores', _⟩ := clear_spec stores
  refine ⟨h', run, _, stores', ?_⟩
  intro key val
  rw [mem_entries]
  simp

omit [DecidableEq Key] in
theorem stores_deletes {T : Nat → Slot Key (Option Data)} (stores : Stores hash h T)
    (valued : ∀ key val, (key, val) ∈ entries h.n_buckets T → val.isSome) :
    (List.range h.n_buckets).forM (TwKHash32.deleteAt h) = some () := by
  have each : ∀ k ∈ List.range h.n_buckets, TwKHash32.deleteAt h k = some () := by
    intro k member
    have bound := List.mem_range.mp member
    have shown := stores.shown k bound
    have either := shown_iseither shown
    cases is : T k with
    | empty =>
      rw [is] at either
      simp [TwKHash32.deleteAt, either, Slot.entry]
    | deleted =>
      rw [is] at either
      simp [TwKHash32.deleteAt, either, Slot.entry]
    | live key val =>
      rw [is] at either shown
      have there := valued key val (mem_entries.mpr ⟨k, bound, is⟩)
      obtain ⟨d, rfl⟩ := Option.isSome_iff_exists.mp there
      simp [TwKHash32.deleteAt, either, Slot.entry, kh_value, shown.2.1, shown.2.2]
  generalize List.range h.n_buckets = ks at each
  induction ks with
  | nil => rfl
  | cons k ks ih =>
    obtain ⟨first, others⟩ := List.forall_mem_cons.mp each
    change (TwKHash32.deleteAt h k).bind (fun _ => ks.forM (TwKHash32.deleteAt h)) = some ()
    rw [first]
    exact ih others

theorem represents_deletes (holds : Represents hash h m) :
    (List.range h.n_buckets).forM (TwKHash32.deleteAt h) = some () := by
  obtain ⟨T, stores, same⟩ := holds
  apply stores_deletes stores
  intro key val member
  obtain ⟨d, rfl, _⟩ := (same key val).mp member
  rfl

theorem insert_length (absent : m.lookup key = none) (d : Data) :
    (m.insert key d).keys.length = m.keys.length + 1 := by
  have missing : key ∉ m.keys := by
    rw [← AList.mem_keys]
    exact AList.lookup_eq_none.mp absent
  rw [AList.keys_insert, List.length_cons, List.erase_of_not_mem missing]

variable {t : TwKHash32 Key Data}

theorem represents_putNew (holds : Represents hash t.KHASHMAP m) (absent : m.lookup key = none) {d : Data}
    (fits : (m.insert key d).keys.length ≤ 2 ^ 30) :
    ∃ t', t.putNew hash key d = some t' ∧ Represents hash t'.KHASHMAP (m.insert key d) := by
  have one := insert_length absent d
  obtain ⟨h', h'', k, r, put, set, holds'⟩ := represents_put holds absent (by omega) d
  exact ⟨{ t with KHASHMAP := h'' }, by simp [TwKHash32.putNew, put, set], holds'⟩

omit [DecidableEq Key] in
/-- The iterator passes what holds no entry: it comes to the next one, or to the end. -/
theorem skip_spec {T : Nat → Slot Key (Option Data)} (stores : Stores hash h T) (fuel : Nat)
    {i : Nat} (inside : i ≤ h.n_buckets) (enough : h.n_buckets - i < fuel) :
    ∃ k, TwKHash32.skip h fuel i = some k ∧ i ≤ k ∧ k ≤ h.n_buckets ∧
      entriesFrom h.n_buckets i T = entriesFrom h.n_buckets k T ∧
      (k = h.n_buckets ∨ ∃ key val, T k = .live key val) := by
  induction fuel generalizing i with
  | zero => cases enough
  | succ fuel ih =>
    rw [TwKHash32.skip]
    by_cases last : i = h.n_buckets
    · rw [if_pos last]
      exact ⟨i, rfl, Nat.le_refl i, inside, rfl, Or.inl last⟩
    · rw [if_neg last]
      have step := entriesFrom_step (n := h.n_buckets) (i := i) (by omega) T
      have either := shown_iseither (stores.shown i (by omega))
      rw [either]
      cases is : (T i).entry with
      | none =>
        obtain ⟨k, run, after, before, same, at_k⟩ := ih (i := i + 1) (by omega) (by omega)
        rw [is] at step
        exact ⟨k, run, by omega, before, step.trans same, at_k⟩
      | some e =>
        refine ⟨i, rfl, Nat.le_refl i, inside, rfl, Or.inr ⟨e.1, e.2, ?_⟩⟩
        exact entry_some.mp is

theorem represents_addOver (holds : Represents hash t.KHASHMAP m) (key : Key) (d : Data)
    (fits : (m.insert key d).keys.length ≤ 2 ^ 30) :
    ∃ t', t.addOver hash key d = some (t', m.lookup key) ∧
      Represents hash t'.KHASHMAP (m.insert key d) :=
  (represents_search holds key).addOver (fun _ run found => represents_set holds run found d)
    fun absent => represents_putNew holds absent fits

theorem represents_addUnder (holds : Represents hash t.KHASHMAP m) (key : Key) (d : Data)
    (fits : (if (m.lookup key).isSome then m else m.insert key d).keys.length ≤ 2 ^ 30) :
    ∃ t' k, t.addUnder hash key d = some (t', k) ∧
      Represents hash t'.KHASHMAP (if (m.lookup key).isSome then m else m.insert key d) ∧
      k.map (kh_value t'.KHASHMAP) = (m.lookup key).map some := by
  refine (represents_search holds key).addUnder (P := fun h => Represents hash h _) ?_ ?_
  · intro there
    rwa [if_pos there]
  · intro absent
    rw [absent] at fits ⊢
    exact represents_putNew holds absent fits

theorem represents_takeOut (holds : Represents hash t.KHASHMAP m) (key : Key) :
    ∃ t', t.takeOut hash key = some (t', m.lookup key) ∧ Represents hash t'.KHASHMAP (m.erase key) := by
  have search := represents_search holds key
  generalize is : m.lookup key = old at search
  cases search with
  | found run found value =>
    obtain ⟨h', done, holds'⟩ := represents_del holds run found
    refine ⟨{ t with KHASHMAP := h' }, ?_, holds'⟩
    simp [TwKHash32.takeOut, run, found, value, done]
  | missing run =>
    have same : m.erase key = m :=
      AList.ext (List.kerase_of_notMem_keys (AList.lookup_eq_none.mp is))
    rw [same]
    exact ⟨t, by simp [TwKHash32.takeOut, run], holds⟩

/-- One call: the table answers as the map does, and is the changed map's table. -/
theorem call_represents (holds : Represents hash t.KHASHMAP m) {c : HashCall Key Data}
    (fits : c.Fits m) :
    ∃ t', t.call hash c = some (t', c.answer m) ∧ Represents hash t'.KHASHMAP (c.onMap m) := by
  cases c with
  | addReplace key d =>
    obtain ⟨t', run, holds'⟩ := represents_addOver holds key d fits
    exact ⟨t', (call_over run).1, holds'⟩
  | addReplaceOld key d =>
    obtain ⟨t', run, holds'⟩ := represents_addOver holds key d fits
    exact ⟨t', (call_over run).2.1, holds'⟩
  | addReplaceNew key d =>
    obtain ⟨t', run, holds'⟩ := represents_addOver holds key d fits
    exact ⟨t', (call_over run).2.2, holds'⟩
  | addNoreplace key d =>
    obtain ⟨t', k, run, holds', value⟩ := represents_addUnder holds key d fits
    exact ⟨t', (call_under run value).1, holds'⟩
  | addNoreplaceNew key d =>
    obtain ⟨t', k, run, holds', value⟩ := represents_addUnder holds key d fits
    exact ⟨t', (call_under run value).2.1, holds'⟩
  | findOrNew key d =>
    obtain ⟨t', k, run, holds', value⟩ := represents_addUnder holds key d fits
    exact ⟨t', (call_under run value).2.2, holds'⟩
  | find key =>
    refine ⟨t, ?_, holds⟩
    rw [TwKHash32.call, (represents_search holds key).find]
    rfl
  | remove key =>
    obtain ⟨t', run, holds'⟩ := represents_takeOut holds key
    exact ⟨t', by simp [TwKHash32.call, TwKHash32.remove, run, HashCall.answer], holds'⟩
  | removeFill key =>
    obtain ⟨t', run, holds'⟩ := represents_takeOut holds key
    exact ⟨t', by simp [TwKHash32.call, TwKHash32.removeFill, run, HashCall.answer], holds'⟩
  | removeAll =>
    obtain ⟨h', done, holds'⟩ := represents_clear holds
    refine ⟨{ t with KHASHMAP := h' }, ?_, holds'⟩
    simp [TwKHash32.call, TwKHash32.removeAll, represents_deletes holds, done, HashCall.answer]
  | size =>
    exact ⟨t, by simp [TwKHash32.call, TwKHash32.size, HashCall.answer, represents_size holds], holds⟩
  | gotoStart =>
    obtain ⟨T, stores, _⟩ := id holds
    obtain ⟨k, run, _⟩ := skip_spec stores (t.KHASHMAP.n_buckets + 1) (Nat.zero_le _) (by omega)
    refine ⟨{ t with iterators_out := t.iterators_out + 1 }, ?_, holds⟩
    simp [TwKHash32.call, TwKHash32.gotoStart, run, HashCall.answer]
  | releaseIter =>
    refine ⟨t.releaseIter, by simp [TwKHash32.call, HashCall.answer], ?_⟩
    rwa [releaseIter_table]

theorem runs_represent {cs : List (HashCall Key Data)}
    (holds : Represents hash t.KHASHMAP m)
    (fits : Runs.Checked HashCall.Fits HashCall.onMap m cs) :
    ∃ t', t.runs hash cs = some (t', HashCall.answers m cs) ∧
      Represents hash t'.KHASHMAP (cs.foldl HashCall.onMap m) := by
  induction cs generalizing t m with
  | nil => exact ⟨t, rfl, holds⟩
  | cons c cs ih =>
    obtain ⟨first, others⟩ := fits
    obtain ⟨t', run, holds'⟩ := call_represents holds first
    obtain ⟨t'', run', holds''⟩ := ih holds' others
    refine ⟨t'', ?_, holds''⟩
    simp only [TwKHash32.runs, run, run', Option.bind_eq_bind, Option.bind_some]
    rfl

omit [DecidableEq Key] in
theorem walk_spec {T : Nat → Slot Key (Option Data)} (stores : Stores hash t.KHASHMAP T)
    (valued : ∀ key val, (key, val) ∈ entries t.KHASHMAP.n_buckets T → val.isSome)
    (fuel : Nat) {iter : Nat} (inside : iter ≤ t.KHASHMAP.n_buckets) (enough : t.KHASHMAP.n_buckets - iter < fuel)
    (at_iter : iter = t.KHASHMAP.n_buckets ∨ ∃ key val, T iter = .live key val) :
    ∃ l, t.walk fuel iter = some l ∧
      l.map (fun e => (e.1, some e.2)) = entriesFrom t.KHASHMAP.n_buckets iter T := by
  induction fuel generalizing iter with
  | zero => cases enough
  | succ fuel ih =>
    rw [TwKHash32.walk]
    by_cases last : iter = t.KHASHMAP.n_buckets
    · refine ⟨[], by simp [TwKHash32.atEnd, last], ?_⟩
      rw [last, entriesFrom_end]
      rfl
    · obtain ⟨key, val, is⟩ := at_iter.resolve_left last
      have bound : iter < t.KHASHMAP.n_buckets := by omega
      have there := valued key val (mem_entries.mpr ⟨iter, bound, is⟩)
      obtain ⟨d, rfl⟩ := Option.isSome_iff_exists.mp there
      have shown := stores.shown iter bound
      rw [is] at shown
      obtain ⟨_, at_key, at_val⟩ := shown
      have keyed : t.iterKey iter = some (some key) := by
        simp [TwKHash32.iterKey, last, at_key]
      have data : t.iterData iter = some (some d) := by
        simp [TwKHash32.iterData, last, kh_value, at_val]
      obtain ⟨k, run, after, before, same, at_k⟩ :=
        skip_spec stores (t.KHASHMAP.n_buckets + 1) (i := iter + 1) (by omega) (by omega)
      have next : t.getNext iter = some (k, k != t.KHASHMAP.n_buckets) := by
        simp [TwKHash32.getNext, last, run]
      obtain ⟨l, rest, seen⟩ := ih before (by omega) at_k
      refine ⟨(key, d) :: l, ?_, ?_⟩
      · simp [TwKHash32.atEnd, last, keyed, data, next, rest]
      · rw [entriesFrom_step bound, is, same, List.map_cons, seen]
        rfl

omit [DecidableEq Key] in
theorem stores_visited {T : Nat → Slot Key (Option Data)} (stores : Stores hash t.KHASHMAP T)
    (valued : ∀ key val, (key, val) ∈ entries t.KHASHMAP.n_buckets T → val.isSome) :
    ∃ l, t.visited = some l ∧
      l.map (fun e => (e.1, some e.2)) = entries t.KHASHMAP.n_buckets T := by
  obtain ⟨k, run, _, before, skipped, at_k⟩ :=
    skip_spec stores (t.KHASHMAP.n_buckets + 1) (Nat.zero_le _) (by omega)
  obtain ⟨l, walked, seen⟩ := walk_spec (t := { t with iterators_out := t.iterators_out + 1 })
    stores valued (t.KHASHMAP.n_buckets + 1) before (by dsimp only; omega) at_k
  rw [← skipped, entriesFrom_zero] at seen
  refine ⟨l, ?_, seen⟩
  simp only [TwKHash32.visited, TwKHash32.gotoStart, run, Option.bind_eq_bind, Option.bind_some]
  exact walked

/-- A loop over the table sees each key of the map once, with its value. -/
theorem visited_spec (holds : Represents hash t.KHASHMAP m) :
    ∃ l, t.visited = some l ∧ l.Perm (m.entries.map fun e => (e.1, e.2)) := by
  obtain ⟨T, stores, same⟩ := holds
  have valued : ∀ key val, (key, val) ∈ entries t.KHASHMAP.n_buckets T → val.isSome := by
    intro key val member
    obtain ⟨d, rfl, _⟩ := (same key val).mp member
    rfl
  obtain ⟨l, walked, seen⟩ := stores_visited stores valued
  refine ⟨l, walked, ?_⟩
  have once : l.Nodup := by
    have keyed : (l.map Prod.fst).Nodup := by
      have mapped := congrArg (List.map Prod.fst) seen
      rw [List.map_map] at mapped
      exact mapped ▸ stores.table.nodup
    exact keyed.of_map
  have distinct : (m.entries.map fun e => (e.1, e.2)).Nodup := by
    have keyed : ((m.entries.map fun e => (e.1, e.2)).map Prod.fst).Nodup := by
      rw [List.map_map]
      exact m.keys_nodup
    exact keyed.of_map
  rw [List.perm_ext_iff_of_nodup once distinct]
  intro ⟨key, d⟩
  have member : (key, d) ∈ l ↔ (key, some d) ∈ entries t.KHASHMAP.n_buckets T := by
    rw [← seen, List.mem_map]
    constructor
    · exact fun there => ⟨_, there, rfl⟩
    · rintro ⟨⟨k', d'⟩, there, eq⟩
      cases eq
      exact there
  rw [member, same, List.mem_map]
  constructor
  · rintro ⟨d', eq, found⟩
    cases eq
    exact ⟨⟨key, d⟩, AList.mem_lookup_iff.mp found, rfl⟩
  · rintro ⟨⟨k', d'⟩, there, eq⟩
    cases eq
    exact ⟨_, rfl, AList.mem_lookup_iff.mpr there⟩

theorem init_represents (hash : Key → BitVec 32) {items : Nat} (int : items < 2 ^ 31) :
    ∃ t : TwKHash32 Key Data, TwKHash32.init hash items = some t ∧ Represents hash t.KHASHMAP ∅ :=
  init_holds hash (represents_init hash) (represents_resize (represents_init hash)) int

/-- Whatever the hash function, and whatever is put in, looked for and taken out: the table
    answers every call as a finite map does, no access is outside its arrays, and its
    loops end. -/
theorem answers_as_map (hash : Key → BitVec 32) {items : Nat} (int : items < 2 ^ 31)
    {cs : List (HashCall Key Data)} (fits : Runs.Checked HashCall.Fits HashCall.onMap ∅ cs) :
    ∃ t t', TwKHash32.init hash items = some t ∧
      t.runs hash cs = some (t', HashCall.answers ∅ cs) := by
  obtain ⟨t, made, empty⟩ := @init_represents Key Data _ hash items int
  obtain ⟨t', run, _⟩ := runs_represent empty fits
  exact ⟨t, t', made, run⟩

theorem answers_as_map_colliding :
    ∃ t t', TwKHash32.init (fun k : Nat => BitVec.ofNat 32 (k * 16)) 0 = some t ∧
      t.runs (fun k : Nat => BitVec.ofNat 32 (k * 16))
        [.addReplace 3 10, .addNoreplace 4 11, .addReplaceOld 3 12, .removeFill 4, .find 4, .size] =
      some (t', HashCall.answers ∅ [.addReplace 3 10, .addNoreplace 4 11, .addReplaceOld 3 12,
        .removeFill 4, .find 4, .size]) :=
  answers_as_map _ (by decide) (by decide)

/-- After any calls a loop with the iterator sees every key of the map once, with the value
    that it has in the map. -/
theorem loop_sees_map (hash : Key → BitVec 32) {items : Nat} (int : items < 2 ^ 31)
    {cs : List (HashCall Key Data)} (fits : Runs.Checked HashCall.Fits HashCall.onMap ∅ cs) :
    ∃ t t' l, TwKHash32.init hash items = some t ∧
      t.runs hash cs = some (t', HashCall.answers ∅ cs) ∧ t'.visited = some l ∧
      l.Perm ((cs.foldl HashCall.onMap ∅).entries.map fun e => (e.1, e.2)) := by
  obtain ⟨t, made, empty⟩ := @init_represents Key Data _ hash items int
  obtain ⟨t', run, holds⟩ := runs_represent empty fits
  obtain ⟨l, seen, perm⟩ := visited_spec holds
  exact ⟨t, t', l, made, run, seen, perm⟩

theorem loop_sees_map_growing :
    ∃ t t' l, TwKHash32.init (fun k : Nat => BitVec.ofNat 32 (k * 5)) 0 = some t ∧
      t.runs (fun k : Nat => BitVec.ofNat 32 (k * 5))
        [.addReplace 1 10, .addReplace 2 20, .addReplace 3 30, .remove 2, .addReplace 4 40] =
      some (t', HashCall.answers ∅
        [.addReplace 1 10, .addReplace 2 20, .addReplace 3 30, .remove 2, .addReplace 4 40]) ∧
      t'.visited = some l ∧
      l.Perm ((([.addReplace 1 10, .addReplace 2 20, .addReplace 3 30, .remove 2,
        .addReplace 4 40] : List (HashCall Nat Nat)).foldl HashCall.onMap ∅).entries.map
          fun e => (e.1, e.2)) :=
  loop_sees_map _ (by decide) (by decide)

end Correct

end GreaseLog
