import GreaseLog.NameIds
import GreaseLog.Lib.Runs

/- orderedTable (orderedTable.js): a plain object of items, an array of their ids and a
   counter, which every operation changes one after the other. -/
namespace GreaseLog

class TableValue (Value : Type) where
  truthy : Value → Bool
  /-- The properties of Object.prototype. -/
  builtin : JsString → Value
  builtin_truthy : ∀ o, truthy (builtin o) = true
  /-- What is found through a value that has been made the prototype of an object; none is
      a primitive value, which cannot be. -/
  through : Value → Option (JsString → Option Value)

def protoName : JsString := jsString "__proto__"

/-- A plain object: its own properties, and what a lookup finds in its prototype. -/
structure PlainObject (Value : Type) where
  own : AList fun _ : JsString => Value
  prototype : JsString → Option Value

section
variable {Value : Type} [TableValue Value]
open TableValue

namespace PlainObject

def new : PlainObject Value where
  own := ∅
  prototype o := if objectPrototype.contains o then some (builtin o) else none

def get (object : PlainObject Value) (o : JsString) : Option Value :=
  (object.own.lookup o).or (object.prototype o)

def set (object : PlainObject Value) (o : JsString) (v : Value) : PlainObject Value :=
  if o = protoName ∧ object.own.lookup o = none ∧ (object.prototype o).isSome then
    match through v with
    | some prototype => { object with prototype := prototype }
    | none => object
  else { object with own := object.own.insert o v }

def delete (object : PlainObject Value) (o : JsString) : PlainObject Value :=
  { object with own := object.own.erase o }

end PlainObject

inductive Returned (α : Type) where
  | null
  | single (a : α)
  | array (all : List α)

def Returned.of {α : Type} : List α → Returned α
  | [] => .null
  | [a] => .single a
  | all => .array all

structure OrderedTable (Value : Type) where
  cbs : PlainObject Value
  cborder : List JsString
  count : Int

namespace OrderedTable

def new : OrderedTable Value := ⟨.new, [], 0⟩

/-- The turn of add for one item, with the id that UUID.v1 gives. -/
def addOne (t : OrderedTable Value) (item : JsString × Value) : OrderedTable Value where
  cbs := t.cbs.set item.1 item.2
  cborder := t.cborder ++ [item.1]
  count := t.count + 1

def add (t : OrderedTable Value) (items : List (JsString × Value)) :
    OrderedTable Value × Returned JsString :=
  (items.foldl addOne t, .of (items.map Prod.fst))

def frontOne (t : OrderedTable Value) (item : JsString × Value) : OrderedTable Value where
  cbs := t.cbs.set item.1 item.2
  cborder := item.1 :: t.cborder
  count := t.count + 1

def addToFront (t : OrderedTable Value) (items : List (JsString × Value)) :
    OrderedTable Value × Returned JsString :=
  (items.foldl frontOne t, .of (items.map Prod.fst).reverse)

/-- An empty id is taken for one that is not there. -/
def replaceAdd (t : OrderedTable Value) (id : JsString) (item : Value) :
    OrderedTable Value × Option JsString :=
  let found := t.cborder.foldl (fun found o => if o = id then some o else found) none
  let known := found.any (· ≠ [])
  let cborder := if known then t.cborder else t.cborder ++ [id]
  ({ t with cborder := cborder, cbs := t.cbs.set id item }, found)

def removeOne (t : OrderedTable Value) (id : JsString) : OrderedTable Value × Option Value :=
  match t.cbs.get id with
  | some item =>
    if truthy item then
      ({ cbs := t.cbs.delete id, cborder := t.cborder.erase id, count := t.count - 1 }, some item)
    else (t, none)
  | none => (t, none)

def removeEach (t : OrderedTable Value) : List JsString → OrderedTable Value × List Value
  | [] => (t, [])
  | id :: ids =>
    let first := t.removeOne id
    let rest := first.1.removeEach ids
    (rest.1, first.2.toList ++ rest.2)

def remove (t : OrderedTable Value) (ids : List JsString) : OrderedTable Value × Returned Value :=
  let r := t.removeEach ids
  (r.1, .of r.2)

def removeAll (_ : OrderedTable Value) : OrderedTable Value := ⟨.new, [], 0⟩

def getList (t : OrderedTable Value) : List Value :=
  t.cborder.filterMap fun id => (t.cbs.get id).filter truthy

/-- cborder[n], for a number that is an array index; none is any other number. -/
def idAt (t : OrderedTable Value) (n : Option Nat) : Option JsString := n.bind (t.cborder[·]?)

def removeByOrder (t : OrderedTable Value) (n : Option Nat) :
    OrderedTable Value × Option Value :=
  match n, t.idAt n with
  | some n, some id =>
    if id ≠ [] then
      ({ cbs := t.cbs.delete id, cborder := t.cborder.eraseIdx n, count := t.count - 1 },
        t.cbs.get id)
    else (t, none)
  | _, _ => (t, none)

def replaceByOrder (t : OrderedTable Value) (n : Option Nat) (item : Value) :
    OrderedTable Value × Option Value :=
  match t.idAt n with
  | some id =>
    if id ≠ [] then
      match t.cbs.get id with
      | some old => if truthy old then ({ t with cbs := t.cbs.set id item }, some old) else (t, none)
      | none => (t, none)
    else (t, none)
  | none => (t, none)

def length (t : OrderedTable Value) : Int := t.count

end OrderedTable

/-- A call of one of the operations that change the table. Each item that is added comes with
    the id that is generated for it. -/
inductive TableCall (Value : Type) where
  | add (items : List (JsString × Value))
  | addToFront (items : List (JsString × Value))
  | replaceAdd (id : JsString) (item : Value)
  | replaceByOrder (n : Option Nat) (item : Value)
  | remove (ids : List JsString)
  | removeByOrder (n : Option Nat)
  | removeAll

namespace OrderedTable

def call (t : OrderedTable Value) : TableCall Value → OrderedTable Value
  | .add items => (t.add items).1
  | .addToFront items => (t.addToFront items).1
  | .replaceAdd id item => (t.replaceAdd id item).1
  | .replaceByOrder n item => (t.replaceByOrder n item).1
  | .remove ids => (t.remove ids).1
  | .removeByOrder n => (t.removeByOrder n).1
  | .removeAll => t.removeAll

/-- An id that UUID.v1 may give: no other one, and no string that is special. -/
def Unused (t : OrderedTable Value) (id : JsString) : Prop :=
  id ∉ t.cborder ∧ id ∉ t.cbs.own ∧ id ≠ [] ∧ id ∉ objectPrototype

def Unique (t : OrderedTable Value) : TableCall Value → Prop
  | .add items | .addToFront items =>
    (items.map Prod.fst).Nodup ∧ ∀ id ∈ items.map Prod.fst, t.Unused id
  | _ => True

/-- No id is in the order twice, the ids in it are the keys of the object, the counter is its
    length, and getList gives the item of each in its place. -/
structure Consistent (t : OrderedTable Value) : Prop where
  nodup : t.cborder.Nodup
  keys : ∀ id, id ∈ t.cborder ↔ id ∈ t.cbs.own
  counted : t.length = t.cborder.length
  listed : t.getList.map some = t.cborder.map fun id => t.cbs.own.lookup id

/-- No falsy item is stored, replaceAdd finds its id in the table, and remove is given no
    name of a property that every object has. -/
def Keeps (t : OrderedTable Value) : TableCall Value → Prop
  | .add items | .addToFront items => ∀ item ∈ items, truthy item.2 = true
  | .replaceAdd id item => id ∈ t.cborder ∧ truthy item = true
  | .replaceByOrder n item => ∀ id, t.idAt n = some id → truthy item = true
  | .remove ids => ∀ id ∈ ids, id ∉ objectPrototype
  | _ => True

structure Ordered (t : OrderedTable Value) : Prop where
  nodup : t.cborder.Nodup
  keys : ∀ id, id ∈ t.cborder ↔ id ∈ t.cbs.own

def AllTruthy (t : OrderedTable Value) : Prop :=
  ∀ id item, t.cbs.own.lookup id = some item → truthy item = true

structure Plain (t : OrderedTable Value) : Prop where
  prototype : t.cbs.prototype = (PlainObject.new : PlainObject Value).prototype
  ids : ∀ id ∈ t.cborder, id ≠ [] ∧ id ∉ objectPrototype

end OrderedTable

end

namespace OrderedTable
variable {Value : Type} {t s : OrderedTable Value}

theorem get_own {id : JsString} {item : Value} (own : t.cbs.own.lookup id = some item) :
    t.cbs.get id = some item := by
  rw [PlainObject.get, own]
  rfl

theorem Ordered.lookup (ordered : t.Ordered) {id : JsString} (mem : id ∈ t.cborder) :
    ∃ item, t.cbs.own.lookup id = some item := by
  have key := (ordered.keys id).mp mem
  exact Option.isSome_iff_exists.mp (AList.lookup_isSome.mpr key)

theorem Ordered.absent (ordered : t.Ordered) {id : JsString} (absent : id ∉ t.cborder) :
    t.cbs.own.lookup id = none := by
  rw [AList.lookup_eq_none, ← ordered.keys]
  exact absent

structure TakenOut (t : OrderedTable Value) (id : JsString) (s : OrderedTable Value) : Prop where
  cbs : s.cbs = t.cbs.delete id
  order : s.cborder = t.cborder.erase id
  count : s.count = t.count - 1

theorem TakenOut.ordered {id : JsString} (out : t.TakenOut id s) (ordered : t.Ordered) :
    s.Ordered := by
  constructor
  · rw [out.order]
    exact ordered.nodup.erase id
  · intro o
    rw [out.order, out.cbs, ordered.nodup.mem_erase_iff, PlainObject.delete, AList.mem_erase,
      ordered.keys]

theorem TakenOut.counted {id : JsString} (out : t.TakenOut id s) (mem : id ∈ t.cborder)
    (counted : t.length = t.cborder.length) : s.length = s.cborder.length := by
  have shorter := List.length_erase_of_mem mem
  have filled := List.length_pos_of_mem mem
  rw [length] at counted ⊢
  rw [out.count, out.order, shorter]
  omega

theorem TakenOut.lookup {id : JsString} (out : t.TakenOut id s) {o : JsString} {item : Value}
    (own : s.cbs.own.lookup o = some item) : t.cbs.own.lookup o = some item := by
  rw [out.cbs, PlainObject.delete] at own
  by_cases same : o = id
  · subst same
    rw [AList.lookup_erase] at own
    cases own
  · rw [AList.lookup_erase_ne same] at own
    exact own

theorem found_eq (order : List JsString) (id : JsString) (found : Option JsString)
    (before : found = none ∨ found = some id) :
    order.foldl (fun found o => if o = id then some o else found) found =
      if id ∈ order then some id else found := by
  induction order generalizing found with
  | nil => simp
  | cons o order ih =>
    rw [List.foldl_cons]
    by_cases same : o = id
    · subst same
      rw [if_pos rfl, ih (some o) (Or.inr rfl), if_pos List.mem_cons_self]
      simp
    · rw [if_neg same, ih found before]
      simp [Ne.symm same]

theorem forall_lookup_insert {own : AList fun _ : JsString => Value} {id : JsString} {item : Value}
    (good : Value → Prop) :
    (∀ o v, (own.insert id item).lookup o = some v → good v) ↔
      good item ∧ ∀ o v, o ≠ id → own.lookup o = some v → good v := by
  constructor
  · intro all
    constructor
    · exact all id item (AList.lookup_insert _)
    · intro o v other found
      exact all o v (by rw [AList.lookup_insert_ne other]; exact found)
  · intro ⟨itself, others⟩ o v found
    by_cases same : o = id
    · rw [same, AList.lookup_insert] at found
      rw [← Option.some.inj found]
      exact itself
    · rw [AList.lookup_insert_ne same] at found
      exact others o v same found

end OrderedTable

section
variable {Value : Type} [TableValue Value]
open TableValue

namespace PlainObject

theorem proto_special : protoName ∈ objectPrototype := by decide

theorem set_plain (object : PlainObject Value) {o : JsString} (plain : o ∉ objectPrototype)
    (v : Value) : object.set o v = { object with own := object.own.insert o v } := by
  have other : o ≠ protoName := by
    intro same
    rw [same] at plain
    exact plain proto_special
  rw [set, if_neg fun special => other special.1]

theorem set_own (object : PlainObject Value) {o : JsString} (own : o ∈ object.own) (v : Value) :
    object.set o v = { object with own := object.own.insert o v } := by
  have present : object.own.lookup o ≠ none := by
    rw [Ne, AList.lookup_eq_none, not_not]
    exact own
  rw [set, if_neg fun special => present special.2.1]

end PlainObject

namespace OrderedTable
variable {t s : OrderedTable Value}

/-- getList leaves out the falsy items. -/
theorem listed_iff (ordered : t.Ordered) :
    (t.getList.map some = t.cborder.map fun id => t.cbs.own.lookup id) ↔ t.AllTruthy := by
  constructor
  · intro listed id item own
    have mem := (ordered.keys id).mpr (AList.lookup_isSome.mp (by rw [own]; rfl))
    have whole : t.getList.length = t.cborder.length := by
      simpa only [List.length_map] using congrArg List.length listed
    have found := List.filterMap_length_eq_length.mp whole id mem
    rw [get_own own] at found
    simpa [Option.filter] using found
  · intro all
    rw [getList, List.map_filterMap]
    have each : ∀ id ∈ t.cborder, ((t.cbs.get id).filter truthy).map some =
        some (t.cbs.own.lookup id) := by
      intro id mem
      obtain ⟨item, own⟩ := ordered.lookup mem
      rw [get_own own, own]
      simp [Option.filter, all id item own]
    rw [List.filterMap_congr each, ← List.filterMap_eq_map]
    rfl

theorem consistent_iff :
    t.Consistent ↔ t.Ordered ∧ t.length = t.cborder.length ∧ t.AllTruthy := by
  constructor
  · rintro ⟨nodup, keys, counted, listed⟩
    have ordered : t.Ordered := ⟨nodup, keys⟩
    exact ⟨ordered, counted, (listed_iff ordered).mp listed⟩
  · rintro ⟨ordered, counted, all⟩
    exact ⟨ordered.nodup, ordered.keys, counted, (listed_iff ordered).mpr all⟩

theorem new_consistent : (new : OrderedTable Value).Consistent := by
  rw [consistent_iff]
  refine ⟨⟨List.nodup_nil, ?_⟩, rfl, ?_⟩
  · intro id
    simp [new, PlainObject.new]
  · intro id item own
    simp [new, PlainObject.new] at own

theorem new_plain : (new : OrderedTable Value).Plain := by
  constructor
  · rfl
  · intro id mem
    cases mem

/-! Adding. -/

structure Placed (t : OrderedTable Value) (item : JsString × Value) (s : OrderedTable Value) :
    Prop where
  cbs : s.cbs = t.cbs.set item.1 item.2
  order : s.cborder.Perm (item.1 :: t.cborder)
  count : s.count = t.count + 1

theorem addOne_placed (t : OrderedTable Value) (item : JsString × Value) :
    t.Placed item (t.addOne item) := by
  refine ⟨rfl, ?_, rfl⟩
  exact List.perm_append_singleton item.1 t.cborder

theorem frontOne_placed (t : OrderedTable Value) (item : JsString × Value) :
    t.Placed item (t.frontOne item) := ⟨rfl, List.Perm.refl _, rfl⟩

namespace Placed
variable {item : JsString × Value}

theorem own (placed : t.Placed item s) (unused : t.Unused item.1) :
    s.cbs = { t.cbs with own := t.cbs.own.insert item.1 item.2 } := by
  rw [placed.cbs, PlainObject.set_plain t.cbs unused.2.2.2]

theorem ordered (placed : t.Placed item s) (unused : t.Unused item.1) (ordered : t.Ordered) :
    s.Ordered := by
  constructor
  · rw [placed.order.nodup_iff, List.nodup_cons]
    exact ⟨unused.1, ordered.nodup⟩
  · intro id
    rw [placed.order.mem_iff, List.mem_cons, placed.own unused, AList.mem_insert, ordered.keys]

theorem counted (placed : t.Placed item s) (counted : t.length = t.cborder.length) :
    s.length = s.cborder.length := by
  have longer := placed.order.length_eq
  rw [length] at counted ⊢
  rw [placed.count, longer, List.length_cons]
  omega

theorem plain (placed : t.Placed item s) (unused : t.Unused item.1) (plain : t.Plain) :
    s.Plain := by
  constructor
  · rw [placed.own unused]
    exact plain.prototype
  · intro id mem
    rcases List.mem_cons.mp (placed.order.mem_iff.mp mem) with rfl | before
    · exact unused.2.2
    · exact plain.ids id before

theorem allTruthy_iff (placed : t.Placed item s) (unused : t.Unused item.1) :
    s.AllTruthy ↔ t.AllTruthy ∧ truthy item.2 = true := by
  unfold AllTruthy
  rw [placed.own unused, forall_lookup_insert (truthy · = true), and_comm]
  refine and_congr_left fun _ => ⟨?_, ?_⟩
  · intro others id v found
    refine others id v ?_ found
    intro same
    rw [same, AList.lookup_eq_none.mpr unused.2.1] at found
    cases found
  · intro all id v _ found
    exact all id v found

theorem unused (placed : t.Placed item s) (unused : t.Unused item.1) {id : JsString}
    (other : id ≠ item.1) (still : t.Unused id) : s.Unused id := by
  obtain ⟨absent, noKey, special⟩ := still
  refine ⟨?_, ?_, special⟩
  · rw [placed.order.mem_iff, List.mem_cons]
    exact not_or.mpr ⟨other, absent⟩
  · rw [placed.own unused, AList.mem_insert]
    exact not_or.mpr ⟨other, noKey⟩

end Placed

theorem placed_all {place : OrderedTable Value → JsString × Value → OrderedTable Value}
    (each : ∀ (t : OrderedTable Value) item, t.Placed item (place t item)) {items : List (JsString × Value)}
    (ordered : t.Ordered) (counted : t.length = t.cborder.length) (plain : t.Plain)
    (nodup : (items.map Prod.fst).Nodup) (unused : ∀ id ∈ items.map Prod.fst, t.Unused id) :
    (items.foldl place t).Ordered ∧
      (items.foldl place t).length = (items.foldl place t).cborder.length ∧
      (items.foldl place t).Plain ∧
      ((items.foldl place t).AllTruthy ↔ t.AllTruthy ∧ ∀ item ∈ items, truthy item.2 = true) := by
  induction items generalizing t with
  | nil => simp [ordered, counted, plain]
  | cons item items ih =>
    have placed := each t item
    have first := unused item.1 (by simp)
    rw [List.map_cons, List.nodup_cons] at nodup
    have others : ∀ id ∈ items.map Prod.fst, (place t item).Unused id := by
      intro id mem
      have other : id ≠ item.1 := by
        intro same
        exact nodup.1 (same ▸ mem)
      exact placed.unused first other (unused id (by simp [mem]))
    obtain ⟨ordered', counted', plain', all⟩ :=
      ih (placed.ordered first ordered) (placed.counted counted) (placed.plain first plain)
        nodup.2 others
    refine ⟨ordered', counted', plain', ?_⟩
    rw [List.foldl_cons, all, placed.allTruthy_iff first, List.forall_mem_cons, and_assoc]

theorem place_iff {place : OrderedTable Value → JsString × Value → OrderedTable Value}
    (each : ∀ (t : OrderedTable Value) item, t.Placed item (place t item))
    {items : List (JsString × Value)} (plain : t.Plain) (consistent : t.Consistent)
    (unique : t.Unique (.add items)) :
    ((items.foldl place t).Consistent ↔ ∀ item ∈ items, truthy item.2 = true) ∧
      (items.foldl place t).Plain := by
  obtain ⟨ordered, counted, all⟩ := consistent_iff.mp consistent
  obtain ⟨ordered', counted', plain', all'⟩ :=
    placed_all each ordered counted plain unique.1 unique.2
  refine ⟨?_, plain'⟩
  rw [consistent_iff, and_iff_right ordered', and_iff_right counted', all', and_iff_right all]

/-! Replacing. -/

structure Replaced (t : OrderedTable Value) (id : JsString) (item : Value)
    (s : OrderedTable Value) : Prop where
  cbs : s.cbs = t.cbs.set id item
  order : s.cborder = t.cborder
  count : s.count = t.count

namespace Replaced
variable {id : JsString} {item : Value}

theorem own (replaced : t.Replaced id item s) (ordered : t.Ordered) (mem : id ∈ t.cborder) :
    s.cbs = { t.cbs with own := t.cbs.own.insert id item } := by
  rw [replaced.cbs, PlainObject.set_own t.cbs ((ordered.keys id).mp mem)]

theorem ordered (replaced : t.Replaced id item s) (ordered : t.Ordered) (mem : id ∈ t.cborder) :
    s.Ordered := by
  constructor
  · rw [replaced.order]
    exact ordered.nodup
  · intro o
    rw [replaced.order, replaced.own ordered mem, AList.mem_insert, ← ordered.keys]
    constructor
    · exact Or.inr
    · rintro (rfl | there)
      · exact mem
      · exact there

theorem allTruthy_iff (replaced : t.Replaced id item s) (ordered : t.Ordered)
    (mem : id ∈ t.cborder) (all : t.AllTruthy) : s.AllTruthy ↔ truthy item = true := by
  unfold AllTruthy
  rw [replaced.own ordered mem, forall_lookup_insert (truthy · = true)]
  exact and_iff_left fun o v _ found => all o v found

theorem consistent_iff (replaced : t.Replaced id item s) (consistent : t.Consistent)
    (mem : id ∈ t.cborder) : s.Consistent ↔ truthy item = true := by
  obtain ⟨ordered, counted, all⟩ := OrderedTable.consistent_iff.mp consistent
  have counted' : s.length = s.cborder.length := by
    rw [length, replaced.count, replaced.order]
    exact counted
  rw [OrderedTable.consistent_iff, and_iff_right (replaced.ordered ordered mem),
    and_iff_right counted', replaced.allTruthy_iff ordered mem all]

theorem plain (replaced : t.Replaced id item s) (ordered : t.Ordered) (mem : id ∈ t.cborder)
    (plain : t.Plain) : s.Plain := by
  constructor
  · rw [replaced.own ordered mem]
    exact plain.prototype
  · rw [replaced.order]
    exact plain.ids

end Replaced

theorem Consistent.ordered (consistent : t.Consistent) : t.Ordered :=
  ⟨consistent.nodup, consistent.keys⟩

theorem replaceAdd_iff (plain : t.Plain) (consistent : t.Consistent) (id : JsString)
    (item : Value) :
    ((t.replaceAdd id item).1.Consistent ↔ id ∈ t.cborder ∧ truthy item = true) ∧
      (id ∈ t.cborder ∧ truthy item = true → (t.replaceAdd id item).1.Plain) := by
  have found := found_eq t.cborder id none (Or.inl rfl)
  by_cases mem : id ∈ t.cborder
  · have replaced : t.Replaced id item (t.replaceAdd id item).1 := by
      constructor <;> simp [replaceAdd, found, mem, (plain.ids id mem).1]
    rw [replaced.consistent_iff consistent mem]
    exact ⟨(and_iff_right mem).symm, fun _ => replaced.plain consistent.ordered mem plain⟩
  · constructor
    · refine iff_of_false ?_ fun both => mem both.1
      intro consistent'
      have counted := consistent.counted
      have counted' := consistent'.counted
      simp only [replaceAdd, found, if_neg mem, Option.any_none, Bool.false_eq_true, if_false,
        length, List.length_append, List.length_singleton] at counted counted'
      omega
    · rintro ⟨there, _⟩
      exact absurd there mem

theorem replaceByOrder_iff (plain : t.Plain) (consistent : t.Consistent) (n : Option Nat)
    (item : Value) :
    ((t.replaceByOrder n item).1.Consistent ↔
        ∀ id, t.idAt n = some id → truthy item = true) ∧
      (t.replaceByOrder n item).1.Plain := by
  obtain ⟨ordered, _, all⟩ := consistent_iff.mp consistent
  cases at_n : t.idAt n with
  | none =>
    simp only [replaceByOrder, at_n]
    exact ⟨iff_of_true consistent (by simp), plain⟩
  | some id =>
    obtain ⟨k, _, at_k⟩ := Option.bind_eq_some_iff.mp at_n
    have mem := List.mem_of_getElem? at_k
    obtain ⟨old, own⟩ := ordered.lookup mem
    have replaced : t.Replaced id item (t.replaceByOrder n item).1 := by
      constructor <;>
        simp [replaceByOrder, at_n, (plain.ids id mem).1, get_own own, all id old own]
    rw [replaced.consistent_iff consistent mem]
    exact ⟨by simp, replaced.plain ordered mem plain⟩

/-! Removing. -/

theorem TakenOut.consistent {id : JsString} (out : t.TakenOut id s) (mem : id ∈ t.cborder)
    (consistent : t.Consistent) : s.Consistent := by
  obtain ⟨ordered, counted, all⟩ := consistent_iff.mp consistent
  rw [consistent_iff]
  refine ⟨out.ordered ordered, out.counted mem counted, ?_⟩
  intro o item own
  exact all o item (out.lookup own)

theorem TakenOut.plain {id : JsString} (out : t.TakenOut id s) (plain : t.Plain) : s.Plain := by
  constructor
  · rw [out.cbs]
    exact plain.prototype
  · intro o mem
    rw [out.order] at mem
    exact plain.ids o (List.mem_of_mem_erase mem)

theorem removeOne_cases (t : OrderedTable Value) (id : JsString) :
    (t.TakenOut id (t.removeOne id).1 ∧ ∃ item, t.cbs.get id = some item ∧ truthy item = true) ∨
      (t.removeOne id = (t, none) ∧ ∀ item, t.cbs.get id = some item → truthy item ≠ true) := by
  unfold removeOne
  cases found : t.cbs.get id with
  | none => exact Or.inr ⟨rfl, by simp⟩
  | some item =>
    by_cases good : truthy item = true
    · simp only [good, if_true]
      exact Or.inl ⟨⟨rfl, rfl, rfl⟩, item, rfl, good⟩
    · simp only [good]
      exact Or.inr ⟨rfl, by simpa using good⟩

theorem removeOne_mem (ordered : t.Ordered) (all : t.AllTruthy) {id : JsString}
    (mem : id ∈ t.cborder) : t.TakenOut id (t.removeOne id).1 := by
  obtain ⟨item, own⟩ := ordered.lookup mem
  rcases removeOne_cases t id with ⟨out, _⟩ | ⟨_, falsy⟩
  · exact out
  · exact absurd (all id item own) (falsy item (get_own own))

theorem removeOne_absent (ordered : t.Ordered) (plain : t.Plain) {id : JsString}
    (absent : id ∉ t.cborder) (ordinary : id ∉ objectPrototype) : t.removeOne id = (t, none) := by
  have none : t.cbs.get id = none := by
    rw [PlainObject.get, ordered.absent absent, plain.prototype]
    simp [PlainObject.new, ordinary]
  rw [removeOne, none]

/-- The counter falls at least as fast as the order. -/
theorem removeOne_gap (t : OrderedTable Value) (id : JsString) :
    (t.cborder.length : Int) - t.count ≤
      ((t.removeOne id).1.cborder.length : Int) - (t.removeOne id).1.count := by
  rcases removeOne_cases t id with ⟨out, _⟩ | ⟨same, _⟩
  · have shorter : t.cborder.length ≤ (t.cborder.erase id).length + 1 := by
      rw [List.length_erase]
      split <;> omega
    rw [out.order, out.count]
    omega
  · rw [same]

theorem removeEach_gap (t : OrderedTable Value) (ids : List JsString) :
    (t.cborder.length : Int) - t.count ≤
      ((t.removeEach ids).1.cborder.length : Int) - (t.removeEach ids).1.count := by
  induction ids generalizing t with
  | nil => exact Int.le_refl _
  | cons id ids ih => exact Int.le_trans (removeOne_gap t id) (ih _)

/-- A name that every object has is counted as removed, though it was not there. -/
theorem removeOne_special (ordered : t.Ordered) (plain : t.Plain) {id : JsString}
    (special : id ∈ objectPrototype) :
    (t.removeOne id).1.count = t.count - 1 ∧ (t.removeOne id).1.cborder = t.cborder := by
  have absent : id ∉ t.cborder := by
    intro mem
    exact (plain.ids id mem).2 special
  have found : t.cbs.get id = some (builtin id) := by
    rw [PlainObject.get, ordered.absent absent, plain.prototype]
    simp [PlainObject.new, special]
  rw [removeOne, found]
  simp [builtin_truthy, List.erase_of_not_mem absent]

theorem remove_iff (plain : t.Plain) (consistent : t.Consistent) (ids : List JsString) :
    ((t.removeEach ids).1.Consistent ↔ ∀ id ∈ ids, id ∉ objectPrototype) ∧
      ((∀ id ∈ ids, id ∉ objectPrototype) → (t.removeEach ids).1.Plain) := by
  induction ids generalizing t with
  | nil => exact ⟨iff_of_true consistent (by simp), fun _ => plain⟩
  | cons id ids ih =>
    rw [List.forall_mem_cons]
    obtain ⟨ordered, counted, all⟩ := consistent_iff.mp consistent
    by_cases special : id ∈ objectPrototype
    · constructor
      · refine iff_of_false ?_ fun both => both.1 special
        intro consistent'
        obtain ⟨count, order⟩ := removeOne_special ordered plain special
        have gap := removeEach_gap (t.removeOne id).1 ids
        have counted' : (t.removeEach (id :: ids)).1.count =
            (t.removeEach (id :: ids)).1.cborder.length := consistent'.counted
        rw [removeEach] at counted'
        rw [length] at counted
        rw [count, order] at gap
        simp only at counted'
        omega
      · rintro ⟨ordinary, _⟩
        exact absurd special ordinary
    · have after : (t.removeOne id).1.Plain ∧ (t.removeOne id).1.Consistent := by
        by_cases mem : id ∈ t.cborder
        · have out := removeOne_mem ordered all mem
          exact ⟨out.plain plain, out.consistent mem consistent⟩
        · rw [removeOne_absent ordered plain mem special]
          exact ⟨plain, consistent⟩
      obtain ⟨good, plain'⟩ := ih after.1 after.2
      constructor
      · exact good.trans (and_iff_right special).symm
      · exact fun both => plain' both.2

theorem removeByOrder_keeps (plain : t.Plain) (consistent : t.Consistent) (n : Option Nat) :
    (t.removeByOrder n).1.Consistent ∧ (t.removeByOrder n).1.Plain := by
  cases at_n : t.idAt n with
  | none =>
    have none : t.removeByOrder n = (t, none) := by
      cases n <;> simp [removeByOrder, at_n]
    rw [none]
    exact ⟨consistent, plain⟩
  | some id =>
    obtain ⟨k, rfl, at_k⟩ := Option.bind_eq_some_iff.mp at_n
    have mem := List.mem_of_getElem? at_k
    obtain ⟨inside, is⟩ := List.getElem?_eq_some_iff.mp at_k
    have out : t.TakenOut id (t.removeByOrder (some k)).1 := by
      have cut : t.cborder.eraseIdx k = t.cborder.erase id := by
        rw [← is, consistent.nodup.erase_getElem]
      constructor <;> simp [removeByOrder, at_n, (plain.ids id mem).1, cut]
    exact ⟨out.consistent mem consistent, out.plain plain⟩

/-! The order alone. -/

def Named : TableCall Value → Prop
  | .replaceAdd id _ => id ≠ []
  | _ => True

theorem addOne_order (items : List (JsString × Value)) (t : OrderedTable Value) :
    (items.foldl addOne t).cborder = t.cborder ++ items.map Prod.fst := by
  induction items generalizing t with
  | nil => simp
  | cons item items ih =>
    rw [List.foldl_cons, ih, addOne, List.append_assoc]
    rfl

theorem frontOne_order (items : List (JsString × Value)) (t : OrderedTable Value) :
    (items.foldl frontOne t).cborder = (items.map Prod.fst).reverse ++ t.cborder := by
  induction items generalizing t with
  | nil => simp
  | cons item items ih =>
    rw [List.foldl_cons, ih, frontOne]
    simp

theorem removeEach_sublist (t : OrderedTable Value) (ids : List JsString) :
    (t.removeEach ids).1.cborder.Sublist t.cborder := by
  induction ids generalizing t with
  | nil => exact List.Sublist.refl _
  | cons id ids ih =>
    have first : (t.removeOne id).1.cborder.Sublist t.cborder := by
      rcases removeOne_cases t id with ⟨out, _⟩ | ⟨same, _⟩
      · rw [out.order]
        exact List.erase_sublist
      · rw [same]
    exact (ih _).trans first

theorem call_nodup {c : TableCall Value} (nodup : t.cborder.Nodup) (unique : t.Unique c)
    (named : Named c) : (t.call c).cborder.Nodup := by
  cases c with
  | add items =>
    rw [call, add, addOne_order]
    refine nodup.append unique.1 ?_
    intro id mem new
    exact (unique.2 id new).1 mem
  | addToFront items =>
    rw [call, addToFront, frontOne_order]
    refine (List.nodup_reverse.mpr unique.1).append nodup ?_
    intro id new mem
    exact (unique.2 id (List.mem_reverse.mp new)).1 mem
  | replaceAdd id item =>
    have found := found_eq t.cborder id none (Or.inl rfl)
    by_cases mem : id ∈ t.cborder
    · have known : id ≠ [] := named
      simpa [call, replaceAdd, found, mem, known] using nodup
    · have grown : (t.call (.replaceAdd id item)).cborder = t.cborder ++ [id] := by
        simp [call, replaceAdd, found, mem]
      rw [grown]
      simpa using nodup.concat mem
  | replaceByOrder n item =>
    have same : (t.call (.replaceByOrder n item)).cborder = t.cborder := by
      rw [call, replaceByOrder]
      split
      · split
        · split
          · split <;> rfl
          · rfl
        · rfl
      · rfl
    rw [same]
    exact nodup
  | remove ids => exact nodup.sublist (removeEach_sublist t ids)
  | removeByOrder n =>
    have part : (t.call (.removeByOrder n)).cborder.Sublist t.cborder := by
      cases at_n : t.idAt n with
      | none => cases n <;> simp [call, removeByOrder, at_n]
      | some id =>
        obtain ⟨k, rfl, _⟩ := Option.bind_eq_some_iff.mp at_n
        by_cases known : id = []
        · simp [call, removeByOrder, at_n, known]
        · simpa [call, removeByOrder, at_n, known] using List.eraseIdx_sublist t.cborder k
    exact nodup.sublist part
  | removeAll => exact List.nodup_nil

/-- No id comes to be in the order twice, whatever items are stored, as long as replaceAdd is
    not given an empty id. -/
theorem run_nodup {calls : List (TableCall Value)}
    (checked : Runs.Checked (fun t c => t.Unique c ∧ Named c) call new calls) :
    (calls.foldl call new).cborder.Nodup := by
  have run : Runs.Run (fun t c s => (Unique t c ∧ Named c) ∧ s = call t c) new calls
      (calls.foldl call new) := Runs.run_checked (fun _ _ allowed => ⟨allowed, rfl⟩) checked
  refine Runs.run_invariant (fun t : OrderedTable Value => t.cborder.Nodup) List.nodup_nil ?_ run
  rintro t c s nodup ⟨⟨unique, named⟩, rfl⟩
  exact call_nodup nodup unique named

/-! All the calls. -/

theorem call_iff (plain : t.Plain) (consistent : t.Consistent) (c : TableCall Value)
    (unique : t.Unique c) :
    ((t.call c).Consistent ↔ t.Keeps c) ∧ (t.Keeps c → (t.call c).Plain) := by
  cases c with
  | add items =>
    obtain ⟨good, plain'⟩ := place_iff addOne_placed plain consistent unique
    exact ⟨good, fun _ => plain'⟩
  | addToFront items =>
    obtain ⟨good, plain'⟩ := place_iff frontOne_placed plain consistent unique
    exact ⟨good, fun _ => plain'⟩
  | replaceAdd id item => exact replaceAdd_iff plain consistent id item
  | replaceByOrder n item =>
    obtain ⟨good, plain'⟩ := replaceByOrder_iff plain consistent n item
    exact ⟨good, fun _ => plain'⟩
  | remove ids => exact remove_iff plain consistent ids
  | removeByOrder n =>
    obtain ⟨good, plain'⟩ := removeByOrder_keeps plain consistent n
    exact ⟨iff_of_true good trivial, fun _ => plain'⟩
  | removeAll => exact ⟨iff_of_true new_consistent trivial, fun _ => new_plain⟩

/-- Every state of a run is consistent if and only if each call stores no falsy item, names
    no property of every object to remove, and replaceAdd finds the id that it is given. -/
theorem table_consistent_iff (calls : List (TableCall Value))
    (unique : Runs.Checked Unique call new calls) :
    (∀ n, ((calls.take n).foldl call new).Consistent) ↔ Runs.Checked Keeps call new calls := by
  have each : ∀ (t : OrderedTable Value) c, t.Plain → t.Consistent → t.Unique c →
      ((t.call c).Consistent ↔ t.Keeps c) ∧ (t.Keeps c → (t.call c).Plain) :=
    fun _ c plain consistent => call_iff plain consistent c
  rw [Runs.always_iff_checked_while each new_plain unique, and_iff_right new_consistent]

end OrderedTable

end

instance numbersAsItems : TableValue JsValue where
  truthy := JsValue.truthy
  builtin := .inherited
  builtin_truthy _ := rfl
  through
    | .inherited _ => some fun o => if objectPrototype.contains o then some (.inherited o) else none
    | _ => none

def replacingCalls : List (TableCall JsValue) :=
  [.add [(jsString "u1", .number 1), (jsString "u2", .number 2)],
    .replaceAdd (jsString "u2") (.number 3), .remove [jsString "u1"]]

theorem table_consistent_iff_replaced :
    (replacingCalls.foldl OrderedTable.call .new).Consistent := by
  have unique : Runs.Checked OrderedTable.Unique OrderedTable.call .new replacingCalls := by
    refine ⟨⟨by decide, ?_⟩, trivial, trivial, trivial⟩
    intro id mem
    simp only [List.map_cons, List.map_nil, List.mem_cons, List.not_mem_nil, or_false] at mem
    rcases mem with rfl | rfl
    · exact ⟨by decide, by decide, by decide, by decide⟩
    · exact ⟨by decide, by decide, by decide, by decide⟩
  have keeps : Runs.Checked OrderedTable.Keeps OrderedTable.call .new replacingCalls := by
    refine ⟨?_, ⟨by decide, by decide⟩, ?_, trivial⟩
    · intro item mem
      simp only [List.mem_cons, List.not_mem_nil, or_false] at mem
      rcases mem with rfl | rfl <;> rfl
    · intro id mem
      rw [List.mem_singleton.mp mem]
      decide
  exact (OrderedTable.table_consistent_iff replacingCalls unique).mpr keeps 3

/-- replaceAdd does not count an item that it adds. -/
theorem replaceAdd_uncounted :
    Runs.Checked OrderedTable.Unique OrderedTable.call .new
        [TableCall.replaceAdd (jsString "a") (JsValue.number 1)] ∧
      (OrderedTable.new.call (.replaceAdd (jsString "a") (JsValue.number 1))).cborder =
        [jsString "a"] ∧
      (OrderedTable.new.call (.replaceAdd (jsString "a") (JsValue.number 1))).length = 0 ∧
      ¬ (OrderedTable.new.call (.replaceAdd (jsString "a") (JsValue.number 1))).Consistent := by
  refine ⟨⟨trivial, trivial⟩, by decide, rfl, ?_⟩
  intro consistent
  exact absurd consistent.counted (by decide)

end GreaseLog
