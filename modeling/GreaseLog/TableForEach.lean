import GreaseLog.OrderedTable
import GreaseLog.Lib.LiveWalk

/- forEach of orderedTable, with a callback that removes items while the loop runs. -/
namespace GreaseLog
open TableValue

structure TableVisit (Value : Type) where
  val : Value
  id : JsString
  order : Nat
  deriving DecidableEq

namespace OrderedTable

section
variable {Value : Type}

def visits (t : OrderedTable Value) (ids : List JsString) : List (TableVisit Value) :=
  ids.zipIdx.filterMap fun p => (t.cbs.get p.1).map fun val => ⟨val, p.1, p.2⟩

def removedBy (t : OrderedTable Value) (func : List (TableVisit Value) → List JsString)
    (ids : List JsString) : List JsString :=
  func (t.visits ids)

/-- The ids whose items are called when each item gets its turn while it is in the table. -/
def idsInTurn (t : OrderedTable Value) (func : List (TableVisit Value) → List JsString) :
    List JsString :=
  LiveWalk.inTurn (t.removedBy func) t.cborder t.cborder []

/-- No call removes an item that is called or has been, unless none is left to be called. -/
def RemovesAhead (t : OrderedTable Value) (func : List (TableVisit Value) → List JsString) :
    Prop :=
  LiveWalk.OnlyAhead (t.removedBy func) t.cborder t.cborder []

instance decidableRemovesAhead (t : OrderedTable Value)
    (func : List (TableVisit Value) → List JsString) : Decidable (t.RemovesAhead func) :=
  LiveWalk.decidableOnlyAhead (t.removedBy func) t.cborder t.cborder []

variable {t s : OrderedTable Value}

theorem visits_snoc {id : JsString} {val : Value} (item : t.cbs.get id = some val)
    (ids : List JsString) :
    t.visits (ids ++ [id]) = t.visits ids ++ [⟨val, id, ids.length⟩] := by
  simp [visits, List.zipIdx_append, item]

theorem visits_ids {ids : List JsString} (known : ∀ id ∈ ids, ∃ val, t.cbs.get id = some val) :
    (t.visits ids).map TableVisit.id = ids := by
  induction ids using List.reverseRecOn with
  | nil => rfl
  | append_singleton ids id ih =>
    obtain ⟨val, item⟩ := known id (by simp)
    rw [visits_snoc item, List.map_append, ih fun o mem => known o (List.mem_append_left _ mem)]
    rfl

theorem idsInTurn_sublist (t : OrderedTable Value)
    (func : List (TableVisit Value) → List JsString) : (t.idsInTurn func).Sublist t.cborder := by
  obtain ⟨visited, all, part⟩ :=
    LiveWalk.inTurn_extends (t.removedBy func) t.cborder t.cborder []
  rw [idsInTurn, all]
  exact part

structure Remains (t : OrderedTable Value) (ids : List JsString) (s : OrderedTable Value) :
    Prop where
  order : s.cborder = t.cborder.filter fun o => o ∉ ids
  items : ∀ o, o ∉ ids → s.cbs.get o = t.cbs.get o

theorem Remains.mem {ids : List JsString} (remains : t.Remains ids s) {o : JsString} :
    o ∈ s.cborder ↔ o ∈ t.cborder ∧ o ∉ ids := by
  rw [remains.order]
  simp

end

variable {Value : Type} [TableValue Value]

/-- The turns of the loop from n on. The callback is told by the ids that it gives to remove,
    which depend on the calls that have been made of it. -/
def forEachFrom (func : List (TableVisit Value) → List JsString) :
    Nat → Nat → Nat → OrderedTable Value → List (TableVisit Value) →
      OrderedTable Value × List (TableVisit Value)
  | 0, _, _, t, calls => (t, calls)
  | turns + 1, n, c, t, calls =>
    match t.cborder[n]? with
    | none => (t, calls)
    | some id =>
      match (t.cbs.get id).filter truthy with
      | some val =>
        let calls := calls ++ [⟨val, id, c⟩]
        forEachFrom func turns (n + 1) (c + 1) (t.remove (func calls)).1 calls
      | none => forEachFrom func turns (n + 1) c t calls

/-- The order never grows, so that its length bounds the turns. -/
def forEach (t : OrderedTable Value) (func : List (TableVisit Value) → List JsString) :
    OrderedTable Value × List (TableVisit Value) :=
  forEachFrom func t.cborder.length 0 0 t []

structure TruthyItems (t : OrderedTable Value) : Prop where
  nodup : t.cborder.Nodup
  items : ∀ id ∈ t.cborder, ∃ item, t.cbs.get id = some item ∧ truthy item = true

variable {t s : OrderedTable Value} {func : List (TableVisit Value) → List JsString}

theorem Remains.truthyItems {ids : List JsString} (remains : t.Remains ids s)
    (sound : t.TruthyItems) : s.TruthyItems := by
  constructor
  · rw [remains.order]
    exact sound.nodup.filter _
  · intro o mem
    obtain ⟨there, kept⟩ := remains.mem.mp mem
    rw [remains.items o kept]
    exact sound.items o there

theorem removeOne_remains (sound : t.TruthyItems) (id : JsString) :
    t.Remains [id] (t.removeOne id).1 := by
  have order : (t.cborder.filter fun o => o ∉ [id]) = t.cborder.erase id := by
    rw [sound.nodup.erase_eq_filter]
    refine List.filter_congr ?_
    intro o _
    by_cases same : o = id <;> simp [same]
  rcases removeOne_cases t id with ⟨out, _⟩ | ⟨same, falsy⟩
  · refine ⟨out.order.trans order.symm, ?_⟩
    intro o other
    have apart : o ≠ id := by simpa using other
    rw [out.cbs, PlainObject.get, PlainObject.delete, AList.lookup_erase_ne apart]
    rfl
  · have absent : id ∉ t.cborder := by
      intro mem
      obtain ⟨item, found, good⟩ := sound.items id mem
      exact falsy item found good
    rw [same]
    refine ⟨?_, fun _ _ => rfl⟩
    rw [order, List.erase_of_not_mem absent]

theorem removeEach_remains (sound : t.TruthyItems) (ids : List JsString) :
    t.Remains ids (t.removeEach ids).1 := by
  induction ids generalizing t with
  | nil => exact ⟨by simp [removeEach], fun _ _ => rfl⟩
  | cons id ids ih =>
    have first := removeOne_remains sound id
    have rest := ih (first.truthyItems sound)
    constructor
    · simp only [removeEach]
      rw [rest.order, first.order, List.filter_filter]
      refine List.filter_congr ?_
      intro o _
      by_cases same : o = id <;> simp [same]
    · intro o other
      rw [List.mem_cons, not_or] at other
      simp only [removeEach]
      rw [rest.items o other.2, first.items o (by simpa using other.1)]

structure Walking (start t : OrderedTable Value) : Prop where
  sound : t.TruthyItems
  items : ∀ o ∈ t.cborder, t.cbs.get o = start.cbs.get o

theorem Walking.remove {start : OrderedTable Value} (walking : start.Walking t)
    (ids : List JsString) :
    start.Walking (t.remove ids).1 ∧
      (t.remove ids).1.cborder = t.cborder.filter fun o => o ∉ ids := by
  have rest := removeEach_remains walking.sound ids
  refine ⟨⟨rest.truthyItems walking.sound, ?_⟩, rest.order⟩
  intro o mem
  obtain ⟨there, kept⟩ := rest.mem.mp mem
  exact (rest.items o kept).trans (walking.items o there)

/-- The loop makes the calls that the walk over the order visits. -/
theorem forEachFrom_walk {start : OrderedTable Value} (turns n : Nat) (seen : List JsString)
    (walking : start.Walking t) :
    (forEachFrom func turns n seen.length t (start.visits seen)).2 =
      start.visits (LiveWalk.walk (start.removedBy func) turns n t.cborder seen) := by
  induction turns generalizing n seen t with
  | zero => rfl
  | succ turns ih =>
    cases at_n : t.cborder[n]? with
    | none => rw [LiveWalk.walk_none at_n, forEachFrom, at_n]
    | some id =>
      have mem := List.mem_of_getElem? at_n
      obtain ⟨val, item, good⟩ := walking.sound.items id mem
      have call := visits_snoc ((walking.items id mem).symm.trans item) seen
      obtain ⟨next, order⟩ := walking.remove (func (start.visits (seen ++ [id])))
      have left : LiveWalk.left (start.removedBy func) (seen ++ [id]) t.cborder =
          (t.remove (func (start.visits (seen ++ [id])))).1.cborder := by
        rw [order, LiveWalk.left]
        refine List.filter_congr ?_
        intro o _
        exact decide_eq_decide.mpr Iff.rfl
      have later := ih (n + 1) (seen ++ [id]) next
      rw [List.length_append, List.length_singleton, call] at later
      rw [LiveWalk.walk_some at_n, left, call, ← later, forEachFrom, at_n]
      simp only [item, Option.filter, good, if_true]

/-- The callback is called for each item in its turn if and only if it removes only items
    ahead of the one it is called for. In their turns the items are called in order, once
    each, and what is not called has been removed by a call in front of it. The loop always
    ends. -/
theorem forEach_in_turn_iff (sound : t.TruthyItems)
    (func : List (TableVisit Value) → List JsString) :
    ((t.forEach func).2 = t.visits (t.idsInTurn func) ↔ t.RemovesAhead func) ∧
      ((t.visits (t.idsInTurn func)).map TableVisit.id).Sublist t.cborder ∧
      (∀ id ∈ t.cborder, id ∉ t.idsInTurn func →
        ∃ front back before more, t.cborder = front ++ id :: back ∧ before.Sublist front ∧
          t.idsInTurn func = before ++ more ∧ id ∈ func (t.visits before)) ∧
      ∀ more, (forEachFrom func (t.cborder.length + more) 0 0 t []).2 = (t.forEach func).2 := by
  have walks : ∀ turns, (forEachFrom func turns 0 0 t []).2 =
      t.visits (LiveWalk.walk (t.removedBy func) turns 0 t.cborder []) := fun turns =>
    forEachFrom_walk turns 0 [] ⟨sound, fun _ _ => rfl⟩
  have listed_ids : ∀ {ids : List JsString}, (∀ id ∈ ids, id ∈ t.cborder) →
      (t.visits ids).map TableVisit.id = ids := by
    intro ids listed
    refine visits_ids ?_
    intro id mem
    obtain ⟨item, found, _⟩ := sound.items id (listed id mem)
    exact ⟨item, found⟩
  have part := idsInTurn_sublist t func
  have inTurn_ids := listed_ids fun id mem => part.subset mem
  refine ⟨?_, ?_, ?_, ?_⟩
  · have walk_ids : (t.visits (LiveWalk.walk (t.removedBy func) t.cborder.length 0 t.cborder
        [])).map TableVisit.id = _ :=
      listed_ids fun id mem => (LiveWalk.walk_mem _ mem).resolve_left List.not_mem_nil
    rw [RemovesAhead, ← LiveWalk.walk_iff sound.nodup, forEach, walks]
    constructor
    · intro same
      have ids := congrArg (List.map TableVisit.id) same
      rw [walk_ids, inTurn_ids] at ids
      exact ids
    · intro same
      rw [same, idsInTurn]
  · rw [inTurn_ids]
    exact part
  · intro id mem missed
    exact LiveWalk.inTurn_missed mem mem missed
  · intro more
    rw [forEach, walks, walks]
    rw [LiveWalk.walk_ends (by omega)]

end OrderedTable

def threeItems : OrderedTable JsValue :=
  (OrderedTable.new.add
    [(jsString "a", .number 1), (jsString "b", .number 2), (jsString "c", .number 3)]).1

theorem threeItems_sound : threeItems.TruthyItems := by
  constructor
  · have unique : ∀ id ∈ [jsString "a", jsString "b", jsString "c"],
        (OrderedTable.new : OrderedTable JsValue).Unused id := by
      intro id mem
      simp only [List.mem_cons, List.not_mem_nil, or_false] at mem
      rcases mem with rfl | rfl | rfl <;> exact ⟨by decide, by decide, by decide, by decide⟩
    have checked : Runs.Checked (fun t c => OrderedTable.Unique t c ∧ OrderedTable.Named c)
        OrderedTable.call .new [TableCall.add [(jsString "a", JsValue.number 1),
          (jsString "b", .number 2), (jsString "c", .number 3)]] :=
      ⟨⟨⟨by decide, unique⟩, trivial⟩, trivial⟩
    exact OrderedTable.run_nodup checked
  · intro id mem
    have order : threeItems.cborder = [jsString "a", jsString "b", jsString "c"] := by decide
    simp only [order, List.mem_cons, List.not_mem_nil, or_false] at mem
    rcases mem with rfl | rfl | rfl
    · exact ⟨.number 1, by decide, by decide⟩
    · exact ⟨.number 2, by decide, by decide⟩
    · exact ⟨.number 3, by decide, by decide⟩

def removesB (_ : List (TableVisit JsValue)) : List JsString := [jsString "b"]

def removesItself (calls : List (TableVisit JsValue)) : List JsString :=
  calls.getLast?.toList.map TableVisit.id

/-- The item b is removed ahead of its turn, and the others are called. -/
theorem forEach_in_turn_iff_ahead :
    (threeItems.forEach removesB).2 =
      [⟨.number 1, jsString "a", 0⟩, ⟨.number 3, jsString "c", 1⟩] := by
  have inTurn := (OrderedTable.forEach_in_turn_iff threeItems_sound removesB).1.mpr (by decide)
  rw [inTurn]
  decide

/-- The item b is still in the table when a has been removed, but is not called. -/
theorem removing_itself_skips :
    threeItems.TruthyItems ∧
      (threeItems.forEach removesItself).2 =
        [⟨.number 1, jsString "a", 0⟩, ⟨.number 3, jsString "c", 1⟩] ∧
      threeItems.visits (threeItems.idsInTurn removesItself) =
        [⟨.number 1, jsString "a", 0⟩, ⟨.number 2, jsString "b", 1⟩, ⟨.number 3, jsString "c", 2⟩] := by
  exact ⟨threeItems_sound, by decide, by decide⟩

end GreaseLog
