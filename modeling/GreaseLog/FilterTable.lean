import Mathlib.Data.List.AList
import GreaseLog.Format
import GreaseLog.Lib.Runs

/- Filters, the fixed-size lists they are kept in, and the table of the lists
   by packed hash (logger.h), with the calls of logger.cc that change it. -/
namespace GreaseLog

def MAX_IDENTICAL_FILTERS : Nat := 16

/-- TW_KHash_32, taken as a correct map. -/
abbrev KHash (Key Data : Type) [DecidableEq Key] := AList fun _ : Key => Data

structure Filter where
  disabled : Bool := false
  id : FilterId := 0
  levelMask : LevelMask := 0
  targetId : TargetId := 0
  preFormat : LogLabel := none
  postFormatPreMsg : LogLabel := none
  postFormat : LogLabel := none
  deriving DecidableEq

/-- The assignment operator, which leaves _disabled alone. -/
def Filter.assign (destination source : Filter) : Filter :=
  { source with disabled := destination.disabled }

structure FilterList where
  list : List Filter
  sized : list.length = MAX_IDENTICAL_FILTERS
  bloom : LevelMask
  filterOut : Bool
  deriving DecidableEq

def FilterList.new : FilterList :=
  ⟨List.replicate MAX_IDENTICAL_FILTERS {}, by simp, 0, false⟩

def FilterList.valid (l : FilterList) (m : LevelMask) : Bool := l.bloom &&& m != 0

def addSlot (filter : Filter) : List Filter → Option (List Filter)
  | [] => none
  | slot :: rest =>
    if slot.id = 0 then some (slot.assign filter :: rest)
    else (addSlot filter rest).map (slot :: ·)

theorem addSlot_length {filter : Filter} {slots slots' : List Filter}
    (h : addSlot filter slots = some slots') : slots'.length = slots.length := by
  induction slots generalizing slots' with
  | nil => simp [addSlot] at h
  | cons slot rest ih =>
    simp only [addSlot] at h
    split at h
    · obtain rfl := Option.some.inj h
      simp
    · obtain ⟨tail, run, rfl⟩ := Option.map_eq_some_iff.mp h
      simp [ih run]

def FilterList.add (l : FilterList) (filter : Filter) : Option FilterList :=
  match h : addSlot filter l.list with
  | none => none
  | some slots => some ⟨slots, (addSlot_length h).trans l.sized, l.bloom ||| filter.levelMask,
      l.filterOut⟩

/-- FilterList::find, as the position of the slot. -/
def FilterList.find (l : FilterList) (id : FilterId) : Option Nat :=
  l.list.findIdx? (·.id == id)

def FilterList.modify (l : FilterList) (n : Nat) (change : Filter → Filter) : FilterList :=
  ⟨l.list.modify n change, by simpa using l.sized, l.bloom, l.filterOut⟩

/-- filterHashTable, the memory its pointers lead into, and the id counter. -/
structure FilterTable where
  filterHashTable : KHash FilterHash ListPtr
  heap : ListPtr → FilterList
  nextFilterId : FilterId

/-- What lies in memory before the first list is allocated is arbitrary. -/
def FilterTable.init (heap : ListPtr → FilterList) : FilterTable := ⟨∅, heap, 1⟩

/-- The arguments of AddFilter and ModifyFilter, by the type tests made on them. -/
inductive JsMask where
  | undefined
  | uint32 : LevelMask → JsMask
  | other
  deriving DecidableEq

structure FilterArgs where
  tag : Option TagId := none
  origin : Option OriginId := none
  target : Option TargetId := none
  mask : JsMask := .undefined
  disable : Option Bool := none
  id : Option FilterId := none
  pre : Option (List Byte) := none
  post : Option (List Byte) := none
  postFmtPreMsg : Option (List Byte) := none
  deriving DecidableEq

namespace FilterTable

/-- The list of this hash, allocated at `fresh` when there is none. -/
def findOrNew (T : FilterTable) (fresh : ListPtr) (hash : FilterHash) : FilterTable × ListPtr :=
  match T.filterHashTable.lookup hash with
  | some p => (T, p)
  | none =>
    ({ T with
        filterHashTable := T.filterHashTable.insert hash fresh
        heap := Function.update T.heap fresh .new }, fresh)

def _addFilter (T : FilterTable) (fresh : ListPtr) (t : TargetId) (origin : OriginId) (tag : TagId)
    (level : LevelMask) (preformat postformatpremsg postformat : LogLabel) :
    FilterTable × FilterId × Bool :=
  let id := T.nextFilterId
  let (T, list) := { T with nextFilterId := id + 1 }.findOrNew fresh (filterhash tag origin)
  let f : Filter :=
    { id := id, levelMask := level, targetId := t, preFormat := preformat,
      postFormatPreMsg := postformatpremsg, postFormat := postformat }
  match (T.heap list).add f with
  | some l => ({ T with heap := Function.update T.heap list l }, id, true)
  | none => (T, id, false)

def _lookupFilter (T : FilterTable) (origin : OriginId) (tag : TagId) (id : FilterId) :
    Option (ListPtr × Nat) :=
  match T.filterHashTable.lookup (filterhash tag origin) with
  | none => none
  | some p => ((T.heap p).find id).map fun n => (p, n)

def modifySlot (T : FilterTable) (p : ListPtr) (n : Nat) (change : Filter → Filter) : FilterTable :=
  { T with heap := Function.update T.heap p ((T.heap p).modify n change) }

/-- AddFilter: the id of the filter, or none for the value false. -/
def addFilter (T : FilterTable) (fresh : ListPtr) (args : FilterArgs) :
    FilterTable × Except String (Option FilterId) :=
  if args.mask = .other then (T, .error "addFilter: bad parameters (mask)")
  else if args.tag = none ∧ args.origin = none ∧ args.mask = .undefined then
    (T, .error "addFilter: bad parameters")
  else
    let tagId := args.tag.getD 0
    let originId := args.origin.getD 0
    let mask := match args.mask with
      | .uint32 m => m
      | _ => ALL_LEVELS
    let (T, id, added) := T._addFilter fresh (args.target.getD 0) originId tagId mask
      (args.pre.bind LogLabel.fromUTF8) (args.postFmtPreMsg.bind LogLabel.fromUTF8)
      (args.post.bind LogLabel.fromUTF8)
    let T := if args.disable = some true then
        match T._lookupFilter originId tagId id with
        | some (p, n) => T.modifySlot p n fun f => { f with disabled := true }
        | none => T
      else T
    (T, .ok (if added then some id else none))

def modifyFilter (T : FilterTable) (args : FilterArgs) : FilterTable × Except String Bool :=
  match args.mask, args.id with
  | .uint32 _, _ => (T, .error "modifyFilter: bad parameters... can't modify mask")
  | _, none => (T, .error "modifyFilter: bad parameters")
  | _, some id =>
    if id = 0 then (T, .error "modifyFilter: bad parameters")
    else
      match T._lookupFilter (args.origin.getD 0) (args.tag.getD 0) id with
      | none => (T, .ok false)
      | some (p, n) =>
        (T.modifySlot p n fun f =>
          { f with disabled := args.disable.getD f.disabled, targetId := args.target.getD f.targetId },
          .ok true)

end FilterTable

/-- The slots in use come first, and bloom covers their masks. -/
structure FilterList.Wf (l : FilterList) : Prop where
  zero_suffix : l.list.Pairwise fun a b => a.id = 0 → b.id = 0
  bloom_covers : ∀ f ∈ l.list, f.id ≠ 0 → f.levelMask &&& l.bloom = f.levelMask

def FilterList.filters (l : FilterList) : List Filter := l.list.filter (·.id != 0)

structure FilterTable.Wf (T : FilterTable) : Prop where
  ptr_ne_zero : ∀ {hash p}, T.filterHashTable.lookup hash = some p → p ≠ 0
  ptr_injective : ∀ {hash hash' p}, T.filterHashTable.lookup hash = some p →
    T.filterHashTable.lookup hash' = some p → hash = hash'
  list_wf : ∀ {hash p}, T.filterHashTable.lookup hash = some p → (T.heap p).Wf

/-- What `new` may return: not NULL, and no list that the table holds. -/
def FilterTable.Fresh (T : FilterTable) (p : ListPtr) : Prop :=
  p ≠ 0 ∧ ∀ hash q, T.filterHashTable.lookup hash = some q → q ≠ p

inductive FilterCall where
  | addFilter : ListPtr → FilterArgs → FilterCall
  | modifyFilter : FilterArgs → FilterCall

def FilterTable.call (T : FilterTable) : FilterCall → FilterTable
  | .addFilter fresh args => (T.addFilter fresh args).1
  | .modifyFilter args => (T.modifyFilter args).1

def FilterCall.Allowed (T : FilterTable) : FilterCall → Prop
  | .addFilter fresh _ => T.Fresh fresh
  | .modifyFilter _ => True

def FilterTable.Step (T : FilterTable) (c : FilterCall) (T' : FilterTable) : Prop :=
  c.Allowed T ∧ T' = T.call c

def FilterTable.Reachable (T : FilterTable) : Prop :=
  ∃ heap, Runs.Reached FilterTable.Step (FilterTable.init heap) T

theorem addSlot_some {filter : Filter} {slots slots' : List Filter}
    (h : addSlot filter slots = some slots') :
    ∃ used slot rest, slots = used ++ slot :: rest ∧ (∀ f ∈ used, f.id ≠ 0) ∧ slot.id = 0 ∧
      slots' = used ++ slot.assign filter :: rest := by
  induction slots generalizing slots' with
  | nil => simp [addSlot] at h
  | cons slot others ih =>
    simp only [addSlot] at h
    split at h
    · rename_i free
      obtain rfl := Option.some.inj h
      exact ⟨[], slot, others, rfl, by simp, free, rfl⟩
    · rename_i taken
      obtain ⟨tail, run, rfl⟩ := Option.map_eq_some_iff.mp h
      obtain ⟨used, hole, rest, rfl, busy, free, rfl⟩ := ih run
      exact ⟨slot :: used, hole, rest, rfl, by simpa using ⟨taken, busy⟩, free, rfl⟩

theorem add_some {l l' : FilterList} {filter : Filter} (h : l.add filter = some l') :
    addSlot filter l.list = some l'.list ∧ l'.bloom = l.bloom ||| filter.levelMask := by
  unfold FilterList.add at h
  split at h
  · contradiction
  · obtain rfl := Option.some.inj h
    exact ⟨by assumption, rfl⟩

theorem mask_and_or_left {a b : LevelMask} (c : LevelMask) (h : a &&& b = a) :
    a &&& (b ||| c) = a := by
  have bits := congrArg UInt32.toBitVec h
  apply UInt32.toBitVec_inj.mp
  simp only [UInt32.toBitVec_and, UInt32.toBitVec_or] at bits ⊢
  ext i hi
  have bit := congrArg (·[i]) bits
  simp only [BitVec.getElem_and, BitVec.getElem_or] at bit ⊢
  cases h1 : a.toBitVec[i] <;> simp_all

theorem mask_and_or_right (a b : LevelMask) : a &&& (b ||| a) = a := by
  apply UInt32.toBitVec_inj.mp
  simp only [UInt32.toBitVec_and, UInt32.toBitVec_or]
  ext i hi
  simp only [BitVec.getElem_and, BitVec.getElem_or]
  cases h1 : a.toBitVec[i] <;> simp_all

theorem covered_mask_meets {a b level : LevelMask} (covers : a &&& b = a)
    (meets : a &&& level ≠ 0) : b &&& level ≠ 0 := by
  intro none
  apply meets
  rw [← covers, UInt32.and_assoc, none]
  exact UInt32.and_zero

theorem new_wf : FilterList.new.Wf where
  zero_suffix := by simp [FilterList.new, List.pairwise_replicate]
  bloom_covers := by simp +contextual [FilterList.new]

theorem new_add (filter : Filter) : ∃ l, FilterList.new.add filter = some l := by
  unfold FilterList.add
  split
  · rename_i full
    simp [addSlot, FilterList.new, MAX_IDENTICAL_FILTERS, List.replicate_succ] at full
  · exact ⟨_, rfl⟩

theorem add_wf {l l' : FilterList} {filter : Filter} (wf : l.Wf) (h : l.add filter = some l') :
    l'.Wf := by
  obtain ⟨slots, bloom⟩ := add_some h
  obtain ⟨used, slot, rest, before, busy, free, after⟩ := addSlot_some slots
  have suffix := wf.zero_suffix
  rw [before, List.pairwise_append, List.pairwise_cons] at suffix
  obtain ⟨_, ⟨zeros, tail⟩, _⟩ := suffix
  have restFree : ∀ f ∈ rest, f.id = 0 := fun f mem => zeros f mem free
  constructor
  · rw [after, List.pairwise_append, List.pairwise_cons]
    refine ⟨?_, ⟨fun f mem _ => restFree f mem, tail⟩, ?_⟩
    · exact List.Pairwise.imp_of_mem (fun ha _ _ zero => absurd zero (busy _ ha))
        (List.pairwise_of_forall (fun _ _ => trivial) : used.Pairwise fun _ _ => True)
    · intro f mem g _ zero
      exact absurd zero (busy f mem)
  · intro f mem inUse
    rw [after] at mem
    rw [bloom]
    rcases List.mem_append.mp mem with mem | mem
    · exact mask_and_or_left _ (wf.bloom_covers f (by simp [before, mem]) inUse)
    · rcases List.mem_cons.mp mem with rfl | mem
      · exact mask_and_or_right _ _
      · exact absurd (restFree f mem) inUse

theorem map_modify_same {α β : Type} (g : α → β) (change : α → α) (same : ∀ a, g (change a) = g a)
    (l : List α) (n : Nat) : (l.modify n change).map g = l.map g := by
  induction l generalizing n with
  | nil => simp
  | cons a l ih => cases n <;> simp [same, ih]

theorem modify_wf {l : FilterList} (wf : l.Wf) (n : Nat) {change : Filter → Filter}
    (same : ∀ f, (change f).id = f.id ∧ (change f).levelMask = f.levelMask) :
    (l.modify n change).Wf := by
  have ids : (l.modify n change).list.map Filter.id = l.list.map Filter.id :=
    map_modify_same _ _ (fun f => (same f).1) _ _
  have keys : (l.modify n change).list.map (fun f => (f.id, f.levelMask)) =
      l.list.map fun f => (f.id, f.levelMask) :=
    map_modify_same _ _ (fun f => Prod.ext (same f).1 (same f).2) _ _
  constructor
  · have suffix := wf.zero_suffix
    have mapped : (l.list.map Filter.id).Pairwise fun a b => a = 0 → b = 0 :=
      List.pairwise_map.mpr suffix
    rw [← ids] at mapped
    exact List.pairwise_map.mp mapped
  · intro f mem inUse
    have key : (f.id, f.levelMask) ∈ l.list.map fun f => (f.id, f.levelMask) := by
      rw [← keys]
      exact List.mem_map_of_mem mem
    obtain ⟨g, memG, eq⟩ := List.mem_map.mp key
    obtain ⟨sameId, sameMask⟩ := Prod.mk.inj eq
    rw [← sameMask]
    exact wf.bloom_covers g memG (sameId ▸ inUse)

namespace FilterTable
variable {T : FilterTable}

theorem init_wf (heap : ListPtr → FilterList) : (init heap).Wf where
  ptr_ne_zero := by simp [init]
  ptr_injective := by simp [init]
  list_wf := by simp [init]

theorem setList_wf (wf : T.Wf) (p : ListPtr) {l : FilterList} (h : l.Wf) :
    ({ T with heap := Function.update T.heap p l } : FilterTable).Wf where
  ptr_ne_zero := wf.ptr_ne_zero
  ptr_injective := wf.ptr_injective
  list_wf := by
    intro hash q found
    by_cases same : q = p
    · subst same
      simpa using h
    · simpa [same] using wf.list_wf found

theorem findOrNew_found (fresh : ListPtr) (hash : FilterHash) :
    (T.findOrNew fresh hash).1.filterHashTable.lookup hash = some (T.findOrNew fresh hash).2 := by
  unfold findOrNew
  split
  · assumption
  · simp

theorem findOrNew_wf (wf : T.Wf) {fresh : ListPtr} (new : T.Fresh fresh) (hash : FilterHash) :
    (T.findOrNew fresh hash).1.Wf := by
  unfold findOrNew
  split
  · exact wf
  · have lookup : ∀ {h q}, (T.filterHashTable.insert hash fresh).lookup h = some q →
        (h = hash ∧ q = fresh) ∨ (h ≠ hash ∧ T.filterHashTable.lookup h = some q) := by
      intro h q found
      by_cases same : h = hash
      · subst same
        simp only [AList.lookup_insert, Option.some.injEq] at found
        exact Or.inl ⟨rfl, found.symm⟩
      · exact Or.inr ⟨same, by rwa [AList.lookup_insert_ne same] at found⟩
    constructor
    · intro h q found
      rcases lookup found with ⟨_, rfl⟩ | ⟨_, old⟩
      · exact new.1
      · exact wf.ptr_ne_zero old
    · intro h h' q found found'
      rcases lookup found with ⟨rfl, rfl⟩ | ⟨_, old⟩ <;>
        rcases lookup found' with ⟨same, eq⟩ | ⟨_, old'⟩
      · exact same.symm
      · exact absurd rfl (new.2 h' _ old')
      · exact absurd eq (new.2 h _ old)
      · exact wf.ptr_injective old old'
    · intro h q found
      rcases lookup found with ⟨_, rfl⟩ | ⟨_, old⟩
      · simpa using new_wf
      · simpa [new.2 h q old] using wf.list_wf old

/-- What _addFilter does: the filter goes to the list of its hash, or that list is full. -/
theorem addFilterRaw_cases (T : FilterTable) (fresh : ListPtr) (t : TargetId) (origin : OriginId)
    (tag : TagId) (level : LevelMask) (pre mid post : LogLabel) :
    let hash := filterhash tag origin
    let f : Filter :=
      { id := T.nextFilterId, levelMask := level, targetId := t, preFormat := pre,
        postFormatPreMsg := mid, postFormat := post }
    let r := T._addFilter fresh t origin tag level pre mid post
    r.2.1 = T.nextFilterId ∧ r.1.nextFilterId = T.nextFilterId + 1 ∧
      ((∃ p l, r.2.2 = true ∧ T.filterHashTable.lookup hash = some p ∧ (T.heap p).add f = some l ∧
          r.1.filterHashTable = T.filterHashTable ∧ r.1.heap = Function.update T.heap p l) ∨
        (∃ l, r.2.2 = true ∧ T.filterHashTable.lookup hash = none ∧ FilterList.new.add f = some l ∧
          r.1.filterHashTable = T.filterHashTable.insert hash fresh ∧
          r.1.heap = Function.update T.heap fresh l) ∨
        (∃ p, r.2.2 = false ∧ T.filterHashTable.lookup hash = some p ∧ (T.heap p).add f = none ∧
          r.1.filterHashTable = T.filterHashTable ∧ r.1.heap = T.heap)) := by
  intro hash f r
  cases found : T.filterHashTable.lookup hash with
  | some p =>
    have old : ({ T with nextFilterId := T.nextFilterId + 1 } : FilterTable).findOrNew fresh hash =
        ({ T with nextFilterId := T.nextFilterId + 1 }, p) := by simp only [findOrNew, found]
    cases added : (T.heap p).add f with
    | some l =>
      have run : r = ({ T with
          nextFilterId := T.nextFilterId + 1, heap := Function.update T.heap p l },
          T.nextFilterId, true) := by
        simp only [r, _addFilter]
        rw [old]
        simp only [f] at added
        simp only [added]
      rw [run]
      exact ⟨rfl, rfl, Or.inl ⟨p, l, rfl, rfl, added, rfl, rfl⟩⟩
    | none =>
      have run : r = ({ T with nextFilterId := T.nextFilterId + 1 }, T.nextFilterId, false) := by
        simp only [r, _addFilter]
        rw [old]
        simp only [f] at added
        simp only [added]
      rw [run]
      exact ⟨rfl, rfl, Or.inr (Or.inr ⟨p, rfl, rfl, added, rfl, rfl⟩)⟩
  | none =>
    have fits : ∃ l, FilterList.new.add f = some l := new_add f
    obtain ⟨l, added⟩ := fits
    have new : ({ T with nextFilterId := T.nextFilterId + 1 } : FilterTable).findOrNew fresh hash =
        ({ T with
            nextFilterId := T.nextFilterId + 1
            filterHashTable := T.filterHashTable.insert hash fresh
            heap := Function.update T.heap fresh .new }, fresh) := by simp only [findOrNew, found]
    have run : r = ({ T with
        nextFilterId := T.nextFilterId + 1
        filterHashTable := T.filterHashTable.insert hash fresh
        heap := Function.update T.heap fresh l }, T.nextFilterId, true) := by
      simp only [r, _addFilter]
      rw [new]
      simp only [f] at added
      simp only [Function.update_self, added, Function.update_idem]
    rw [run]
    exact ⟨rfl, rfl, Or.inr (Or.inl ⟨l, rfl, rfl, added, rfl, rfl⟩)⟩

theorem addFilterRaw_wf (wf : T.Wf) {fresh : ListPtr} (new : T.Fresh fresh) (t : TargetId)
    (origin : OriginId) (tag : TagId) (level : LevelMask) (pre mid post : LogLabel) :
    (T._addFilter fresh t origin tag level pre mid post).1.Wf := by
  have counted : ({ T with nextFilterId := T.nextFilterId + 1 } : FilterTable).Wf :=
    ⟨wf.ptr_ne_zero, wf.ptr_injective, wf.list_wf⟩
  have unused : ({ T with nextFilterId := T.nextFilterId + 1 } : FilterTable).Fresh fresh := new
  have found := findOrNew_wf counted unused (filterhash tag origin)
  have there := findOrNew_found (T := { T with nextFilterId := T.nextFilterId + 1 }) fresh
    (filterhash tag origin)
  simp only [_addFilter]
  split
  · rename_i l added
    exact setList_wf found _ (add_wf (found.list_wf there) added)
  · exact found

theorem lookupFilter_found {origin : OriginId} {tag : TagId} {id : FilterId} {p : ListPtr} {n : Nat}
    (h : T._lookupFilter origin tag id = some (p, n)) :
    T.filterHashTable.lookup (filterhash tag origin) = some p := by
  unfold _lookupFilter at h
  split at h
  · contradiction
  · rename_i q found
    obtain ⟨m, _, eq⟩ := Option.map_eq_some_iff.mp h
    rw [← (Prod.mk.inj eq).1]
    exact found

theorem modifySlot_wf (wf : T.Wf) {origin : OriginId} {tag : TagId} {id : FilterId} {p : ListPtr}
    {n : Nat} (found : T._lookupFilter origin tag id = some (p, n)) {change : Filter → Filter}
    (same : ∀ f, (change f).id = f.id ∧ (change f).levelMask = f.levelMask) :
    (T.modifySlot p n change).Wf :=
  setList_wf wf p (modify_wf (wf.list_wf (lookupFilter_found found)) n same)

theorem addFilter_wf (wf : T.Wf) {fresh : ListPtr} (new : T.Fresh fresh) (args : FilterArgs) :
    (T.addFilter fresh args).1.Wf := by
  unfold addFilter
  split
  · exact wf
  · split
    · exact wf
    · simp only
      have added := fun t origin tag level pre mid post =>
        addFilterRaw_wf wf new t origin tag level pre mid post
      split
      · split
        · rename_i p n found
          exact modifySlot_wf (added ..) found fun f => ⟨rfl, rfl⟩
        · exact added ..
      · exact added ..

theorem modifyFilter_wf (wf : T.Wf) (args : FilterArgs) : (T.modifyFilter args).1.Wf := by
  unfold modifyFilter
  split
  · exact wf
  · exact wf
  · split
    · exact wf
    · split
      · exact wf
      · rename_i p n found
        exact modifySlot_wf wf found fun f => ⟨rfl, rfl⟩

theorem step_wf {c : FilterCall} {T' : FilterTable} (wf : T.Wf) (step : Step T c T') : T'.Wf := by
  obtain ⟨allowed, rfl⟩ := step
  cases c with
  | addFilter fresh args => exact addFilter_wf wf allowed args
  | modifyFilter args => exact modifyFilter_wf wf args

theorem reachable_wf (reachable : T.Reachable) : T.Wf := by
  obtain ⟨heap, calls, run⟩ := reachable
  exact Runs.run_invariant Wf (init_wf heap) (fun _ _ _ => step_wf) run

theorem init_reachable (heap : ListPtr → FilterList) : (init heap).Reachable :=
  ⟨heap, [], .start⟩

theorem call_reachable (reachable : T.Reachable) {c : FilterCall} (allowed : c.Allowed T) :
    (T.call c).Reachable := by
  obtain ⟨heap, calls, run⟩ := reachable
  exact ⟨heap, _, run.next ⟨allowed, rfl⟩⟩

end FilterTable

end GreaseLog
