import GreaseLog.FilterTable

/- The filter table against a registry of what has been set for each filter id, over
   runs of fewer filters than there are ids. -/
namespace GreaseLog

structure FilterEntry where
  origin : OriginId
  tag : TagId
  mask : LevelMask
  target : TargetId
  disabled : Bool
  deriving DecidableEq

abbrev FilterRegistry := FilterId → Option FilterEntry

def Filter.entry (f : Filter) (origin : OriginId) (tag : TagId) : FilterEntry :=
  ⟨origin, tag, f.levelMask, f.targetId, f.disabled⟩

def FilterArgs.levels (args : FilterArgs) : LevelMask :=
  match args.mask with
  | .uint32 m => m
  | _ => ALL_LEVELS

/-- The tests that AddFilter makes before it calls _addFilter. -/
def FilterArgs.Addable (args : FilterArgs) : Prop :=
  args.mask ≠ .other ∧ ¬ (args.tag = none ∧ args.origin = none ∧ args.mask = .undefined)

instance (args : FilterArgs) : Decidable args.Addable := inferInstanceAs (Decidable (_ ∧ _))

def FilterCall.addsFilter : FilterCall → Bool
  | .addFilter _ args => decide args.Addable
  | .modifyFilter _ => false

def FilterCall.Fails (T : FilterTable) : FilterCall → Prop
  | .addFilter fresh args => ∀ id, (T.addFilter fresh args).2 ≠ .ok (some id)
  | .modifyFilter args => (T.modifyFilter args).2 ≠ .ok true

/-- A filter is registered under the id that AddFilter returns; ModifyFilter changes its target
    and its flag. -/
def FilterRegistry.call (R : FilterRegistry) (T : FilterTable) : FilterCall → FilterRegistry
  | .addFilter fresh args =>
    match (T.addFilter fresh args).2 with
    | .ok (some id) => Function.update R id (some
      ⟨args.origin.getD 0, args.tag.getD 0, args.levels, args.target.getD 0,
        decide (args.disable = some true)⟩)
    | _ => R
  | .modifyFilter args =>
    match (T.modifyFilter args).2, args.id with
    | .ok true, some id => Function.update R id ((R id).map fun e =>
      { e with disabled := args.disable.getD e.disabled, target := args.target.getD e.target })
    | _, _ => R

structure FilterRun where
  T : FilterTable
  R : FilterRegistry

namespace FilterRun

def init (heap : ListPtr → FilterList) : FilterRun := ⟨.init heap, fun _ => none⟩

def Step (s : FilterRun) (c : FilterCall) (s' : FilterRun) : Prop :=
  c.Allowed s.T ∧ s' = ⟨s.T.call c, s.R.call s.T c⟩

end FilterRun

def FilterTable.found (T : FilterTable) (origin : OriginId) (tag : TagId) (id : FilterId) :
    Option Filter :=
  (T._lookupFilter origin tag id).bind fun slot => (T.heap slot.1).list[slot.2]?

/-! One list. -/

structure FilterList.Sound (l : FilterList) : Prop where
  wf : l.Wf
  bloom : l.bloom = (l.filters.map Filter.levelMask).foldl (· ||| ·) 0
  ids : l.list.Pairwise fun a b => a.id ≠ 0 → a.id ≠ b.id
  enabled : ∀ f ∈ l.list, f.id = 0 → f.disabled = false

section
variable {l l' : FilterList} {f : Filter}

theorem new_sound : FilterList.new.Sound where
  wf := new_wf
  bloom := by decide
  ids := by simp [FilterList.new, List.pairwise_replicate]
  enabled := by simp [FilterList.new]

theorem add_shape (sound : l.Sound) (added : l.add f = some l') :
    ∃ used rest, (∀ g ∈ used, g.id ≠ 0) ∧ (∀ g ∈ rest, g.id = 0) ∧
      (∃ slot, slot.id = 0 ∧ l.list = used ++ slot :: rest) ∧
      l'.list = used ++ { f with disabled := false } :: rest ∧
      l'.bloom = l.bloom ||| f.levelMask := by
  obtain ⟨slots, bloom⟩ := add_some added
  obtain ⟨used, slot, rest, before, busy, free, after⟩ := addSlot_some slots
  have suffix := sound.wf.zero_suffix
  rw [before, List.pairwise_append, List.pairwise_cons] at suffix
  have cleared := sound.enabled slot (by rw [before]; simp) free
  refine ⟨used, rest, busy, fun g mem => suffix.2.1.1 g mem free, ⟨slot, free, before⟩, ?_, bloom⟩
  rw [after, Filter.assign, cleared]

theorem filters_of_shape {used : List Filter} (rest : List Filter) (busy : ∀ g ∈ used, g.id ≠ 0)
    (free : ∀ g ∈ rest, g.id = 0) (shape : l.list = used ++ rest) : l.filters = used := by
  rw [FilterList.filters, shape, List.filter_append, List.filter_eq_self.mpr, List.filter_eq_nil_iff.mpr,
    List.append_nil]
  · intro g mem
    simp [free g mem]
  · intro g mem
    simpa using busy g mem

theorem add_sound (sound : l.Sound) (added : l.add f = some l') (named : f.id ≠ 0)
    (new : ∀ g ∈ l.list, g.id ≠ f.id) : l'.Sound := by
  obtain ⟨used, rest, busy, free, ⟨slot, unused, before⟩, after, bloom⟩ := add_shape sound added
  have old : l.filters = used := by
    refine filters_of_shape (slot :: rest) busy ?_ before
    intro g mem
    rcases List.mem_cons.mp mem with rfl | mem
    · exact unused
    · exact free g mem
  have grown : l'.filters = used ++ [{ f with disabled := false }] := by
    refine filters_of_shape rest ?_ free (by rw [after, List.append_assoc]; rfl)
    intro g mem
    rcases List.mem_append.mp mem with mem | mem
    · exact busy g mem
    · rw [List.mem_singleton.mp mem]
      exact named
  constructor
  · exact add_wf sound.wf added
  · rw [bloom, sound.bloom, old, grown, List.map_append, List.foldl_append]
    rfl
  · have ids := sound.ids
    rw [before, List.pairwise_append, List.pairwise_cons] at ids
    rw [after, List.pairwise_append, List.pairwise_cons]
    refine ⟨ids.1, ⟨fun g mem _ => ?_, ids.2.1.2⟩, fun a memA b memB inUse => ?_⟩
    · rw [free g mem]
      exact named
    · rcases List.mem_cons.mp memB with rfl | memB
      · exact new a (by rw [before]; simp [memA])
      · rw [free b memB]
        exact inUse
  · intro g mem zero
    rw [after] at mem
    rcases List.mem_append.mp mem with mem | mem
    · exact absurd zero (busy g mem)
    · rcases List.mem_cons.mp mem with rfl | mem
      · rfl
      · exact sound.enabled g (by rw [before]; simp [mem]) zero

theorem slot_unique (sound : l.Sound) {i j : Nat} (hi : i < l.list.length) (hj : j < l.list.length)
    (named : l.list[i].id ≠ 0) (same : l.list[i].id = l.list[j].id) : i = j := by
  have apart : ∀ {a b : Nat} (ha : a < l.list.length) (hb : b < l.list.length), a < b →
      l.list[a].id ≠ 0 → l.list[a].id ≠ l.list[b].id := fun ha hb lt =>
    List.pairwise_iff_getElem.mp sound.ids _ _ ha hb lt
  rcases Nat.lt_trichotomy i j with lt | eq | lt
  · exact absurd same (apart hi hj lt named)
  · exact eq
  · exact absurd same.symm (apart hj hi lt (same ▸ named))

theorem find_slot {id : FilterId} {n : Nat} (found : l.find id = some n) :
    ∃ inside : n < l.list.length, l.list[n].id = id := by
  obtain ⟨inside, is, _⟩ := List.findIdx?_eq_some_iff_getElem.mp found
  exact ⟨inside, by simpa using is⟩

theorem find_of_mem (sound : l.Sound) (mem : f ∈ l.list) (named : f.id ≠ 0) :
    ∃ n, l.find f.id = some n ∧ l.list[n]? = some f := by
  obtain ⟨n, inside, rfl⟩ := List.mem_iff_getElem.mp mem
  have some : (l.find l.list[n].id).isSome := by
    rw [FilterList.find, List.findIdx?_isSome, List.any_eq_true]
    exact ⟨_, mem, by simp⟩
  obtain ⟨k, found⟩ := Option.isSome_iff_exists.mp some
  obtain ⟨inside', is⟩ := find_slot found
  have same := slot_unique sound inside inside' named is.symm
  subst same
  exact ⟨n, found, List.getElem?_eq_getElem inside⟩

def KeepsKey (change : Filter → Filter) : Prop :=
  ∀ f, (change f).id = f.id ∧ (change f).levelMask = f.levelMask

theorem modify_sound (sound : l.Sound) {n : Nat} (inside : n < l.list.length)
    (named : l.list[n].id ≠ 0) {change : Filter → Filter} (keeps : KeepsKey change) :
    (l.modify n change).Sound := by
  have keys : (l.modify n change).list.map (fun f => (f.id, f.levelMask)) =
      l.list.map fun f => (f.id, f.levelMask) :=
    map_modify_same _ _ (fun f => Prod.ext (keeps f).1 (keeps f).2) _ _
  have masks : ∀ slots : List Filter, (slots.filter (·.id != 0)).map Filter.levelMask =
      ((slots.map fun f => (f.id, f.levelMask)).filter (·.1 != 0)).map Prod.snd := by
    intro slots
    rw [List.filter_map, List.map_map]
    rfl
  constructor
  · exact modify_wf sound.wf n keeps
  · rw [FilterList.filters, masks, keys, ← masks]
    exact sound.bloom
  · have ids : (l.modify n change).list.map Filter.id = l.list.map Filter.id :=
      map_modify_same _ _ (fun f => (keeps f).1) _ _
    have mapped : (l.list.map Filter.id).Pairwise fun a b => a ≠ 0 → a ≠ b :=
      List.pairwise_map.mpr sound.ids
    rw [← ids] at mapped
    exact List.pairwise_map.mp mapped
  · intro f mem zero
    obtain ⟨k, inside', rfl⟩ := List.mem_iff_getElem.mp mem
    simp only [FilterList.modify, List.getElem_modify] at zero ⊢
    simp only [FilterList.modify, List.length_modify] at inside'
    by_cases same : n = k
    · subst same
      rw [if_pos rfl, (keeps _).1] at zero
      exact absurd zero named
    · rw [if_neg same] at zero ⊢
      exact sound.enabled _ (List.getElem_mem _) zero

theorem modify_member {n : Nat} {change : Filter → Filter} (keeps : KeepsKey change)
    (mem : f ∈ l.list) : ∃ g ∈ (l.modify n change).list, g.id = f.id := by
  have ids : (l.modify n change).list.map Filter.id = l.list.map Filter.id :=
    map_modify_same _ _ (fun f => (keeps f).1) _ _
  have listed : f.id ∈ (l.modify n change).list.map Filter.id := by
    rw [ids]
    exact List.mem_map_of_mem mem
  exact List.mem_map.mp listed

theorem mem_modify {n : Nat} {change : Filter → Filter} (mem : f ∈ (l.modify n change).list) :
    (∃ inside : n < l.list.length, f = change l.list[n]) ∨
      ∃ (k : Nat) (inside : k < l.list.length), k ≠ n ∧ f = l.list[k] := by
  obtain ⟨k, inside, rfl⟩ := List.mem_iff_getElem.mp mem
  simp only [FilterList.modify, List.length_modify] at inside
  simp only [FilterList.modify, List.getElem_modify]
  by_cases same : n = k
  · subst same
    exact Or.inl ⟨inside, if_pos rfl⟩
  · exact Or.inr ⟨k, inside, Ne.symm same, if_neg same⟩

end

/-! The table and the registry. -/

structure Registered (n : Nat) (T : FilterTable) (R : FilterRegistry) : Prop where
  wf : T.Wf
  counter : T.nextFilterId.toNat = n + 1
  keyed : ∀ hash p, T.filterHashTable.lookup hash = some p → ∃ tag origin, hash = filterhash tag origin
  sound : ∀ hash p, T.filterHashTable.lookup hash = some p → (T.heap p).Sound
  recorded : ∀ tag origin p, T.filterHashTable.lookup (filterhash tag origin) = some p →
    ∀ f ∈ (T.heap p).list, f.id ≠ 0 → R f.id = some (f.entry origin tag)
  present : ∀ id e, R id = some e → ∃ p, T.filterHashTable.lookup (filterhash e.tag e.origin) = some p ∧
    ∃ f ∈ (T.heap p).list, f.id = id
  numbered : ∀ id e, R id = some e → id ≠ 0 ∧ id.toNat ≤ n

namespace Registered
variable {n : Nat} {T : FilterTable} {R : FilterRegistry}

theorem init (heap : ListPtr → FilterList) : Registered 0 (.init heap) fun _ => none where
  wf := FilterTable.init_wf heap
  counter := rfl
  keyed := by simp [FilterTable.init]
  sound := by simp [FilterTable.init]
  recorded := by simp [FilterTable.init]
  present := by simp
  numbered := by simp

theorem next_named (reg : Registered n T R) : T.nextFilterId ≠ 0 := by
  intro zero
  have count := reg.counter
  rw [zero] at count
  simp at count

theorem next_unused (reg : Registered n T R) {hash : FilterHash} {p : ListPtr}
    (listed : T.filterHashTable.lookup hash = some p) {f : Filter} (mem : f ∈ (T.heap p).list) :
    f.id ≠ T.nextFilterId := by
  intro same
  obtain ⟨tag, origin, rfl⟩ := reg.keyed hash p listed
  have named : f.id ≠ 0 := by
    rw [same]
    exact reg.next_named
  have small := (reg.numbered _ _ (reg.recorded tag origin p listed f mem named)).2
  rw [same, reg.counter] at small
  omega

theorem counted (reg : Registered n T R) (few : n + 1 < 2 ^ 32 - 1) :
    (T.nextFilterId + 1).toNat = n + 1 + 1 := by
  have count := reg.counter
  rw [UInt32.toNat_add, count]
  simp
  omega

structure Added (T T' : FilterTable) (origin : OriginId) (tag : TagId) (p : ListPtr)
    (old l : FilterList) (f : Filter) : Prop where
  counter : T'.nextFilterId = T.nextFilterId + 1
  id : f.id = T.nextFilterId
  enabled : f.disabled = false
  here : T'.filterHashTable.lookup (filterhash tag origin) = some p
  others : ∀ h, h ≠ filterhash tag origin →
    T'.filterHashTable.lookup h = T.filterHashTable.lookup h
  heap : T'.heap = Function.update T.heap p l
  add : old.add f = some l
  source : (old = T.heap p ∧ T.filterHashTable.lookup (filterhash tag origin) = some p) ∨
    (old = .new ∧ T.filterHashTable.lookup (filterhash tag origin) = none ∧ T.Fresh p)

section
variable {T' : FilterTable} {origin : OriginId} {tag : TagId} {p : ListPtr} {old l : FilterList}
  {f : Filter}

theorem unused_of_new {g : Filter} (mem : g ∈ FilterList.new.list) : g.id = 0 :=
  congrArg Filter.id (List.eq_of_mem_replicate mem)

theorem old_sound (reg : Registered n T R) (step : Added T T' origin tag p old l f) :
    old.Sound ∧ f.id ≠ 0 ∧ ∀ g ∈ old.list, g.id ≠ f.id := by
  rw [step.id]
  rcases step.source with ⟨rfl, listed⟩ | ⟨rfl, _⟩
  · exact ⟨reg.sound _ p listed, reg.next_named, fun g mem => reg.next_unused listed mem⟩
  · refine ⟨new_sound, reg.next_named, fun g mem => ?_⟩
    rw [unused_of_new mem]
    exact reg.next_named.symm

theorem added_apart (reg : Registered n T R) (step : Added T T' origin tag p old l f)
    {h : FilterHash} {q : ListPtr} (other : h ≠ filterhash tag origin)
    (listed : T.filterHashTable.lookup h = some q) : q ≠ p := by
  intro same
  subst same
  rcases step.source with ⟨_, there⟩ | ⟨_, _, new⟩
  · exact other (reg.wf.ptr_injective listed there)
  · exact new.2 h q listed rfl

theorem added_members (reg : Registered n T R) (step : Added T T' origin tag p old l f) (g : Filter)
    (inUse : g.id ≠ 0) : g ∈ l.list ↔ g ∈ old.list ∨ g = f := by
  obtain ⟨used, rest, busy, free, ⟨slot, empty, before⟩, after, _⟩ :=
    add_shape (old_sound reg step).1 step.add
  have itself : ({ f with disabled := false } : Filter) = f := by
    rw [← step.enabled]
  have notFree : g ∉ rest := fun mem => inUse (free g mem)
  have notEmpty : g ≠ slot := fun same => inUse (same ▸ empty)
  rw [before, after, itself]
  simp only [List.mem_append, List.mem_cons, notFree, notEmpty, or_false]

theorem added_recorded (reg : Registered n T R) (step : Added T T' origin tag p old l f)
    {tag' : TagId} {origin' : OriginId} {q : ListPtr}
    (listed : T'.filterHashTable.lookup (filterhash tag' origin') = some q) {g : Filter}
    (mem : g ∈ (T'.heap q).list) (inUse : g.id ≠ 0) :
    Function.update R f.id (some (f.entry origin tag)) g.id = some (g.entry origin' tag') := by
  rw [step.heap] at mem
  by_cases same : filterhash tag' origin' = filterhash tag origin
  · obtain ⟨rfl, rfl⟩ := filterhash_injective same
    rw [step.here] at listed
    cases listed
    rw [Function.update_self, added_members reg step g inUse] at mem
    rcases mem with known | rfl
    · rw [Function.update_of_ne ((old_sound reg step).2.2 g known)]
      rcases step.source with ⟨is, there⟩ | ⟨is, _⟩
      · exact reg.recorded tag' origin' p there g (is ▸ known) inUse
      · exact absurd (unused_of_new (is ▸ known)) inUse
    · exact Function.update_self ..
  · rw [step.others _ same] at listed
    rw [Function.update_of_ne (added_apart reg step same listed)] at mem
    have known := reg.next_unused listed mem
    rw [← step.id] at known
    rw [Function.update_of_ne known]
    exact reg.recorded tag' origin' q listed g mem inUse

theorem added_present (reg : Registered n T R) (step : Added T T' origin tag p old l f)
    {id : FilterId} {e : FilterEntry}
    (entry : Function.update R f.id (some (f.entry origin tag)) id = some e) :
    ∃ q, T'.filterHashTable.lookup (filterhash e.tag e.origin) = some q ∧
      ∃ g ∈ (T'.heap q).list, g.id = id := by
  rw [step.heap]
  by_cases same : id = f.id
  · rw [same, Function.update_self] at entry
    cases entry
    refine ⟨p, step.here, f, ?_, same.symm⟩
    rw [Function.update_self, added_members reg step f (old_sound reg step).2.1]
    exact Or.inr rfl
  · rw [Function.update_of_ne same] at entry
    obtain ⟨q, listed, g, mem, rfl⟩ := reg.present id e entry
    have inUse := (reg.numbered _ _ entry).1
    by_cases key : filterhash e.tag e.origin = filterhash tag origin
    · refine ⟨p, by rw [key]; exact step.here, g, ?_, rfl⟩
      rw [Function.update_self, added_members reg step g inUse]
      rw [key] at listed
      rcases step.source with ⟨is, there⟩ | ⟨_, none, _⟩
      · rw [there] at listed
        cases listed
        exact Or.inl (is ▸ mem)
      · rw [none] at listed
        cases listed
    · refine ⟨q, (step.others _ key).trans listed, g, ?_, rfl⟩
      rw [Function.update_of_ne (added_apart reg step key listed)]
      exact mem

theorem added (reg : Registered n T R) (few : n + 1 < 2 ^ 32 - 1) (wf : T'.Wf)
    (step : Added T T' origin tag p old l f) :
    Registered (n + 1) T' (Function.update R f.id (some (f.entry origin tag))) := by
  obtain ⟨sound, named, unused⟩ := old_sound reg step
  constructor
  · exact wf
  · rw [step.counter]
    exact reg.counted few
  · intro h q listed
    by_cases same : h = filterhash tag origin
    · exact ⟨tag, origin, same⟩
    · exact reg.keyed h q ((step.others h same) ▸ listed)
  · intro h q listed
    rw [step.heap]
    by_cases same : h = filterhash tag origin
    · rw [same, step.here] at listed
      cases listed
      rw [Function.update_self]
      exact add_sound sound step.add named unused
    · rw [step.others h same] at listed
      rw [Function.update_of_ne (added_apart reg step same listed)]
      exact reg.sound h q listed
  · intro tag' origin' q listed g mem inUse
    exact added_recorded reg step listed mem inUse
  · intro id e entry
    exact added_present reg step entry
  · intro id e entry
    by_cases same : id = f.id
    · refine ⟨same ▸ named, ?_⟩
      rw [same, step.id, reg.counter]
    · rw [Function.update_of_ne same] at entry
      obtain ⟨inUse, small⟩ := reg.numbered id e entry
      exact ⟨inUse, Nat.le_succ_of_le small⟩

end

theorem refused (reg : Registered n T R) (few : n + 1 < 2 ^ 32 - 1) {T' : FilterTable}
    (counter : T'.nextFilterId = T.nextFilterId + 1) (table : T'.filterHashTable = T.filterHashTable)
    (heap : T'.heap = T.heap) : Registered (n + 1) T' R := by
  obtain ⟨heads, memory, next⟩ := T'
  simp only at counter table heap
  subst counter table heap
  exact ⟨⟨reg.wf.ptr_ne_zero, reg.wf.ptr_injective, reg.wf.list_wf⟩, reg.counted few, reg.keyed,
    reg.sound, reg.recorded, reg.present, fun id e entry =>
      ⟨(reg.numbered id e entry).1, Nat.le_succ_of_le (reg.numbered id e entry).2⟩⟩

theorem lookup_slot {origin : OriginId} {tag : TagId} {id : FilterId} {p : ListPtr} {k : Nat}
    (slot : T._lookupFilter origin tag id = some (p, k)) :
    T.filterHashTable.lookup (filterhash tag origin) = some p ∧
      ∃ inside : k < (T.heap p).list.length, (T.heap p).list[k].id = id := by
  have listed := FilterTable.lookupFilter_found slot
  refine ⟨listed, ?_⟩
  simp only [FilterTable._lookupFilter, listed, Option.map_eq_some_iff, Prod.mk.injEq] at slot
  obtain ⟨m, found, _, rfl⟩ := slot
  exact find_slot found

section
variable {origin : OriginId} {tag : TagId} {id : FilterId} {p : ListPtr} {k : Nat}
  {change : Filter → Filter} {changed : FilterEntry → FilterEntry}

theorem slot_entry (reg : Registered n T R) (named : id ≠ 0)
    (slot : T._lookupFilter origin tag id = some (p, k)) :
    ∃ inside : k < (T.heap p).list.length, (T.heap p).list[k].id = id ∧
      R id = some ((T.heap p).list[k].entry origin tag) := by
  obtain ⟨listed, inside, is⟩ := lookup_slot slot
  have known := reg.recorded tag origin p listed _ (List.getElem_mem inside) (is ▸ named)
  rw [is] at known
  exact ⟨inside, is, known⟩

theorem modified_recorded (reg : Registered n T R) (named : id ≠ 0)
    (slot : T._lookupFilter origin tag id = some (p, k)) (keeps : KeepsKey change)
    (same : ∀ f, (change f).entry origin tag = changed (f.entry origin tag)) {tag' : TagId}
    {origin' : OriginId} {q : ListPtr}
    (there : T.filterHashTable.lookup (filterhash tag' origin') = some q) {g : Filter}
    (mem : g ∈ ((T.modifySlot p k change).heap q).list) (used : g.id ≠ 0) :
    Function.update R id ((R id).map changed) g.id = some (g.entry origin' tag') := by
  have listed := (lookup_slot slot).1
  obtain ⟨inside, is, entry⟩ := reg.slot_entry named slot
  simp only [FilterTable.modifySlot] at mem
  by_cases here : q = p
  · subst here
    obtain ⟨rfl, rfl⟩ := filterhash_injective (reg.wf.ptr_injective there listed)
    rw [Function.update_self] at mem
    rcases mem_modify mem with ⟨_, rfl⟩ | ⟨j, at_j, other, rfl⟩
    · rw [(keeps _).1, is, Function.update_self, entry, Option.map_some, same]
    · have apart : (T.heap q).list[j].id ≠ id := by
        intro clash
        exact other (slot_unique (reg.sound _ q listed) at_j inside used (clash.trans is.symm))
      rw [Function.update_of_ne apart]
      exact reg.recorded tag' origin' q there _ (List.getElem_mem at_j) used
  · rw [Function.update_of_ne here] at mem
    have known := reg.recorded tag' origin' q there g mem used
    have apart : g.id ≠ id := by
      intro clash
      rw [clash, entry] at known
      simp only [Filter.entry, Option.some.injEq, FilterEntry.mk.injEq] at known
      rw [← known.1, ← known.2.1, listed] at there
      exact here (Option.some.inj there).symm
    rw [Function.update_of_ne apart]
    exact known

theorem modified_member (keeps : KeepsKey change) {q : ListPtr} {g : Filter}
    (mem : g ∈ (T.heap q).list) :
    ∃ g' ∈ ((T.modifySlot p k change).heap q).list, g'.id = g.id := by
  simp only [FilterTable.modifySlot]
  by_cases here : q = p
  · subst here
    rw [Function.update_self]
    exact modify_member keeps mem
  · rw [Function.update_of_ne here]
    exact ⟨g, mem, rfl⟩

theorem modified_present (reg : Registered n T R) (named : id ≠ 0)
    (slot : T._lookupFilter origin tag id = some (p, k)) (keeps : KeepsKey change)
    (same : ∀ f, (change f).entry origin tag = changed (f.entry origin tag)) {id' : FilterId}
    {e : FilterEntry} (known : Function.update R id ((R id).map changed) id' = some e) :
    ∃ q, T.filterHashTable.lookup (filterhash e.tag e.origin) = some q ∧
      ∃ g ∈ ((T.modifySlot p k change).heap q).list, g.id = id' := by
  obtain ⟨inside, _, entry⟩ := reg.slot_entry named slot
  obtain ⟨e', known', key⟩ : ∃ e', R id' = some e' ∧ e'.tag = e.tag ∧ e'.origin = e.origin := by
    by_cases here : id' = id
    · rw [here, Function.update_self, entry, Option.map_some, ← same] at known
      cases known
      exact ⟨(T.heap p).list[k].entry origin tag, by rw [here]; exact entry, rfl, rfl⟩
    · rw [Function.update_of_ne here] at known
      exact ⟨e, known, rfl, rfl⟩
  obtain ⟨q, there, g, mem, rfl⟩ := reg.present id' e' known'
  rw [key.1, key.2] at there
  exact ⟨q, there, modified_member keeps mem⟩

theorem modified (reg : Registered n T R) (named : id ≠ 0)
    (slot : T._lookupFilter origin tag id = some (p, k)) (change : Filter → Filter)
    (changed : FilterEntry → FilterEntry) (keeps : KeepsKey change)
    (same : ∀ f, (change f).entry origin tag = changed (f.entry origin tag)) :
    Registered n (T.modifySlot p k change) (Function.update R id ((R id).map changed)) := by
  obtain ⟨inside, is, entry⟩ := reg.slot_entry named slot
  constructor
  · exact FilterTable.modifySlot_wf reg.wf slot keeps
  · exact reg.counter
  · exact reg.keyed
  · intro h q there
    simp only [FilterTable.modifySlot]
    by_cases here : q = p
    · subst here
      rw [Function.update_self]
      exact modify_sound (reg.sound h q there) inside (is ▸ named) keeps
    · rw [Function.update_of_ne here]
      exact reg.sound h q there
  · intro tag' origin' q there g mem used
    exact reg.modified_recorded named slot keeps same there mem used
  · intro id' e known
    exact reg.modified_present named slot keeps same known
  · intro id' e known
    by_cases here : id' = id
    · subst here
      exact reg.numbered _ _ entry
    · rw [Function.update_of_ne here] at known
      exact reg.numbered id' e known

end

theorem lookup_entry (reg : Registered n T R) {id : FilterId} {e : FilterEntry}
    (entry : R id = some e) :
    ∃ p k f, T._lookupFilter e.origin e.tag id = some (p, k) ∧ (T.heap p).list[k]? = some f ∧
      f.entry e.origin e.tag = e := by
  obtain ⟨p, listed, f, mem, rfl⟩ := reg.present id e entry
  have inUse := (reg.numbered _ _ entry).1
  obtain ⟨k, found, at_k⟩ := find_of_mem (reg.sound _ p listed) mem inUse
  have known := reg.recorded e.tag e.origin p listed f mem inUse
  rw [entry] at known
  refine ⟨p, k, f, ?_, at_k, (Option.some.inj known).symm⟩
  simp only [FilterTable._lookupFilter, listed, found, Option.map_some]

theorem entry_of_lookup (reg : Registered n T R) {origin : OriginId} {tag : TagId} {id : FilterId}
    (named : id ≠ 0) {slot : ListPtr × Nat} (found : T._lookupFilter origin tag id = some slot) :
    ∃ e, R id = some e ∧ e.origin = origin ∧ e.tag = tag := by
  obtain ⟨listed, inside, is⟩ := lookup_slot (p := slot.1) (k := slot.2) found
  have known := reg.recorded tag origin slot.1 listed _ (List.getElem_mem inside) (is ▸ named)
  rw [is] at known
  exact ⟨_, known, rfl, rfl⟩

theorem next_not_found (reg : Registered n T R) {T' : FilterTable}
    (table : T'.filterHashTable = T.filterHashTable) (heap : T'.heap = T.heap) (origin : OriginId)
    (tag : TagId) : T'._lookupFilter origin tag T.nextFilterId = none := by
  cases found : T'._lookupFilter origin tag T.nextFilterId with
  | none => rfl
  | some slot =>
    obtain ⟨listed, inside, is⟩ := lookup_slot (p := slot.1) (k := slot.2) found
    rw [table] at listed
    simp only [heap] at inside is
    exact absurd is (reg.next_unused listed (List.getElem_mem inside))

end Registered

/-! The calls. -/

theorem addFilter_unaddable (T : FilterTable) (fresh : ListPtr) {args : FilterArgs}
    (bad : ¬ args.Addable) : ∃ e, T.addFilter fresh args = (T, .error e) := by
  unfold FilterTable.addFilter
  by_cases mask : args.mask = .other
  · rw [if_pos mask]
    exact ⟨_, rfl⟩
  · rw [if_neg mask, if_pos (by_contra fun given => bad ⟨mask, given⟩)]
    exact ⟨_, rfl⟩

def FilterTable.addRaw (T : FilterTable) (fresh : ListPtr) (args : FilterArgs) :
    FilterTable × FilterId × Bool :=
  T._addFilter fresh (args.target.getD 0) (args.origin.getD 0) (args.tag.getD 0) args.levels
    (args.pre.bind LogLabel.fromUTF8) (args.postFmtPreMsg.bind LogLabel.fromUTF8)
    (args.post.bind LogLabel.fromUTF8)

def FilterTable.setDisable (T : FilterTable) (args : FilterArgs) (id : FilterId) : FilterTable :=
  if args.disable = some true then
    match T._lookupFilter (args.origin.getD 0) (args.tag.getD 0) id with
    | some (p, n) => T.modifySlot p n fun f => { f with disabled := true }
    | none => T
  else T

theorem addFilter_addable (T : FilterTable) (fresh : ListPtr) {args : FilterArgs}
    (good : args.Addable) :
    T.addFilter fresh args =
      ((T.addRaw fresh args).1.setDisable args (T.addRaw fresh args).2.1,
        .ok (if (T.addRaw fresh args).2.2 then some (T.addRaw fresh args).2.1 else none)) := by
  unfold FilterTable.addFilter
  rw [if_neg good.1, if_neg good.2]
  rfl

namespace Registered
variable {n : Nat} {T : FilterTable} {R : FilterRegistry}

theorem addRaw_added (reg : Registered n T R) (few : n + 1 < 2 ^ 32 - 1) {fresh : ListPtr}
    (new : T.Fresh fresh) {args : FilterArgs} (success : (T.addRaw fresh args).2.2 = true) :
    Registered (n + 1) (T.addRaw fresh args).1 (Function.update R (T.addRaw fresh args).2.1 (some
      ⟨args.origin.getD 0, args.tag.getD 0, args.levels, args.target.getD 0, false⟩)) := by
  have wf : (T.addRaw fresh args).1.Wf := FilterTable.addFilterRaw_wf reg.wf new ..
  obtain ⟨id, counter, ⟨p, l, _, found, add, table, heap⟩ | ⟨l, _, none, add, table, heap⟩ |
    ⟨_, refused, _⟩⟩ := FilterTable.addFilterRaw_cases T fresh (args.target.getD 0)
      (args.origin.getD 0) (args.tag.getD 0) args.levels (args.pre.bind LogLabel.fromUTF8)
      (args.postFmtPreMsg.bind LogLabel.fromUTF8) (args.post.bind LogLabel.fromUTF8)
  · have step : Added T (T.addRaw fresh args).1 (args.origin.getD 0) (args.tag.getD 0) p (T.heap p) l
        _ := ⟨counter, rfl, rfl, (congrArg _ table).trans found, fun h _ => congrArg _ table, heap, add,
          Or.inl ⟨rfl, found⟩⟩
    have grown := reg.added few wf step
    rw [show (T.addRaw fresh args).2.1 = T.nextFilterId from id]
    exact grown
  · have here : (T.addRaw fresh args).1.filterHashTable.lookup
        (filterhash (args.tag.getD 0) (args.origin.getD 0)) = some fresh := by
      rw [show (T.addRaw fresh args).1.filterHashTable = _ from table, AList.lookup_insert]
    have others : ∀ h, h ≠ filterhash (args.tag.getD 0) (args.origin.getD 0) →
        (T.addRaw fresh args).1.filterHashTable.lookup h = T.filterHashTable.lookup h := by
      intro h other
      rw [show (T.addRaw fresh args).1.filterHashTable = _ from table, AList.lookup_insert_ne other]
    have step : Added T (T.addRaw fresh args).1 (args.origin.getD 0) (args.tag.getD 0) fresh .new l
        _ := ⟨counter, rfl, rfl, here, others, heap, add, Or.inr ⟨rfl, none, new⟩⟩
    have grown := reg.added few wf step
    rw [show (T.addRaw fresh args).2.1 = T.nextFilterId from id]
    exact grown
  · rw [show (T.addRaw fresh args).2.2 = false from refused] at success
    cases success

theorem addRaw_refused (T : FilterTable) (fresh : ListPtr) (args : FilterArgs)
    (fail : (T.addRaw fresh args).2.2 = false) :
    (T.addRaw fresh args).2.1 = T.nextFilterId ∧
      (T.addRaw fresh args).1.nextFilterId = T.nextFilterId + 1 ∧
      (T.addRaw fresh args).1.filterHashTable = T.filterHashTable ∧
      (T.addRaw fresh args).1.heap = T.heap := by
  obtain ⟨id, counter, ⟨_, _, added, _⟩ | ⟨_, added, _⟩ | ⟨_, _, _, _, table, heap⟩⟩ :=
    FilterTable.addFilterRaw_cases T fresh (args.target.getD 0) (args.origin.getD 0)
      (args.tag.getD 0) args.levels (args.pre.bind LogLabel.fromUTF8)
      (args.postFmtPreMsg.bind LogLabel.fromUTF8) (args.post.bind LogLabel.fromUTF8)
  · rw [show (T.addRaw fresh args).2.2 = true from added] at fail
    cases fail
  · rw [show (T.addRaw fresh args).2.2 = true from added] at fail
    cases fail
  · exact ⟨id, counter, table, heap⟩

theorem setDisable_refused (reg : Registered n T R) {T' : FilterTable}
    (table : T'.filterHashTable = T.filterHashTable) (heap : T'.heap = T.heap) (args : FilterArgs) :
    T'.setDisable args T.nextFilterId = T' := by
  unfold FilterTable.setDisable
  split
  · rw [reg.next_not_found table heap]
  · rfl

theorem setDisable_registered (reg : Registered n T R) {args : FilterArgs} {id : FilterId}
    {e : FilterEntry} (entry : R id = some e) (origin : e.origin = args.origin.getD 0)
    (tag : e.tag = args.tag.getD 0) (enabled : e.disabled = false) :
    Registered n (T.setDisable args id)
      (Function.update R id (some { e with disabled := decide (args.disable = some true) })) := by
  unfold FilterTable.setDisable
  split
  · rename_i disables
    obtain ⟨p, k, f, found, _, _⟩ := reg.lookup_entry entry
    rw [origin, tag] at found
    rw [found, disables]
    have changed := reg.modified (reg.numbered id e entry).1 found
      (fun f => { f with disabled := true }) (fun e => { e with disabled := true })
      (fun _ => ⟨rfl, rfl⟩) (fun _ => rfl)
    rw [entry] at changed
    exact changed
  · rename_i keeps
    have same : ({ e with disabled := decide (args.disable = some true) } : FilterEntry) = e := by
      rw [decide_eq_false keeps, ← enabled]
    rw [same, ← entry, Function.update_eq_self]
    exact reg

theorem addFilter_registered (reg : Registered n T R) {fresh : ListPtr} (new : T.Fresh fresh)
    (args : FilterArgs)
    (few : n + (FilterCall.addFilter fresh args).addsFilter.toNat < 2 ^ 32 - 1) :
    Registered (n + (FilterCall.addFilter fresh args).addsFilter.toNat) (T.addFilter fresh args).1
      (R.call T (.addFilter fresh args)) := by
  by_cases good : args.Addable
  · have adds : (FilterCall.addFilter fresh args).addsFilter = true := decide_eq_true good
    rw [adds] at few ⊢
    simp only [FilterRegistry.call, addFilter_addable T fresh good]
    cases success : (T.addRaw fresh args).2.2 with
    | true =>
      have grown := reg.addRaw_added few new success
      have done := grown.setDisable_registered (Function.update_self ..) rfl rfl rfl
      rw [Function.update_idem] at done
      exact done
    | false =>
      obtain ⟨id, counter, table, heap⟩ := addRaw_refused T fresh args success
      rw [id, reg.setDisable_refused table heap]
      exact reg.refused few counter table heap
  · obtain ⟨e, run⟩ := addFilter_unaddable T fresh good
    have adds : (FilterCall.addFilter fresh args).addsFilter = false := decide_eq_false good
    rw [adds]
    simp only [FilterRegistry.call, run]
    exact reg

theorem modifyFilter_cases (T : FilterTable) (args : FilterArgs) :
    ((T.modifyFilter args).1 = T ∧ (T.modifyFilter args).2 ≠ .ok true) ∨
      ∃ id p k, args.id = some id ∧ id ≠ 0 ∧
        T._lookupFilter (args.origin.getD 0) (args.tag.getD 0) id = some (p, k) ∧
        T.modifyFilter args = (T.modifySlot p k fun f =>
          { f with disabled := args.disable.getD f.disabled, targetId := args.target.getD f.targetId },
          .ok true) := by
  unfold FilterTable.modifyFilter
  split
  · exact Or.inl ⟨rfl, by simp⟩
  · exact Or.inl ⟨rfl, by simp⟩
  · rename_i id given _
    split
    · exact Or.inl ⟨rfl, by simp⟩
    · rename_i named
      split
      · exact Or.inl ⟨rfl, by simp⟩
      · rename_i p k found
        exact Or.inr ⟨id, p, k, given, named, found, rfl⟩

theorem modifyFilter_failed {args : FilterArgs} (fails : (T.modifyFilter args).2 ≠ .ok true) :
    R.call T (.modifyFilter args) = R := by
  simp only [FilterRegistry.call]
  split
  · rename_i ok _
    exact absurd ok fails
  · rfl

theorem modifyFilter_registered (reg : Registered n T R) (args : FilterArgs) :
    Registered n (T.modifyFilter args).1 (R.call T (.modifyFilter args)) := by
  rcases modifyFilter_cases T args with ⟨same, fails⟩ | ⟨id, p, k, given, named, found, run⟩
  · rw [same, modifyFilter_failed fails]
    exact reg
  · simp only [FilterRegistry.call, run, given]
    exact reg.modified named found _
      (fun e => { e with
        disabled := args.disable.getD e.disabled
        target := args.target.getD e.target })
      (fun _ => ⟨rfl, rfl⟩) fun _ => rfl

theorem step_registered {s s' : FilterRun} {c : FilterCall} (reg : Registered n s.T s.R)
    (step : FilterRun.Step s c s') (few : n + c.addsFilter.toNat < 2 ^ 32 - 1) :
    Registered (n + c.addsFilter.toNat) s'.T s'.R := by
  obtain ⟨allowed, rfl⟩ := step
  cases c with
  | addFilter fresh args => exact reg.addFilter_registered allowed args few
  | modifyFilter args => exact reg.modifyFilter_registered args

theorem countP_addsFilter (calls : List FilterCall) (c : FilterCall) :
    (calls ++ [c]).countP FilterCall.addsFilter =
      calls.countP FilterCall.addsFilter + c.addsFilter.toNat := by
  rw [List.countP_append, List.countP_singleton]
  cases c.addsFilter <;> rfl

theorem run_registered {heap : ListPtr → FilterList} {calls : List FilterCall} {s : FilterRun}
    (run : Runs.Run FilterRun.Step (.init heap) calls s)
    (few : calls.countP FilterCall.addsFilter < 2 ^ 32 - 1) :
    Registered (calls.countP FilterCall.addsFilter) s.T s.R := by
  induction run with
  | start => exact Registered.init heap
  | next before last ih =>
    rename_i calls s s' c
    rw [countP_addsFilter] at few ⊢
    exact (ih (by omega)).step_registered last few

theorem failed_call (reg : Registered n T R) {c : FilterCall} (fails : c.Fails T) :
    (T.call c).filterHashTable = T.filterHashTable ∧ (T.call c).heap = T.heap := by
  cases c with
  | addFilter fresh args =>
    simp only [FilterTable.call]
    by_cases good : args.Addable
    · cases success : (T.addRaw fresh args).2.2 with
      | true =>
        refine absurd ?_ (fails (T.addRaw fresh args).2.1)
        rw [addFilter_addable T fresh good, success]
        rfl
      | false =>
        obtain ⟨id, _, table, heap⟩ := addRaw_refused T fresh args success
        rw [addFilter_addable T fresh good, id, reg.setDisable_refused table heap]
        exact ⟨table, heap⟩
    · obtain ⟨e, run⟩ := addFilter_unaddable T fresh good
      rw [run]
      exact ⟨rfl, rfl⟩
  | modifyFilter args =>
    rcases modifyFilter_cases T args with ⟨same, _⟩ | ⟨id, p, k, _, _, _, run⟩
    · simp only [FilterTable.call, same, and_self]
    · exact absurd (by rw [run]) fails

theorem addFilter_id {fresh : ListPtr} {args : FilterArgs} {id : FilterId}
    (result : (T.addFilter fresh args).2 = .ok (some id)) : id = T.nextFilterId := by
  by_cases good : args.Addable
  · rw [addFilter_addable T fresh good] at result
    simp only [Except.ok.injEq, Option.ite_none_right_eq_some, Option.some.injEq] at result
    rw [← result.2]
    exact (FilterTable.addFilterRaw_cases T fresh ..).1
  · obtain ⟨err, run⟩ := addFilter_unaddable T fresh good
    rw [run] at result
    cases result

theorem step_keeps {s s' : FilterRun} {c : FilterCall} (reg : Registered n s.T s.R)
    (step : FilterRun.Step s c s') {id : FilterId} {e : FilterEntry} (entry : s.R id = some e) :
    ∃ e', s'.R id = some e' ∧ e'.origin = e.origin ∧ e'.tag = e.tag ∧ e'.mask = e.mask := by
  obtain ⟨_, rfl⟩ := step
  have same : ∃ e', s.R id = some e' ∧ e'.origin = e.origin ∧ e'.tag = e.tag ∧ e'.mask = e.mask :=
    ⟨e, entry, rfl, rfl, rfl⟩
  cases c with
  | addFilter fresh args =>
    simp only [FilterRegistry.call]
    cases result : (s.T.addFilter fresh args).2 with
    | error err => exact same
    | ok added =>
      cases added with
      | none => exact same
      | some id' =>
        have apart : id ≠ id' := by
          intro clash
          have small := (reg.numbered id e entry).2
          rw [clash, addFilter_id result, reg.counter] at small
          omega
        simp only [Function.update_of_ne apart]
        exact same
  | modifyFilter args =>
    rcases modifyFilter_cases s.T args with ⟨_, fails⟩ | ⟨id', p, k, given, _, _, run⟩
    · rw [modifyFilter_failed fails]
      exact same
    · simp only [FilterRegistry.call, run, given]
      by_cases here : id = id'
      · simp only [← here, Function.update_self, entry, Option.map_some]
        exact ⟨_, rfl, rfl, rfl, rfl⟩
      · simp only [Function.update_of_ne here]
        exact same

theorem run_keeps {s s' : FilterRun} {later : List FilterCall} (reg : Registered n s.T s.R)
    (run : Runs.Run FilterRun.Step s later s')
    (few : n + later.countP FilterCall.addsFilter < 2 ^ 32 - 1) :
    Registered (n + later.countP FilterCall.addsFilter) s'.T s'.R ∧
      ∀ id e, s.R id = some e →
        ∃ e', s'.R id = some e' ∧ e'.origin = e.origin ∧ e'.tag = e.tag ∧ e'.mask = e.mask := by
  induction run with
  | start => exact ⟨reg, fun id e entry => ⟨e, entry, rfl, rfl, rfl⟩⟩
  | next before last ih =>
    rename_i calls s₁ s₂ c
    rw [countP_addsFilter, ← Nat.add_assoc] at few ⊢
    obtain ⟨reg₁, kept⟩ := ih (by omega)
    refine ⟨reg₁.step_registered last few, ?_⟩
    intro id e entry
    obtain ⟨e₁, entry₁, origin, tag, mask⟩ := kept id e entry
    obtain ⟨e₂, entry₂, origin', tag', mask'⟩ := reg₁.step_keeps last entry₁
    exact ⟨e₂, entry₂, origin'.trans origin, tag'.trans tag, mask'.trans mask⟩

theorem ids_distinct (reg : Registered n T R) {hash hash' : FilterHash} {p p' : ListPtr}
    (listed : T.filterHashTable.lookup hash = some p)
    (listed' : T.filterHashTable.lookup hash' = some p') {i j : Nat} {f f' : Filter}
    (at_i : (T.heap p).list[i]? = some f) (at_j : (T.heap p').list[j]? = some f') (named : f.id ≠ 0)
    (same : f.id = f'.id) : hash = hash' ∧ i = j := by
  obtain ⟨tag, origin, rfl⟩ := reg.keyed hash p listed
  obtain ⟨tag', origin', rfl⟩ := reg.keyed hash' p' listed'
  obtain ⟨inside, rfl⟩ := List.getElem?_eq_some_iff.mp at_i
  obtain ⟨inside', rfl⟩ := List.getElem?_eq_some_iff.mp at_j
  have entry := reg.recorded tag origin p listed _ (List.getElem_mem inside) named
  have entry' := reg.recorded tag' origin' p' listed' _ (List.getElem_mem inside') (same ▸ named)
  rw [← same, entry] at entry'
  simp only [Filter.entry, Option.some.injEq, FilterEntry.mk.injEq] at entry'
  obtain ⟨rfl, rfl, _⟩ := entry'
  rw [listed] at listed'
  cases listed'
  exact ⟨rfl, slot_unique (reg.sound _ p listed) inside inside' named same⟩

end Registered

theorem filters_front {slots : List Filter} (suffix : slots.Pairwise fun a b => a.id = 0 → b.id = 0) :
    ∃ rest, slots = slots.filter (·.id != 0) ++ rest ∧ ∀ f ∈ rest, f.id = 0 := by
  induction slots with
  | nil => exact ⟨[], rfl, by simp⟩
  | cons f others ih =>
    obtain ⟨zeros, tail⟩ := List.pairwise_cons.mp suffix
    by_cases free : f.id = 0
    · have none : (f :: others).filter (·.id != 0) = [] := by
        rw [List.filter_eq_nil_iff]
        intro g mem
        rcases List.mem_cons.mp mem with rfl | mem
        · simp [free]
        · simp [zeros g mem free]
      refine ⟨f :: others, by rw [none, List.nil_append], ?_⟩
      intro g mem
      rcases List.mem_cons.mp mem with rfl | mem
      · exact free
      · exact zeros g mem free
    · obtain ⟨rest, split, zero⟩ := ih tail
      refine ⟨rest, ?_, zero⟩
      rw [List.filter_cons_of_pos (by simpa using free), List.cons_append, ← split]

/-- The slots in use come first and bloom is the union of their masks; no id is used twice; what
    is registered stays, and is found as it was last set under its own key only; and a call
    that fails changes no list. -/
theorem filter_table_invariant {heap : ListPtr → FilterList} {calls : List FilterCall} {s : FilterRun}
    (run : Runs.Run FilterRun.Step (.init heap) calls s)
    (few : calls.countP FilterCall.addsFilter < 2 ^ 32 - 1) :
    (∀ hash p, s.T.filterHashTable.lookup hash = some p →
      (∃ rest, (s.T.heap p).list = (s.T.heap p).filters ++ rest ∧ ∀ f ∈ rest, f.id = 0) ∧
      (s.T.heap p).filters.length ≤ MAX_IDENTICAL_FILTERS ∧
      (s.T.heap p).bloom = ((s.T.heap p).filters.map Filter.levelMask).foldl (· ||| ·) 0) ∧
    (∀ hash hash' p p', s.T.filterHashTable.lookup hash = some p →
      s.T.filterHashTable.lookup hash' = some p' → ∀ (i j : Nat) (f f' : Filter),
      (s.T.heap p).list[i]? = some f → (s.T.heap p').list[j]? = some f' → f.id ≠ 0 →
      f.id = f'.id → hash = hash' ∧ i = j) ∧
    (∀ id e, s.R id = some e → id ≠ 0 ∧
      (∃ f, s.T.found e.origin e.tag id = some f ∧ f.entry e.origin e.tag = e) ∧
      (∀ origin tag, s.T._lookupFilter origin tag id ≠ none → origin = e.origin ∧ tag = e.tag) ∧
      ∀ later s', Runs.Run FilterRun.Step s later s' →
        calls.countP FilterCall.addsFilter + later.countP FilterCall.addsFilter < 2 ^ 32 - 1 →
        ∃ e', s'.R id = some e' ∧ e'.origin = e.origin ∧ e'.tag = e.tag ∧ e'.mask = e.mask) ∧
    ∀ c : FilterCall, c.Fails s.T →
      (s.T.call c).filterHashTable = s.T.filterHashTable ∧ (s.T.call c).heap = s.T.heap := by
  have reg := Registered.run_registered run few
  refine ⟨?_, ?_, ?_, fun c fails => reg.failed_call fails⟩
  · intro hash p listed
    have sound := reg.sound hash p listed
    refine ⟨filters_front sound.wf.zero_suffix, ?_, sound.bloom⟩
    rw [← (s.T.heap p).sized]
    exact List.length_filter_le _ _
  · intro hash hash' p p' listed listed' i j f f' at_i at_j named same
    exact reg.ids_distinct listed listed' at_i at_j named same
  · intro id e entry
    have named := (reg.numbered id e entry).1
    refine ⟨named, ?_, ?_, ?_⟩
    · obtain ⟨p, k, f, found, at_k, is⟩ := reg.lookup_entry entry
      refine ⟨f, ?_, is⟩
      rw [FilterTable.found, found]
      exact at_k
    · intro origin tag found
      obtain ⟨slot, listed⟩ := Option.ne_none_iff_exists'.mp found
      obtain ⟨e', known, rfl, rfl⟩ := reg.entry_of_lookup named listed
      rw [entry] at known
      cases known
      exact ⟨rfl, rfl⟩
    · intro later s' run' few'
      exact (reg.run_keeps run' few').2 id e entry

def disablingCalls : List FilterCall :=
  [.addFilter 1 { tag := some 5, target := some 7, mask := .uint32 3 },
    .modifyFilter { tag := some 5, id := some 1, disable := some true }]

def FilterRun.apply (s : FilterRun) (c : FilterCall) : FilterRun := ⟨s.T.call c, s.R.call s.T c⟩

theorem filter_table_invariant_disabled :
    ∃ s, Runs.Run FilterRun.Step (.init fun _ => .new) disablingCalls s ∧
      ∃ f, s.T.found 0 5 1 = some f ∧ f.entry 0 5 = ⟨0, 5, 3, 7, true⟩ := by
  have new : (FilterTable.init fun _ => .new).Fresh 1 := ⟨by decide, by simp [FilterTable.init]⟩
  have run : Runs.Run FilterRun.Step (.init fun _ => .new) disablingCalls
      (disablingCalls.foldl FilterRun.apply (.init fun _ => .new)) :=
    (Runs.Run.start.next ⟨new, rfl⟩).next ⟨trivial, rfl⟩
  have entry : (disablingCalls.foldl FilterRun.apply (.init fun _ => .new)).R 1 =
      some ⟨0, 5, 3, 7, true⟩ := by decide
  obtain ⟨_, _, found, _⟩ := filter_table_invariant run (by decide)
  exact ⟨_, run, (found 1 _ entry).2.1⟩

end GreaseLog
