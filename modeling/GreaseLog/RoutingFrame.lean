import Mathlib.Data.List.TakeWhile
import GreaseLog.RoutingSpec

/- What one more filter changes for a message, and where the loops over a filter list end. -/
namespace GreaseLog

/-! The loops read the id of one slot after the other; no index stops them. -/

namespace FilterList

/-- list[n].id, as the memory behind the array has it from its end on. -/
def idAt (l : FilterList) (behind : Nat → FilterId) (n : Nat) : FilterId :=
  match l.list[n]? with
  | some f => f.id
  | none => behind n

def Accesses (l : FilterList) (behind : Nat → FilterId) (n : Nat) : Prop :=
  ∀ k < n, l.idAt behind k ≠ 0

structure LoopInBounds (l : FilterList) (behind : Nat → FilterId) : Prop where
  accesses : ∀ n, l.Accesses behind n → n < MAX_IDENTICAL_FILTERS
  ends : ∃ n, l.Accesses behind n ∧ l.idAt behind n = 0

variable {l : FilterList} {behind : Nat → FilterId}

theorem idAt_slot {n : Nat} (inside : n < l.list.length) : l.idAt behind n = l.list[n].id := by
  simp [idAt, inside]

theorem full_iff : ¬ l.filters.length < MAX_IDENTICAL_FILTERS ↔ ∀ f ∈ l.list, f.id ≠ 0 := by
  have le : l.filters.length ≤ l.list.length := List.length_filter_le _ _
  rw [Nat.not_lt, ← l.sized]
  constructor
  · intro full f mem
    have all := List.length_filter_eq_length_iff.mp (Nat.le_antisymm le full) f mem
    simpa using all
  · intro used
    have all : l.filters = l.list := List.filter_eq_self.mpr fun f mem => by simpa using used f mem
    rw [all]

theorem loop_in_bounds_iff :
    l.LoopInBounds behind ↔ l.filters.length < MAX_IDENTICAL_FILTERS := by
  constructor
  · intro bounds
    by_contra full
    have used := full_iff.mp full
    have all : l.Accesses behind MAX_IDENTICAL_FILTERS := by
      intro k lt
      rw [idAt_slot (l.sized ▸ lt)]
      exact used _ (List.getElem_mem _)
    exact Nat.lt_irrefl _ (bounds.accesses _ all)
  · intro room
    have slot : ∃ n, n < MAX_IDENTICAL_FILTERS ∧ l.idAt behind n = 0 := by
      by_contra none
      refine full_iff.mpr ?_ room
      intro f mem zero
      obtain ⟨n, inside, rfl⟩ := List.mem_iff_getElem.mp mem
      exact none ⟨n, l.sized ▸ inside, by rw [idAt_slot inside]; exact zero⟩
    constructor
    · intro n accessed
      obtain ⟨k, inside, zero⟩ := slot
      by_contra beyond
      exact accessed k (by omega) zero
    · have first := Nat.find_spec slot
      refine ⟨Nat.find slot, ?_, first.2⟩
      intro k before zero
      exact Nat.find_min slot before ⟨by omega, zero⟩

end FilterList

/-- The loops for a message stay in the lists that its meta refers to when it is handled. -/
def DispatchInBounds (T : FilterTable) (opts : Opts) (m : LogMeta)
    (behind : ListPtr → Nat → FilterId) : Prop :=
  (sift T opts m).1 = true → ∀ p ∈ (sift T opts m).2.consulted, (T.heap p).valid m.level = true →
    (T.heap p).LoopInBounds (behind p)

def FoundListNotFull (T : FilterTable) (opts : Opts) (m : LogMeta) : Prop :=
  opts.levelFilterOutMask &&& m.level = 0 → ∀ c, T.chosen m.tag m.origin = some c →
    (T.heap c.2).valid m.level = true → (T.heap c.2).filters.length < MAX_IDENTICAL_FILTERS

theorem consulted_fresh {T : FilterTable} (wf : T.Wf) (opts : Opts) {m : LogMeta} (fresh : m.Fresh)
    (passes : opts.levelFilterOutMask &&& m.level = 0) :
    (T.chosen m.tag m.origin ≠ none → (sift T opts m).1 = true) ∧
      ∀ p, p ∈ (sift T opts m).2.consulted ↔ ∃ c, T.chosen m.tag m.origin = some c ∧ c.2 = p := by
  have found := sift_fresh T opts fresh passes
  cases chosen : T.chosen m.tag m.origin with
  | none =>
    simp only [chosen] at found
    simp [LogMeta.consulted, found.2]
  | some c =>
    obtain ⟨n, list⟩ := c
    simp only [chosen] at found
    obtain ⟨hash, stored⟩ := chosen_lookup chosen
    have notNull := wf.ptr_ne_zero stored
    refine ⟨fun _ => found.1, ?_⟩
    intro p
    rw [LogMeta.consulted, found.2, List.mem_filter, List.mem_ofFn]
    constructor
    · rintro ⟨⟨k, at_k⟩, real⟩
      refine ⟨_, rfl, ?_⟩
      by_cases same : k = n
      · rw [same, Function.update_self] at at_k
        exact at_k
      · rw [Function.update_of_ne same] at at_k
        rw [← at_k] at real
        simp at real
    · rintro ⟨c, same, rfl⟩
      cases same
      exact ⟨⟨n, Function.update_self ..⟩, by simpa using notNull⟩

/-- A message logged and handled with this table; and one that has cached lists. Neither its
    ignore list nor what lies behind the lists makes a difference. -/
theorem dispatch_in_bounds_iff (T : FilterTable) (reachable : T.Reachable) (opts : Opts)
    (behind : ListPtr → Nat → FilterId) :
    (∀ m : LogMeta, m.Fresh → (DispatchInBounds T opts m behind ↔ FoundListNotFull T opts m)) ∧
    ∀ m : LogMeta, DispatchInBounds T opts m behind ↔
      ((sift T opts m).1 = true → ∀ p ∈ (sift T opts m).2.consulted,
        (T.heap p).valid m.level = true → (T.heap p).filters.length < MAX_IDENTICAL_FILTERS) := by
  have general : ∀ m : LogMeta, DispatchInBounds T opts m behind ↔
      ((sift T opts m).1 = true → ∀ p ∈ (sift T opts m).2.consulted,
        (T.heap p).valid m.level = true → (T.heap p).filters.length < MAX_IDENTICAL_FILTERS) := by
    intro m
    simp only [DispatchInBounds, FilterList.loop_in_bounds_iff]
  refine ⟨?_, general⟩
  intro m fresh
  rw [general]
  by_cases passes : opts.levelFilterOutMask &&& m.level = 0
  · obtain ⟨logged, lists⟩ := consulted_fresh (FilterTable.reachable_wf reachable) opts fresh passes
    constructor
    · intro bounds _ c chosen
      exact bounds (logged (by simp [chosen])) c.2 ((lists c.2).mpr ⟨c, chosen, rfl⟩)
    · intro room _ p consulted
      obtain ⟨c, chosen, rfl⟩ := (lists p).mp consulted
      exact room passes c chosen
  · rw [sift_masked T opts m passes]
    refine iff_of_true ?_ fun passes' => absurd passes' passes
    intro logged
    cases logged

theorem dispatch_in_bounds_tagged :
    DispatchInBounds taggedTable {} (taggedMessage fun _ => 0).m (fun _ _ => 1) ↔
      FoundListNotFull taggedTable {} (taggedMessage fun _ => 0).m :=
  (dispatch_in_bounds_iff taggedTable taggedTable_reachable {} fun _ _ => 1).1 _ (by decide)

def fullCalls : List FilterCall :=
  (List.range 16).map fun n => .addFilter (UInt64.ofNat (n + 1)) { tag := some 5, target := some 7 }

def fullTable : FilterTable := fullCalls.foldl FilterTable.call (.init fun _ => .new)

def FilterCall.usesNew (T : FilterTable) : FilterCall → Bool
  | .addFilter p _ => p != 0 && T.filterHashTable.entries.all fun entry => entry.2 != p
  | .modifyFilter _ => true

theorem usesNew_step {T : FilterTable} {c : FilterCall} (new : c.usesNew T = true) :
    FilterTable.Step T c (T.call c) := by
  refine ⟨?_, rfl⟩
  cases c with
  | addFilter p args =>
    simp only [FilterCall.usesNew, Bool.and_eq_true, bne_iff_ne] at new
    exact fresh_of_entries new.1 new.2
  | modifyFilter args => trivial

theorem fullTable_reachable : fullTable.Reachable := by
  have checked : Runs.Checked (fun T c => FilterCall.usesNew T c = true) FilterTable.call
      (.init fun _ => .new) fullCalls := by decide +kernel
  exact ⟨_, _, Runs.run_checked (fun _ _ => usesNew_step) checked⟩

/-- After sixteen accepted filters the loop comes to the test of list[16]. -/
theorem full_list_overrun :
    fullTable.Reachable ∧ ¬ DispatchInBounds fullTable {} (taggedMessage fun _ => 0).m fun _ _ => 0 := by
  refine ⟨fullTable_reachable, ?_⟩
  intro bounds
  have logged : (sift fullTable {} (taggedMessage fun _ => 0).m).1 = true := by decide +kernel
  have consulted : 1 ∈ (sift fullTable {} (taggedMessage fun _ => 0).m).2.consulted := by
    decide +kernel
  have loop := bounds logged 1 consulted (by decide +kernel)
  have beyond := loop.accesses MAX_IDENTICAL_FILTERS (by
    unfold FilterList.Accesses
    decide +kernel)
  exact Nat.lt_irrefl _ beyond

/-! A filter that is added for (tag, origin), and a message of (t, o). -/

/-- sift stops at the first of the keys that has a list. -/
def keyedSlots (t : TagId) (o : OriginId) : List (Fin 4 × TagId × OriginId) :=
  [(0, t, o), (1, 0, o), (2, t, 0), (3, 0, 0)]

theorem keyedSlots_keys (t : TagId) (o : OriginId) :
    (keyedSlots t o).map Prod.snd = ruleKeys t o := rfl

theorem chosen_eq_findSome (T : FilterTable) (t : TagId) (o : OriginId) :
    T.chosen t o = (keyedSlots t o).findSome? fun k =>
      (T.filterHashTable.lookup (filterhash k.2.1 k.2.2)).map fun list => (k.1, list) := by
  simp only [keyedSlots, List.findSome?_cons, List.findSome?_nil, FilterTable.chosen]
  cases T.filterHashTable.lookup (filterhash t o) with
  | some list => rfl
  | none =>
    cases T.filterHashTable.lookup (filterhash 0 o) with
    | some list => rfl
    | none =>
      cases T.filterHashTable.lookup (filterhash t 0) with
      | some list => rfl
      | none => cases T.filterHashTable.lookup (filterhash 0 0) <;> rfl

theorem findSome_congr_until {α β : Type} {f g : α → Option β} {s : α → Bool} {l : List α}
    (agree : ∀ a ∈ l.takeWhile s, f a = g a)
    (hit : l.takeWhile s = l ∨ ∃ a ∈ l.takeWhile s, (f a).isSome) :
    l.findSome? f = l.findSome? g := by
  induction l with
  | nil => rfl
  | cons a rest ih =>
    by_cases goes : s a
    · rw [List.takeWhile_cons_of_pos goes] at agree hit
      have first := agree a (List.mem_cons_self ..)
      rw [List.findSome?_cons, List.findSome?_cons, first]
      cases found : g a with
      | some b => rfl
      | none =>
        refine ih (fun b mem => agree b (List.mem_cons_of_mem a mem)) ?_
        rcases hit with whole | ⟨b, mem, some⟩
        · exact Or.inl (List.cons.inj whole).2
        · rcases List.mem_cons.mp mem with rfl | mem
          · rw [first, found] at some
            cases some
          · exact Or.inr ⟨b, mem, some⟩
    · rw [List.takeWhile_cons_of_neg goes] at hit
      rcases hit with whole | ⟨b, mem, _⟩
      · cases whole
      · cases mem

structure SameForLevel (l l' : FilterList) (level : LevelMask) : Prop where
  valid : l'.valid level = l.valid level
  visited : ∀ n, ∃ more, visit n l'.list = visit n l.list ++ more ∧
    ∀ v ∈ more, v.2.levelMask &&& level = 0

theorem SameForLevel.refl (l : FilterList) (level : LevelMask) : SameForLevel l l level :=
  ⟨rfl, fun _ => ⟨[], (List.append_nil _).symm, by simp⟩⟩

theorem mask_or_meets {a b level : LevelMask} (other : b &&& level = 0) :
    (a ||| b) &&& level = a &&& level := by
  have bits := congrArg UInt32.toBitVec other
  apply UInt32.toBitVec_inj.mp
  simp only [UInt32.toBitVec_and, UInt32.toBitVec_or] at bits ⊢
  ext i hi
  have bit := congrArg (·[i]) bits
  simp only [BitVec.getElem_and, BitVec.getElem_or] at bit ⊢
  cases h : level.toBitVec[i] <;> simp_all

theorem visit_append (n : Nat) {used : List Filter} (busy : ∀ f ∈ used, f.id ≠ 0)
    (rest : List Filter) :
    visit n (used ++ rest) = visit n used ++ visit (n + used.length) rest := by
  induction used generalizing n with
  | nil => rfl
  | cons f others ih =>
    have inUse := busy f (List.mem_cons_self ..)
    simp only [List.cons_append, visit, if_neg inUse, List.length_cons]
    rw [ih (n + 1) fun g mem => busy g (List.mem_cons_of_mem f mem), Nat.add_right_comm,
      Nat.add_assoc]

theorem visit_free (n : Nat) {slots : List Filter} (free : ∀ f ∈ slots, f.id = 0) :
    visit n slots = [] := by
  cases slots with
  | nil => rfl
  | cons f rest => exact if_pos (free f (List.mem_cons_self ..))

theorem add_sameForLevel {l l' : FilterList} (wf : l.Wf) {f : Filter} {level : LevelMask}
    (added : l.add f = some l') (other : f.levelMask &&& level = 0) : SameForLevel l l' level := by
  obtain ⟨slots, bloom⟩ := add_some added
  obtain ⟨used, slot, rest, before, busy, free, after⟩ := addSlot_some slots
  constructor
  · unfold FilterList.valid
    rw [bloom, mask_or_meets other]
  · intro n
    have suffix := wf.zero_suffix
    rw [before, List.pairwise_append, List.pairwise_cons] at suffix
    obtain ⟨_, ⟨zeros, _⟩, _⟩ := suffix
    have restFree : ∀ n, visit n rest = [] := fun n => visit_free n fun g mem => zeros g mem free
    have old : visit (n + used.length) (slot :: rest) = [] := if_pos free
    refine ⟨visit (n + used.length) (slot.assign f :: rest), ?_, ?_⟩
    · rw [before, after, visit_append n busy, visit_append n busy, old, List.append_nil]
    · intro v mem
      rw [visit] at mem
      split at mem
      · cases mem
      · rw [restFree, List.mem_singleton] at mem
        rw [mem]
        exact other

section
variable {T T' : FilterTable} {registered : TargetId → Bool} {hasDefault : Bool}

theorem routeList_same {x : ExtraLogMeta} {p : ListPtr}
    (same : SameForLevel (T.heap p) (T'.heap p) x.m.level) :
    routeList T' registered hasDefault x p = routeList T registered hasDefault x p := by
  obtain ⟨more, visited, others⟩ := same.visited 0
  have idle : ∀ v ∈ more, routeFilter registered hasDefault x p v.1 v.2 = ([], false) := by
    intro v mem
    have applies : v.2.applies x.m.level = false := by
      simp [Filter.applies, others v mem]
    simp [routeFilter, applies]
  have noCalls : (more.map fun v => routeFilter registered hasDefault x p v.1 v.2).flatMap Prod.fst =
      [] := by
    rw [List.flatMap_eq_nil_iff]
    intro r mem
    obtain ⟨v, visited, rfl⟩ := List.mem_map.mp mem
    rw [idle v visited]
  have noWrite : (more.map fun v => routeFilter registered hasDefault x p v.1 v.2).any Prod.snd =
      false := by
    rw [List.any_eq_false]
    intro r mem
    obtain ⟨v, visited, rfl⟩ := List.mem_map.mp mem
    simp [idle v visited]
  simp only [routeList, same.valid, visited, List.map_append, List.flatMap_append, List.any_append,
    noCalls, noWrite, List.append_nil, Bool.or_false]

theorem route_same {x : ExtraLogMeta}
    (same : ∀ p ∈ x.m.consulted, SameForLevel (T.heap p) (T'.heap p) x.m.level) :
    route T' registered hasDefault x = route T registered hasDefault x := by
  have lists : (List.ofFn x.m.cachedLists).map (routeList T' registered hasDefault x) =
      (List.ofFn x.m.cachedLists).map (routeList T registered hasDefault x) := by
    apply List.map_congr_left
    intro p listed
    by_cases null : p = 0
    · rw [null, routeList_null, routeList_null]
    · exact routeList_same (same p (List.mem_filter.mpr ⟨listed, by simpa using null⟩))
  simp only [route, lists]

theorem siftAndRoute_same (registered : TargetId → Bool) (hasDefault : Bool) (wf : T.Wf)
    (opts : Opts) {x : ExtraLogMeta} (fresh : x.m.Fresh)
    (chosen : T'.chosen x.m.tag x.m.origin = T.chosen x.m.tag x.m.origin)
    (same : ∀ c, T.chosen x.m.tag x.m.origin = some c →
      SameForLevel (T.heap c.2) (T'.heap c.2) x.m.level) :
    sift T' opts x.m = sift T opts x.m ∧
      siftAndRoute T' opts registered hasDefault x = siftAndRoute T opts registered hasDefault x := by
  have sifted : sift T' opts x.m = sift T opts x.m := by
    by_cases passes : opts.levelFilterOutMask &&& x.m.level = 0
    · rw [sift_chosen T' opts x.m passes fresh.1, sift_chosen T opts x.m passes fresh.1, chosen]
    · rw [sift_masked T' opts x.m passes, sift_masked T opts x.m passes]
  refine ⟨sifted, ?_⟩
  rw [siftAndRoute_eq, siftAndRoute_eq, sifted]
  split
  · rename_i logged
    have passes : opts.levelFilterOutMask &&& x.m.level = 0 := by
      by_contra masked
      rw [sift_masked T opts x.m masked] at logged
      cases logged
    refine route_same fun p consulted => ?_
    obtain ⟨c, found, rfl⟩ := ((consulted_fresh wf opts fresh passes).2 p).mp consulted
    have level : (sift T opts x.m).2.level = x.m.level := (sift_keeps T opts x.m).2.1
    rw [show ({ x with m := (sift T opts x.m).2 } : ExtraLogMeta).m.level = x.m.level from level]
    exact same c found
  · rfl

end

/-- The filter does not cover the message: another tag or another origin, a list for a key that
    comes first, or a list that is there already, and another level. -/
def NotCovered (T : FilterTable) (origin : OriginId) (tag : TagId) (mask : LevelMask)
    (m : LogMeta) : Prop :=
  (tag ≠ 0 ∧ tag ≠ m.tag) ∨ (origin ≠ 0 ∧ origin ≠ m.origin) ∨
    (∃ key ∈ (ruleKeys m.tag m.origin).takeWhile (· != (tag, origin)),
      (T.filterHashTable.lookup (filterhash key.1 key.2)).isSome) ∨
    ((T.filterHashTable.lookup (filterhash tag origin)).isSome ∧ mask &&& m.level = 0)

section
variable {T T' : FilterTable} {origin : OriginId} {tag : TagId} {t : TagId} {o : OriginId}

def KeyPassed (T : FilterTable) (origin : OriginId) (tag : TagId) (t : TagId) (o : OriginId) : Prop :=
  (keyedSlots t o).takeWhile (fun k => k.2 != (tag, origin)) = keyedSlots t o ∨
    ∃ k ∈ (keyedSlots t o).takeWhile (fun k => k.2 != (tag, origin)),
      (T.filterHashTable.lookup (filterhash k.2.1 k.2.2)).isSome

theorem notCovered_passed {mask : LevelMask} {m : LogMeta} (other : NotCovered T origin tag mask m) :
    KeyPassed T origin tag m.tag m.origin ∨
      ((T.filterHashTable.lookup (filterhash tag origin)).isSome ∧ mask &&& m.level = 0) := by
  have apart : (∀ k ∈ keyedSlots m.tag m.origin, k.2 ≠ (tag, origin)) →
      KeyPassed T origin tag m.tag m.origin := by
    intro each
    refine Or.inl (List.takeWhile_eq_self_iff.mpr fun k mem => ?_)
    simpa using each k mem
  rcases other with ⟨set, differs⟩ | ⟨set, differs⟩ | ⟨key, before, listed⟩ | level
  · refine Or.inl (apart fun k mem same => ?_)
    simp only [keyedSlots, List.mem_cons, List.not_mem_nil, or_false] at mem
    rcases mem with rfl | rfl | rfl | rfl <;> simp only [Prod.mk.injEq] at same
    · exact differs same.1.symm
    · exact set same.1.symm
    · exact differs same.1.symm
    · exact set same.1.symm
  · refine Or.inl (apart fun k mem same => ?_)
    simp only [keyedSlots, List.mem_cons, List.not_mem_nil, or_false] at mem
    rcases mem with rfl | rfl | rfl | rfl <;> simp only [Prod.mk.injEq] at same
    · exact differs same.2.symm
    · exact differs same.2.symm
    · exact set same.2.symm
    · exact set same.2.symm
  · rw [← keyedSlots_keys, List.takeWhile_map] at before
    obtain ⟨k, mem, rfl⟩ := List.mem_map.mp before
    exact Or.inl (Or.inr ⟨k, mem, listed⟩)
  · exact Or.inr level

theorem filterhash_other {k : TagId × OriginId} (apart : k ≠ (tag, origin)) :
    filterhash k.1 k.2 ≠ filterhash tag origin := by
  intro same
  obtain ⟨first, second⟩ := filterhash_injective same
  exact apart (Prod.ext first second)

theorem chosen_passed (passed : KeyPassed T origin tag t o) (look : FilterHash → Option ListPtr)
    (agree : ∀ k : TagId × OriginId, k ≠ (tag, origin) →
      T.filterHashTable.lookup (filterhash k.1 k.2) = look (filterhash k.1 k.2)) :
    T.chosen t o =
      (keyedSlots t o).findSome? fun k => (look (filterhash k.2.1 k.2.2)).map fun list => (k.1, list) := by
  rw [chosen_eq_findSome]
  refine findSome_congr_until (s := fun k => k.2 != (tag, origin)) ?_ ?_
  · intro k mem
    have other : k.2 ≠ (tag, origin) := by
      have goes := List.mem_takeWhile_imp mem
      simpa using goes
    rw [agree k.2 other]
  · rcases passed with whole | ⟨k, mem, listed⟩
    · exact Or.inl whole
    · exact Or.inr ⟨k, mem, by simpa using listed⟩

theorem chosen_other_key (passed : KeyPassed T origin tag t o) {c : Fin 4 × ListPtr}
    (chosen : T.chosen t o = some c) :
    ∃ k : TagId × OriginId, k ≠ (tag, origin) ∧
      T.filterHashTable.lookup (filterhash k.1 k.2) = some c.2 := by
  let look := fun hash =>
    if hash = filterhash tag origin then none else T.filterHashTable.lookup hash
  have agree : ∀ k : TagId × OriginId, k ≠ (tag, origin) →
      T.filterHashTable.lookup (filterhash k.1 k.2) = look (filterhash k.1 k.2) := by
    intro k other
    exact (if_neg (filterhash_other other)).symm
  rw [chosen_passed passed look agree] at chosen
  obtain ⟨k, _, found⟩ := List.exists_of_findSome?_eq_some chosen
  obtain ⟨list, listed, rfl⟩ := Option.map_eq_some_iff.mp found
  simp only [look] at listed
  split at listed
  · cases listed
  · rename_i other
    exact ⟨k.2, fun same => other (by rw [same]), listed⟩

/-- The list that is found for the message is found again, and does the same. -/
theorem added_same (wf : T.Wf) {fresh : ListPtr} (new : T.Fresh fresh) (target : TargetId)
    (mask : LevelMask) (pre mid post : LogLabel) {m : LogMeta}
    (added : (T._addFilter fresh target origin tag mask pre mid post).2.2 = true)
    (other : NotCovered T origin tag mask m) :
    let T' := (T._addFilter fresh target origin tag mask pre mid post).1
    T'.chosen m.tag m.origin = T.chosen m.tag m.origin ∧
      ∀ c, T.chosen m.tag m.origin = some c →
        SameForLevel (T.heap c.2) (T'.heap c.2) m.level := by
  intro T'
  obtain ⟨_, _, ⟨p, l, _, found, add, table, heap⟩ | ⟨l, _, none, add, table, heap⟩ |
    ⟨_, refused, _⟩⟩ := FilterTable.addFilterRaw_cases T fresh target origin tag mask pre mid post
  · constructor
    · simp only [FilterTable.chosen, T', table]
    · intro c chosen
      simp only [T', heap]
      by_cases same : c.2 = p
      · rw [same, Function.update_self]
        rcases notCovered_passed other with passed | ⟨_, level⟩
        · obtain ⟨k, apart, listed⟩ := chosen_other_key passed chosen
          have key := wf.ptr_injective (same ▸ listed) found
          exact absurd key (filterhash_other apart)
        · exact add_sameForLevel (wf.list_wf found) add level
      · rw [Function.update_of_ne same]
        exact SameForLevel.refl _ _
  · have passed : KeyPassed T origin tag m.tag m.origin := by
      rcases notCovered_passed other with passed | ⟨listed, _⟩
      · exact passed
      · rw [none] at listed
        cases listed
    constructor
    · rw [chosen_eq_findSome]
      refine (chosen_passed passed (T'.filterHashTable.lookup ·) fun k apart => ?_).symm
      simp only [T', table]
      rw [AList.lookup_insert_ne (filterhash_other apart)]
    · intro c chosen
      obtain ⟨k, _, listed⟩ := chosen_other_key passed chosen
      simp only [T', heap]
      rw [Function.update_of_ne (new.2 _ _ listed)]
      exact SameForLevel.refl _ _
  · rw [refused] at added
    cases added

end

/-- What sift returns and the calls of the loops are the same with the filter, whichever targets
    exist, and in both tables the loops end inside the lists. -/
theorem addFilter_frame (T : FilterTable) (reachable : T.Reachable) (fresh : ListPtr)
    (new : T.Fresh fresh) (target : TargetId) (origin : OriginId) (tag : TagId) (mask : LevelMask)
    (pre mid post : LogLabel)
    (added : (T._addFilter fresh target origin tag mask pre mid post).2.2 = true)
    (roomy : T.Roomy) (roomy' : (T._addFilter fresh target origin tag mask pre mid post).1.Roomy)
    (opts : Opts) (registered : TargetId → Bool) (hasDefault : Bool) (x : ExtraLogMeta)
    (uncached : x.m.Fresh) (other : NotCovered T origin tag mask x.m) :
    let T' := (T._addFilter fresh target origin tag mask pre mid post).1
    sift T' opts x.m = sift T opts x.m ∧
      siftAndRoute T' opts registered hasDefault x = siftAndRoute T opts registered hasDefault x ∧
      ∀ p ∈ (sift T opts x.m).2.consulted, (T.heap p).Stops ∧ (T'.heap p).Stops := by
  intro T'
  have wf := FilterTable.reachable_wf reachable
  obtain ⟨chosen, same⟩ := added_same wf new target mask pre mid post added other
  obtain ⟨sifted, routed⟩ := siftAndRoute_same registered hasDefault wf opts uncached
    chosen same
  refine ⟨sifted, routed, ?_⟩
  intro p consulted
  obtain ⟨hash, stored⟩ := consulted_stored T opts uncached consulted
  rw [← sifted] at consulted
  obtain ⟨hash', stored'⟩ := consulted_stored T' opts uncached consulted
  exact ⟨roomy_stops (roomy _ (lookup_entry stored)), roomy_stops (roomy' _ (lookup_entry stored'))⟩

theorem addFilter_frame_tagged :
    let x := taggedMessage fun _ => 0
    let T' := (taggedTable._addFilter 9 3 0 6 1 none none none).1
    sift T' {} x.m = sift taggedTable {} x.m ∧
      siftAndRoute T' {} (· == 7) true x = siftAndRoute taggedTable {} (· == 7) true x :=
  have frame := addFilter_frame taggedTable taggedTable_reachable 9
    (fresh_of_entries (by decide) (by decide)) 3 0 6 1 none none none (by decide) (by decide)
    (by decide) {} (· == 7) true (taggedMessage fun _ => 0) (by decide)
    (Or.inl ⟨by decide, by decide⟩)
  ⟨frame.1, frame.2.1⟩

end GreaseLog
