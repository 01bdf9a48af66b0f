import Mathlib.Tactic.FinCases
import GreaseLog.Routing

/- The routing loop computes the specified writes: sift finds the list of the
   first key that has one, and the loop over that list is a filter and a map. -/
namespace GreaseLog

def FilterTable.chosen (T : FilterTable) (tag : TagId) (origin : OriginId) :
    Option (Fin 4 × ListPtr) :=
  match T.filterHashTable.lookup (filterhash tag origin) with
  | some list => some (0, list)
  | none =>
    match T.filterHashTable.lookup (filterhash 0 origin) with
    | some list => some (1, list)
    | none =>
      match T.filterHashTable.lookup (filterhash tag 0) with
      | some list => some (2, list)
      | none => (T.filterHashTable.lookup (filterhash 0 0)).map fun list => (3, list)

def LogMeta.withHashes (m : LogMeta) : LogMeta :=
  { m with cachedHash := getHashes m.tag m.origin }

theorem sift_chosen (T : FilterTable) (opts : Opts) (m : LogMeta)
    (passes : opts.levelFilterOutMask &&& m.level = 0) (uncached : m.hasCache = false) :
    sift T opts m =
      match T.chosen m.tag m.origin with
      | some (n, list) => (true, m.withHashes.setList n list)
      | none => (!opts.defaultFilterOut, m.withHashes) := by
  have first : getHashes m.tag m.origin 0 = filterhash m.tag m.origin := by
    rw [getHashes_keys]
    rfl
  have second : getHashes m.tag m.origin 1 = filterhash 0 m.origin := by
    rw [getHashes_keys]
    rfl
  have third : getHashes m.tag m.origin 2 = filterhash m.tag 0 := by
    rw [getHashes_keys]
    rfl
  unfold FilterTable.chosen
  rw [← first, ← second, ← third, filterhash_zero]
  simp only [sift, passes, uncached, ne_eq, not_true_eq_false, if_false, Bool.false_eq_true]
  cases T.filterHashTable.lookup (getHashes m.tag m.origin 0) with
  | some list => rfl
  | none =>
    cases T.filterHashTable.lookup (getHashes m.tag m.origin 1) with
    | some list => rfl
    | none =>
      cases T.filterHashTable.lookup (getHashes m.tag m.origin 2) with
      | some list => rfl
      | none => cases T.filterHashTable.lookup 0 <;> rfl

theorem sift_masked (T : FilterTable) (opts : Opts) (m : LogMeta)
    (masked : opts.levelFilterOutMask &&& m.level ≠ 0) : sift T opts m = (false, m) := by
  simp [sift, masked]

theorem sift_cached (T : FilterTable) (opts : Opts) (m : LogMeta)
    (passes : opts.levelFilterOutMask &&& m.level = 0) (cached : m.hasCache = true) :
    sift T opts m = (true, m) := by
  simp [sift, passes, cached]

theorem sift_keeps (T : FilterTable) (opts : Opts) (m : LogMeta) :
    (sift T opts m).2.tag = m.tag ∧ (sift T opts m).2.level = m.level ∧
      (sift T opts m).2.origin = m.origin ∧ (sift T opts m).2.target = m.target ∧
      (sift T opts m).2.extras = m.extras := by
  by_cases masked : opts.levelFilterOutMask &&& m.level = 0
  · cases cached : m.hasCache with
    | true => simp [sift_cached T opts m masked cached]
    | false =>
      rw [sift_chosen T opts m masked cached]
      split <;> simp [LogMeta.withHashes, LogMeta.setList]
  · simp [sift_masked T opts m masked]

/-- A message that was logged passes the second sift, which finds the same lists. -/
theorem sift_extras (T : FilterTable) (opts : Opts) (m : LogMeta) (extras : UInt32) :
    sift T opts { m with extras := extras } =
      ((sift T opts m).1, { (sift T opts m).2 with extras := extras }) := by
  let marked : LogMeta := { m with extras := extras }
  by_cases passes : opts.levelFilterOutMask &&& m.level = 0
  · cases cached : m.hasCache with
    | true =>
      rw [sift_cached T opts m passes cached]
      exact sift_cached T opts marked passes cached
    | false =>
      rw [sift_chosen T opts m passes cached]
      refine (sift_chosen T opts marked passes cached).trans ?_
      simp only [marked]
      split <;> rfl
  · rw [sift_masked T opts m passes]
    exact sift_masked T opts marked passes

theorem sift_again (T : FilterTable) (opts : Opts) (m : LogMeta)
    (logged : (sift T opts m).1 = true) :
    sift T opts (sift T opts m).2 = (true, (sift T opts m).2) := by
  obtain ⟨tag, level, origin, -, -⟩ := sift_keeps T opts m
  have passes : opts.levelFilterOutMask &&& m.level = 0 := by
    by_contra masked
    simp [sift_masked T opts m masked] at logged
  have passes' : opts.levelFilterOutMask &&& (sift T opts m).2.level = 0 := by rwa [level]
  cases again : (sift T opts m).2.hasCache with
  | true => exact sift_cached T opts _ passes' again
  | false =>
    rw [sift_chosen T opts _ passes' again, tag, origin]
    cases cached : m.hasCache with
    | true => simp [sift_cached T opts m passes cached, cached] at again
    | false =>
      rw [sift_chosen T opts m passes cached] at logged ⊢
      split
      · simp [LogMeta.withHashes, LogMeta.setList]
      · simp_all [LogMeta.withHashes]

theorem siftAndRoute_eq (T : FilterTable) (opts : Opts) (registered : TargetId → Bool)
    (hasDefault : Bool) (x : ExtraLogMeta) :
    siftAndRoute T opts registered hasDefault x =
      if (sift T opts x.m).1 then
        route T registered hasDefault { x with m := (sift T opts x.m).2 }
      else [] := by
  simp only [siftAndRoute]
  split
  · rename_i logged
    rw [sift_again T opts x.m logged]
    simp
  · rfl

/-! The loops. -/

theorem visit_filters (n : Nat) {slots : List Filter}
    (suffix : slots.Pairwise fun a b => a.id = 0 → b.id = 0) :
    (visit n slots).map Prod.snd = slots.filter (·.id != 0) := by
  induction slots generalizing n with
  | nil => rfl
  | cons f rest ih =>
    obtain ⟨zeros, tail⟩ := List.pairwise_cons.mp suffix
    by_cases free : f.id = 0
    · have empty : rest.filter (·.id != 0) = [] := by
        rw [List.filter_eq_nil_iff]
        intro g mem
        simp [zeros g mem free]
      simp [visit, free, empty]
    · simp [visit, free, ih (n + 1) tail]

theorem scanIgnores_contains (target : TargetId) (ignored : List TargetId) :
    scanIgnores target ignored = (ignored.takeWhile (· != 0)).contains target := by
  induction ignored with
  | nil => rfl
  | cons first rest ih =>
    by_cases zero : first = 0
    · simp [scanIgnores, zero]
    · by_cases same : first = target
      · simp [scanIgnores, same ▸ zero, same]
      · simp [scanIgnores, zero, same, ih, Ne.symm same]

/-- The loop stops before the eleventh entry, which is the terminator. -/
theorem terminated_ignores {x : ExtraLogMeta} (terminated : x.Terminated) :
    ((List.ofFn x.ignoreList).take MAX_IGNORE_LIST).takeWhile (· != 0) = x.ignores := by
  have split : List.ofFn x.ignoreList =
      (List.ofFn fun i : Fin 10 => x.ignoreList i.castSucc) ++ [0] := by
    rw [List.ofFn_succ', List.concat_eq_append]
    exact congrArg _ (congrArg (fun a => [a]) terminated)
  have front : (List.ofFn x.ignoreList).take MAX_IGNORE_LIST =
      List.ofFn fun i : Fin 10 => x.ignoreList i.castSucc := by
    rw [split]
    exact List.take_left' (by simp [MAX_IGNORE_LIST])
  rw [front, ExtraLogMeta.ignores, split]
  generalize (List.ofFn fun i : Fin 10 => x.ignoreList i.castSucc) = entries
  induction entries with
  | nil => rfl
  | cons first rest ih => simp [List.takeWhile_cons, ih]

theorem ignoring_effective {x : ExtraLogMeta} (terminated : x.Terminated) (target : TargetId) :
    x.ignoring target = x.effectiveIgnores.contains target := by
  rw [ExtraLogMeta.ignoring, scanIgnores_contains, terminated_ignores terminated,
    ExtraLogMeta.effectiveIgnores]
  cases x.m.hasIgnores <;> simp

section
variable {T : FilterTable} {registered : TargetId → Bool} {x : ExtraLogMeta}

theorem routeFilter_selects (terminated : x.Terminated) (p : ListPtr) (n : Nat) (f : Filter) :
    routeFilter registered true x p n f =
      if Rules.selects registered x.m.level x.effectiveIgnores f then
        ([⟨f.targetId, some (p, n), f⟩], true)
      else ([], false) := by
  unfold routeFilter Rules.selects
  rw [ignoring_effective terminated]
  cases f.applies x.m.level with
  | false => simp
  | true =>
    by_cases default : f.targetId = 0
    · simp [default]
    · cases registered f.targetId <;> cases x.effectiveIgnores.contains f.targetId <;>
        simp [default]

theorem routeFilters_selected (registered : TargetId → Bool) (terminated : x.Terminated) (p : ListPtr)
    (visited : List (Nat × Filter)) :
    let selects := Rules.selects registered x.m.level x.effectiveIgnores
    let calls := visited.map fun v => routeFilter registered true x p v.1 v.2
    (calls.flatMap Prod.fst).map (fun s => (s.target, s.filter)) =
        ((visited.map Prod.snd).filter selects).map (fun f => (f.targetId, f)) ∧
      calls.any Prod.snd = (visited.map Prod.snd).any selects := by
  intro selects calls
  induction visited with
  | nil => exact ⟨rfl, rfl⟩
  | cons v rest ih =>
    obtain ⟨writes, wrote⟩ := ih
    simp only [calls, List.map_cons, List.flatMap_cons, List.map_append, List.any_cons,
      routeFilter_selects terminated] at writes wrote ⊢
    rw [writes, wrote]
    cases selected : selects v.2 <;> simp [selects] at selected <;> simp [selects, selected]

theorem invalid_applies {l : FilterList} (wf : l.Wf) {level : LevelMask}
    (invalid : l.valid level = false) {f : Filter} (mem : f ∈ l.filters) :
    f.applies level = false := by
  obtain ⟨mem, inUse⟩ := List.mem_filter.mp mem
  have covers := wf.bloom_covers f mem (by simpa using inUse)
  have disjoint : l.bloom &&& level = 0 := by simpa [FilterList.valid] using invalid
  have none : f.levelMask &&& level = 0 := by
    by_contra meets
    exact covered_mask_meets covers meets disjoint
  simp [Filter.applies, none]

theorem routeList_selected (registered : TargetId → Bool) (terminated : x.Terminated) {p : ListPtr} (notNull : p ≠ 0)
    (wf : (T.heap p).Wf) :
    let selects := Rules.selects registered x.m.level x.effectiveIgnores
    let calls := routeList T registered true x p
    calls.1.map (fun s => (s.target, s.filter)) =
        ((T.heap p).filters.filter selects).map (fun f => (f.targetId, f)) ∧
      calls.2 = (T.heap p).filters.any selects := by
  intro selects calls
  simp only [calls, routeList]
  cases valid : (T.heap p).valid x.m.level with
  | true =>
    obtain ⟨writes, wrote⟩ := routeFilters_selected registered terminated p
      (visit 0 (T.heap p).list)
    rw [visit_filters 0 wf.zero_suffix] at writes wrote
    rw [if_pos ⟨notNull, rfl⟩]
    exact ⟨writes, wrote⟩
  | false =>
    have never : ∀ f ∈ (T.heap p).filters, selects f = false := by
      intro f mem
      simp [selects, Rules.selects, invalid_applies wf valid mem]
    have nothing : (T.heap p).filters.filter selects = [] :=
      List.filter_eq_nil_iff.mpr fun f mem => by simp [never f mem]
    have noWrite : (T.heap p).filters.any selects = false :=
      List.any_eq_false.mpr fun f mem => by simp [never f mem]
    simp [nothing, noWrite]

theorem routeList_null (hasDefault : Bool) :
    routeList T registered hasDefault x 0 = ([], false) := by
  simp [routeList]

theorem route_unlisted (hasDefault : Bool) (none : ∀ n, x.m.cachedLists n = 0) :
    route T registered hasDefault x =
      if hasDefault then [⟨DEFAULT_TARGET, .none, defaultFilter⟩] else [] := by
  simp [route, List.ofFn_succ, none, routeList_null]

theorem route_one_list (hasDefault : Bool) {n : Fin 4} {p : ListPtr}
    (only : x.m.cachedLists = Function.update (fun _ => 0) n p) :
    route T registered hasDefault x =
      (routeList T registered hasDefault x p).1 ++
        if !(routeList T registered hasDefault x p).2 && hasDefault then
          [⟨DEFAULT_TARGET, .none, defaultFilter⟩]
        else [] := by
  simp only [route, only]
  fin_cases n <;> simp [List.ofFn_succ, routeList_null, Function.update]

end

/-! The table and its rules. -/

def FilterTable.Roomy (T : FilterTable) : Prop :=
  ∀ entry ∈ T.filterHashTable.entries, (T.heap entry.2).filters.length < MAX_IDENTICAL_FILTERS

instance (T : FilterTable) : Decidable T.Roomy :=
  List.decidableBAll (fun entry : (_ : FilterHash) × ListPtr =>
    (T.heap entry.2).filters.length < MAX_IDENTICAL_FILTERS) _

theorem lookup_entry {T : FilterTable} {hash : FilterHash} {p : ListPtr}
    (found : T.filterHashTable.lookup hash = some p) :
    ⟨hash, p⟩ ∈ T.filterHashTable.entries :=
  AList.mem_lookup_iff.mp found

theorem fresh_of_entries {T : FilterTable} {p : ListPtr} (notNull : p ≠ 0)
    (unused : (T.filterHashTable.entries.all fun entry => entry.2 != p) = true) : T.Fresh p := by
  refine ⟨notNull, fun hash q found => ?_⟩
  have other := List.all_eq_true.mp unused _ (lookup_entry found)
  simpa using other

theorem chosen_lookup {T : FilterTable} {tag : TagId} {origin : OriginId} {n : Fin 4} {p : ListPtr}
    (h : T.chosen tag origin = some (n, p)) :
    ∃ hash, T.filterHashTable.lookup hash = some p := by
  unfold FilterTable.chosen at h
  split at h
  · rename_i list found
    simp only [Option.some.injEq, Prod.mk.injEq] at h
    exact ⟨_, h.2 ▸ found⟩
  · split at h
    · rename_i list found
      simp only [Option.some.injEq, Prod.mk.injEq] at h
      exact ⟨_, h.2 ▸ found⟩
    · split at h
      · rename_i list found
        simp only [Option.some.injEq, Prod.mk.injEq] at h
        exact ⟨_, h.2 ▸ found⟩
      · obtain ⟨list, found, eq⟩ := Option.map_eq_some_iff.mp h
        exact ⟨_, (Prod.mk.inj eq).2 ▸ found⟩

theorem rules_first (T : FilterTable) (tag : TagId) (origin : OriginId) :
    T.rules.first tag origin = (T.chosen tag origin).map fun c => (T.heap c.2).filters := by
  simp only [Rules.first, ruleKeys, List.findSome?_cons, List.findSome?_nil, FilterTable.rules,
    FilterTable.chosen]
  cases T.filterHashTable.lookup (filterhash tag origin) with
  | some list => rfl
  | none =>
    cases T.filterHashTable.lookup (filterhash 0 origin) with
    | some list => rfl
    | none =>
      cases T.filterHashTable.lookup (filterhash tag 0) with
      | some list => rfl
      | none => cases T.filterHashTable.lookup (filterhash 0 0) <;> rfl

theorem roomy_stops {l : FilterList} (room : l.filters.length < MAX_IDENTICAL_FILTERS) :
    l.Stops := by
  by_contra endless
  have used : ∀ f ∈ l.list, (f.id != 0) = true := by
    intro f mem
    by_contra zero
    exact endless ⟨f, mem, by simpa using zero⟩
  rw [FilterList.filters, List.filter_eq_self.mpr used, l.sized] at room
  exact lt_irrefl _ room

theorem sift_fresh (T : FilterTable) (opts : Opts) {m : LogMeta} (fresh : m.Fresh)
    (passes : opts.levelFilterOutMask &&& m.level = 0) :
    match T.chosen m.tag m.origin with
    | some (n, list) => (sift T opts m).1 = true ∧
        (sift T opts m).2.cachedLists = Function.update (fun _ => 0) n list
    | none => (sift T opts m).1 = !opts.defaultFilterOut ∧
        ∀ n, (sift T opts m).2.cachedLists n = 0 := by
  rw [sift_chosen T opts m passes fresh.1]
  have nulls : m.cachedLists = fun _ => 0 := funext fresh.2
  cases T.chosen m.tag m.origin with
  | some c => exact ⟨rfl, by simp [LogMeta.setList, LogMeta.withHashes, nulls]⟩
  | none => exact ⟨rfl, by simp [LogMeta.withHashes, nulls]⟩

theorem consulted_stored (T : FilterTable) (opts : Opts) {m : LogMeta} (fresh : m.Fresh)
    {p : ListPtr} (mem : p ∈ (sift T opts m).2.consulted) :
    ∃ hash, T.filterHashTable.lookup hash = some p := by
  obtain ⟨listed, notNull⟩ := List.mem_filter.mp mem
  obtain ⟨n, rfl⟩ := List.mem_ofFn.mp listed
  by_cases passes : opts.levelFilterOutMask &&& m.level = 0
  · have found := sift_fresh T opts fresh passes
    cases chosen : T.chosen m.tag m.origin with
    | some c =>
      obtain ⟨k, list⟩ := c
      simp only [chosen] at found
      by_cases same : n = k
      · subst same
        rw [found.2]
        simpa using chosen_lookup chosen
      · simp [found.2, same] at notNull
    | none =>
      simp only [chosen] at found
      simp [found.2] at notNull
  · rw [sift_masked T opts m passes] at notNull
    simp [fresh.2] at notNull

/-- The calls made for a message are the specified writes. -/
theorem siftAndRoute_writes {T : FilterTable} (wf : T.Wf) (opts : Opts) (registered : TargetId → Bool)
    {x : ExtraLogMeta} (fresh : x.m.Fresh) (terminated : x.Terminated) :
    (siftAndRoute T opts registered true x).map (fun s => (s.target, s.filter)) =
      T.rules.writes opts registered x.m.tag x.m.level x.m.origin x.effectiveIgnores := by
  rw [siftAndRoute_eq, Rules.writes, rules_first, UInt32.and_comm]
  by_cases passes : opts.levelFilterOutMask &&& x.m.level = 0
  · obtain ⟨-, level, -, -, extras⟩ := sift_keeps T opts x.m
    have found := sift_fresh T opts fresh passes
    cases chosen : T.chosen x.m.tag x.m.origin with
    | some c =>
      obtain ⟨n, p⟩ := c
      simp only [chosen] at found
      obtain ⟨hash, stored⟩ := chosen_lookup chosen
      let y : ExtraLogMeta := { x with m := (sift T opts x.m).2 }
      have sameIgnores : y.effectiveIgnores = x.effectiveIgnores := by
        simp [y, ExtraLogMeta.effectiveIgnores, LogMeta.hasIgnores, extras, ExtraLogMeta.ignores]
      obtain ⟨writes, wrote⟩ := routeList_selected registered (x := y)
        terminated (wf.ptr_ne_zero stored) (wf.list_wf stored)
      rw [show y.m.level = x.m.level from level, sameIgnores] at writes wrote
      rw [if_pos found.1, route_one_list true found.2]
      simp only [List.map_append, passes, ne_eq, not_true_eq_false, if_false, Option.map_some]
      rw [writes, wrote]
      cases any : (T.heap p).filters.any
          (Rules.selects registered x.m.level x.effectiveIgnores) with
      | true =>
        obtain ⟨f, mem, selected⟩ := List.any_eq_true.mp any
        have written : (T.heap p).filters.filter
            (Rules.selects registered x.m.level x.effectiveIgnores) ≠ [] :=
          List.ne_nil_of_mem (List.mem_filter.mpr ⟨mem, selected⟩)
        simp [written]
      | false =>
        have nothing : (T.heap p).filters.filter
            (Rules.selects registered x.m.level x.effectiveIgnores) = [] :=
          List.filter_eq_nil_iff.mpr (List.any_eq_false.mp any)
        simp [nothing]
    | none =>
      simp only [chosen] at found
      rw [route_unlisted true found.2, found.1]
      cases opts.defaultFilterOut <;> simp [passes]
  · simp [sift_masked T opts x.m passes, passes]

theorem sifted_writes {T : FilterTable} (wf : T.Wf) (opts : Opts) (registered : TargetId → Bool)
    {x : ExtraLogMeta} (fresh : x.m.Fresh) (terminated : x.Terminated)
    (passes : (sift T opts x.m).1 = true) :
    let y : ExtraLogMeta := { x with m := (sift T opts x.m).2 }
    (siftAndRoute T opts registered true y).map (fun s => (s.target, s.filter)) =
      T.rules.writes opts registered y.m.tag y.m.level y.m.origin y.effectiveIgnores := by
  intro y
  obtain ⟨tag, level, origin, -, extras⟩ := sift_keeps T opts x.m
  have ignores : y.effectiveIgnores = x.effectiveIgnores := by
    simp [y, ExtraLogMeta.effectiveIgnores, LogMeta.hasIgnores, extras, ExtraLogMeta.ignores]
  have routed : siftAndRoute T opts registered true y = siftAndRoute T opts registered true x := by
    rw [siftAndRoute_eq, siftAndRoute_eq, sift_again T opts x.m passes, passes]
  rw [routed, siftAndRoute_writes wf opts registered fresh terminated, ignores, tag, level, origin]

/-- The calls made for a message are the specified writes, and each loop over a
    list ends inside it. -/
theorem routing_refines_rules (T : FilterTable) (opts : Opts) (registered : TargetId → Bool)
    (x : ExtraLogMeta) (reachable : T.Reachable) (roomy : T.Roomy) (fresh : x.m.Fresh)
    (terminated : x.Terminated) :
    (siftAndRoute T opts registered true x).map (fun s => (s.target, s.filter)) =
        T.rules.writes opts registered x.m.tag x.m.level x.m.origin x.effectiveIgnores ∧
      ∀ p ∈ (sift T opts x.m).2.consulted, (T.heap p).Stops := by
  have wf := FilterTable.reachable_wf reachable
  constructor
  · exact siftAndRoute_writes wf opts registered fresh terminated
  · intro p mem
    obtain ⟨hash, stored⟩ := consulted_stored T opts fresh mem
    exact roomy_stops (roomy _ (lookup_entry stored))

def taggedTable : FilterTable :=
  ((FilterTable.init fun _ => .new).call
    (.addFilter 1 { tag := some 5, target := some 7 })).call
    (.addFilter 2 { tag := some 5, mask := .uint32 1 })

theorem taggedTable_reachable : taggedTable.Reachable := by
  refine FilterTable.call_reachable (FilterTable.call_reachable
    (FilterTable.init_reachable _) ?_) ?_
  · exact fresh_of_entries (by decide) (by decide)
  · exact fresh_of_entries (by decide) (by decide)

def taggedMessage (ignoreList : Fin 11 → TargetId) : ExtraLogMeta where
  m := { noMetaData with tag := 5, level := 1, extras := 1 }
  ignoreList := ignoreList

theorem routing_refines_rules_tagged :
    (siftAndRoute taggedTable {} (· == 7) true (taggedMessage fun _ => 0)).map
        (fun s => (s.target, s.filter)) =
      taggedTable.rules.writes {} (· == 7) 5 1 0 [] ∧
    (taggedTable.rules.writes {} (· == 7) 5 1 0 []).map Prod.fst = [7, 0] :=
  ⟨(routing_refines_rules taggedTable {} (· == 7) (taggedMessage fun _ => 0)
    taggedTable_reachable (by decide) (by decide) rfl).1, by decide⟩

example : (siftAndRoute taggedTable {} (· == 7) true (taggedMessage ![7, 0, 0, 0, 0, 0, 0, 0, 0, 0, 0])).map
    Selected.target = [0] := by decide

end GreaseLog
