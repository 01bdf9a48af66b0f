import GreaseLog.Dispatch
import GreaseLog.Transport

/- What the server makes of the internal fields of a meta that came through a sink.
   sift takes a cached hash for its own and keeps the lists that it finds. -/
namespace GreaseLog

structure InternalFields where
  target : TargetId
  cachedHash : Fin 3 → FilterHash
  cachedLists : Fin 4 → ListPtr

def InternalFields.hasCache (c : InternalFields) : Bool := c.cachedHash 0 != NO_CACHED_HASH

def wireMeta (tag : TagId) (level : LevelMask) (origin : OriginId) (c : InternalFields) : LogMeta where
  tag := tag
  level := level
  origin := origin
  target := c.target
  extras := 0
  cachedHash := c.cachedHash
  cachedLists := c.cachedLists

/-- Whether sift lets an entry pass, the calls of the routing loop for it, and the
    lists that the loop reads. -/
structure Served where
  logged : Bool
  calls : List Selected
  consulted : List ListPtr

section
variable (T : FilterTable) (opts : Opts) (registered : TargetId → Bool) (hasDefault : Bool)

/-- logFromRaw, and the handling of the command that _log queues. -/
def serve (entry : List Byte) : Served :=
  match logFromRaw T opts entry entry.length with
  | .ok (some (x, _)) =>
    let r := sift T opts x.m
    if r.1 then ⟨true, route T registered hasDefault { x with m := r.2 }, r.2.consulted⟩
    else ⟨true, [], []⟩
  | _ => ⟨false, [], []⟩

theorem serve_entry (m : LogMeta) (plain : m.extras = 0) (padding : Fin 4 → Byte) {s : List Byte}
    (text : s ≠ []) (size : s.length ≤ GREASE_MAX_MESSAGE_SIZE) :
    serve T opts registered hasDefault (m.bytes padding ++ s) =
      if (sift T opts m).1 then
        ⟨true, route T registered hasDefault ⟨(sift T opts m).2, SingleLog.noIgnores⟩,
          (sift T opts m).2.consulted⟩
      else ⟨false, [], []⟩ := by
  obtain ⟨list, raw⟩ := logFromRaw_entry T opts m padding text size []
  have length : (m.bytes padding ++ s).length = 80 + s.length := by
    rw [List.length_append, m.bytes_length]
    rfl
  have fits : ¬ s.length > GREASE_MAX_MESSAGE_SIZE := Nat.not_lt.mpr size
  rw [List.append_nil] at raw
  simp only [serve, length, raw, logP, fits, if_false]
  by_cases logged : (sift T opts m).1 = true
  · have again := sift_again T opts m logged
    have noExtras : (sift T opts m).2.hasIgnores = false := by
      obtain ⟨-, -, -, -, extras⟩ := sift_keeps T opts m
      simp [LogMeta.hasIgnores, extras, plain]
    simp only [logged, if_true, again]
    congr 1
    exact Logger.route_congr rfl fun ignores => by simp [noExtras] at ignores
  · simp only [logged, if_false, Bool.false_eq_true]

end

theorem route_lists {T : FilterTable} {registered : TargetId → Bool} {hasDefault : Bool}
    {x y : ExtraLogMeta} (levels : x.m.level = y.m.level) (lists : x.m.cachedLists = y.m.cachedLists)
    (plain : x.m.hasIgnores = false) (plain' : y.m.hasIgnores = false) :
    route T registered hasDefault x = route T registered hasDefault y := by
  refine Logger.route_inputs levels lists (funext fun target => ?_)
  simp [ExtraLogMeta.ignoring, plain, plain']

section
variable {c c' : InternalFields} (T : FilterTable) (opts : Opts) (tag : TagId) (level : LevelMask)
  (origin : OriginId)

/-- When neither meta brings a list and both or none bring a hash, sift decides
    alike and leaves the same lists. -/
theorem sift_wire (unlisted : ∀ n, c.cachedLists n = 0) (unlisted' : ∀ n, c'.cachedLists n = 0)
    (hashes : c.hasCache = c'.hasCache) :
    (sift T opts (wireMeta tag level origin c)).1 = (sift T opts (wireMeta tag level origin c')).1 ∧
      (sift T opts (wireMeta tag level origin c)).2.cachedLists =
        (sift T opts (wireMeta tag level origin c')).2.cachedLists := by
  have lists : c.cachedLists = c'.cachedLists := funext fun n => by rw [unlisted n, unlisted' n]
  by_cases passes : opts.levelFilterOutMask &&& level = 0
  · cases cached : c.hasCache with
    | true =>
      rw [sift_cached T opts (wireMeta tag level origin c) passes cached,
        sift_cached T opts (wireMeta tag level origin c') passes (hashes.symm.trans cached)]
      exact ⟨rfl, lists⟩
    | false =>
      rw [sift_chosen T opts (wireMeta tag level origin c) passes cached,
        sift_chosen T opts (wireMeta tag level origin c') passes (hashes.symm.trans cached)]
      simp only [wireMeta]
      split
      · exact ⟨rfl, by simp only [LogMeta.setList, LogMeta.withHashes, lists]⟩
      · exact ⟨rfl, lists⟩
  · rw [sift_masked T opts (wireMeta tag level origin c) passes,
      sift_masked T opts (wireMeta tag level origin c') passes]
    exact ⟨rfl, lists⟩

theorem wire_consulted (unlisted : ∀ n, c.cachedLists n = 0) {p : ListPtr}
    (mem : p ∈ (sift T opts (wireMeta tag level origin c)).2.consulted) :
    ∃ hash, T.filterHashTable.lookup hash = some p := by
  cases cached : c.hasCache with
  | true =>
    obtain ⟨listed, notNull⟩ := List.mem_filter.mp mem
    obtain ⟨n, rfl⟩ := List.mem_ofFn.mp listed
    by_cases passes : opts.levelFilterOutMask &&& level = 0
    · rw [sift_cached T opts (wireMeta tag level origin c) passes cached] at notNull
      simp [wireMeta, unlisted] at notNull
    · rw [sift_masked T opts (wireMeta tag level origin c) passes] at notNull
      simp [wireMeta, unlisted] at notNull
  | false => exact consulted_stored T opts (m := wireMeta tag level origin c) ⟨cached, unlisted⟩ mem

end

/-! One filter is enough to tell two entries apart whose internal fields differ. -/

def noFilters : FilterTable := .init fun _ => .new

def oneFilter (p : ListPtr) (origin : Option OriginId) : FilterTable :=
  noFilters.call (.addFilter p { tag := some 5, origin := origin, target := some 7 })

def onlyFilter : Filter := { id := 1, levelMask := ALL_LEVELS, targetId := 7 }

theorem oneFilter_reachable {p : ListPtr} (notNull : p ≠ 0) (origin : Option OriginId) :
    (oneFilter p origin).Reachable :=
  FilterTable.call_reachable (FilterTable.init_reachable _)
    ⟨notNull, fun hash q found => by simp [FilterTable.init] at found⟩

theorem oneFilter_table (p : ListPtr) (origin : Option OriginId) :
    (oneFilter p origin).filterHashTable = AList.singleton (filterhash 5 (origin.getD 0)) p ∧
      ((oneFilter p origin).heap p).list = onlyFilter :: List.replicate 15 {} ∧
      ((oneFilter p origin).heap p).bloom = ALL_LEVELS := by
  have first : ∃ l, FilterList.new.add onlyFilter = some l ∧
      l.list = onlyFilter :: List.replicate 15 {} ∧ l.bloom = ALL_LEVELS :=
    ⟨_, rfl, by decide, by decide⟩
  obtain ⟨l, added, list, bloom⟩ := first
  simp only [onlyFilter] at added
  simp only [oneFilter, FilterTable.call, FilterTable.addFilter, FilterTable._addFilter,
    FilterTable.findOrNew, noFilters, FilterTable.init]
  simp [added, list, bloom]

theorem oneFilter_stored {p q : ListPtr} {origin : Option OriginId} {hash : FilterHash}
    (found : (oneFilter p origin).filterHashTable.lookup hash = some q) : q = p := by
  rw [(oneFilter_table p origin).1] at found
  have entry := AList.mem_lookup_iff.mp found
  rw [AList.singleton_entries, List.mem_singleton] at entry
  simpa using (Sigma.mk.inj entry).2

theorem oneFilter_chosen (p : ListPtr) :
    (oneFilter p (some 3)).chosen 5 3 = some (0, p) ∧
      (oneFilter p none).chosen 5 3 = some (2, p) ∧ (oneFilter p none).chosen 5 0 = some (0, p) := by
  simp only [FilterTable.chosen, oneFilter_table]
  exact ⟨rfl, rfl, rfl⟩

theorem oneFilter_route {x : ExtraLogMeta} (leveled : x.m.level ≠ 0) (plain : x.m.hasIgnores = false)
    (lists : x.m.cachedLists = Function.update (fun _ => 0) 0 1) :
    route (oneFilter 1 none) (· == 7) true x = [⟨7, some (1, 0), onlyFilter⟩] := by
  obtain ⟨-, list, bloom⟩ := oneFilter_table 1 none
  have every : ALL_LEVELS &&& x.m.level ≠ 0 := by
    rwa [show ALL_LEVELS = -1 from rfl, UInt32.neg_one_and]
  have applies : onlyFilter.applies x.m.level = true := by
    simpa [Filter.applies, onlyFilter] using every
  have visited : visit 0 (onlyFilter :: List.replicate 15 {}) = [(0, onlyFilter)] := by decide
  have valid : ((oneFilter 1 none).heap 1).valid x.m.level = true := by
    simpa [FilterList.valid, bloom] using every
  have called : routeFilter (· == 7) true x 1 0 onlyFilter = ([⟨7, some (1, 0), onlyFilter⟩], true) := by
    rw [routeFilter, if_pos applies]
    simp [ExtraLogMeta.ignoring, plain, onlyFilter]
  have listed : routeList (oneFilter 1 none) (· == 7) true x 1 =
      ([⟨7, some (1, 0), onlyFilter⟩], true) := by
    rw [routeList, if_pos ⟨by decide, valid⟩, list, visited]
    simp [called]
  rw [route_one_list true lists, listed]
  rfl

/-- The two entries are served alike, and only stored lists are read. -/
def ServedAlike (T : FilterTable) (served served' : Served) : Prop :=
  served.logged = served'.logged ∧ served.calls = served'.calls ∧
    ∀ p ∈ served.consulted ++ served'.consulted, ∃ hash, T.filterHashTable.lookup hash = some p

theorem ServedAlike.symm {T : FilterTable} {served served' : Served}
    (alike : ServedAlike T served served') : ServedAlike T served' served := by
  obtain ⟨logged, calls, read⟩ := alike
  refine ⟨logged.symm, calls.symm, fun p mem => read p ?_⟩
  rw [List.mem_append] at mem ⊢
  exact mem.symm

section
variable {opts : Opts} {level : LevelMask} {c c' : InternalFields}

theorem serve_wire (T : FilterTable) (opts : Opts) (registered : TargetId → Bool) (hasDefault : Bool)
    (tag : TagId) (level : LevelMask) (origin : OriginId) (c : InternalFields) (padding : Fin 4 → Byte)
    {s : List Byte} (text : s ≠ []) (size : s.length ≤ GREASE_MAX_MESSAGE_SIZE) :
    serve T opts registered hasDefault ((wireMeta tag level origin c).bytes padding ++ s) =
      if (sift T opts (wireMeta tag level origin c)).1 then
        ⟨true, route T registered hasDefault
            ⟨(sift T opts (wireMeta tag level origin c)).2, SingleLog.noIgnores⟩,
          (sift T opts (wireMeta tag level origin c)).2.consulted⟩
      else ⟨false, [], []⟩ :=
  serve_entry T opts registered hasDefault (wireMeta tag level origin c) rfl padding text size

/-- Whatever the options let pass, some server reads the list that an entry brings. -/
theorem foreign_list_read (passes : opts.levelFilterOutMask &&& level = 0)
    {n : Fin 4} (notNull : c.cachedLists n ≠ 0) :
    ∃ (T : FilterTable) (tag : TagId) (origin : OriginId), T.Reachable ∧
      (sift T opts (wireMeta tag level origin c)).1 = true ∧
      c.cachedLists n ∈ (sift T opts (wireMeta tag level origin c)).2.consulted ∧
      ∀ hash, T.filterHashTable.lookup hash ≠ some (c.cachedLists n) := by
  have reads : ∀ {m : LogMeta}, m.cachedLists n = c.cachedLists n → c.cachedLists n ∈ m.consulted :=
    fun same => List.mem_filter.mpr ⟨List.mem_ofFn.mpr ⟨n, same⟩, by simpa using notNull⟩
  cases cached : c.hasCache with
  | true =>
    refine ⟨noFilters, 0, 0, FilterTable.init_reachable _, ?_⟩
    rw [sift_cached noFilters opts (wireMeta 0 level 0 c) passes cached]
    exact ⟨rfl, reads rfl, fun hash found => by simp [noFilters, FilterTable.init] at found⟩
  | false =>
    -- sift stores the list of the filter, another one, in another place.
    obtain ⟨p, nonzero, other⟩ : ∃ p : ListPtr, p ≠ 0 ∧ c.cachedLists n ≠ p := by
      by_cases one : c.cachedLists n = 1
      · exact ⟨2, by decide, by rw [one]; decide⟩
      · exact ⟨1, by decide, one⟩
    have elsewhere : ∀ (origin : Option OriginId) (place : Fin 4), n ≠ place →
        (oneFilter p origin).chosen 5 3 = some (place, p) →
        (oneFilter p origin).Reachable ∧
          (sift (oneFilter p origin) opts (wireMeta 5 level 3 c)).1 = true ∧
          c.cachedLists n ∈ (sift (oneFilter p origin) opts (wireMeta 5 level 3 c)).2.consulted ∧
          ∀ hash, (oneFilter p origin).filterHashTable.lookup hash ≠ some (c.cachedLists n) := by
      intro origin place apart chosen
      have sifted := sift_chosen (oneFilter p origin) opts (wireMeta 5 level 3 c) passes cached
      have found : (oneFilter p origin).chosen (wireMeta 5 level 3 c).tag (wireMeta 5 level 3 c).origin =
          some (place, p) := chosen
      rw [found] at sifted
      rw [sifted]
      refine ⟨oneFilter_reachable nonzero origin, rfl, reads ?_, fun hash found => other
        (oneFilter_stored found)⟩
      exact Function.update_of_ne apart _ _
    by_cases second : n = 2
    · exact ⟨_, 5, 3, elsewhere (some 3) 0 (by rw [second]; decide)
        (oneFilter_chosen p).1⟩
    · exact ⟨_, 5, 3, elsewhere none 2 second (oneFilter_chosen p).2.1⟩

/-- A hash keeps sift from the lists: where a list or defaultFilterOut would count,
    some server treats the entry otherwise. -/
theorem hash_trusted (passes : opts.levelFilterOutMask &&& level = 0)
    (unlisted : ∀ n, c.cachedLists n = 0) (unlisted' : ∀ n, c'.cachedLists n = 0)
    (cached : c.hasCache = true) (uncached : c'.hasCache = false)
    (seen : level ≠ 0 ∨ opts.defaultFilterOut = true) :
    ∃ (T : FilterTable) (registered : TargetId → Bool) (hasDefault : Bool) (tag : TagId)
      (origin : OriginId), T.Reachable ∧
      ∀ (padding padding' : Fin 4 → Byte) {s : List Byte}, s ≠ [] → s.length ≤ GREASE_MAX_MESSAGE_SIZE →
        ¬ ServedAlike T
          (serve T opts registered hasDefault ((wireMeta tag level origin c).bytes padding ++ s))
          (serve T opts registered hasDefault ((wireMeta tag level origin c').bytes padding' ++ s)) := by
  cases filterOut : opts.defaultFilterOut with
  | true =>
    refine ⟨noFilters, fun _ => false, false, 0, 0, FilterTable.init_reachable _, ?_⟩
    rintro padding padding' s text size ⟨logged, -, -⟩
    rw [serve_wire _ _ _ _ _ _ _ _ _ text size, serve_wire _ _ _ _ _ _ _ _ _ text size,
      sift_cached noFilters opts (wireMeta 0 level 0 c) passes cached,
      sift_chosen noFilters opts (wireMeta 0 level 0 c') passes uncached] at logged
    have none : noFilters.chosen (wireMeta 0 level 0 c').tag (wireMeta 0 level 0 c').origin = none := rfl
    simp [none, filterOut] at logged
  | false =>
    have leveled : level ≠ 0 := by simpa [filterOut] using seen
    refine ⟨oneFilter 1 none, fun t => t == 7, true, 5, 0, oneFilter_reachable (by decide) none, ?_⟩
    rintro padding padding' s text size ⟨-, calls, -⟩
    have sifted := sift_chosen (oneFilter 1 none) opts (wireMeta 5 level 0 c') passes uncached
    have found : (oneFilter 1 none).chosen (wireMeta 5 level 0 c').tag (wireMeta 5 level 0 c').origin =
        Option.some (0, 1) := (oneFilter_chosen 1).2.2
    rw [found] at sifted
    rw [serve_wire _ _ _ _ _ _ _ _ _ text size, serve_wire _ _ _ _ _ _ _ _ _ text size, sifted,
      sift_cached (oneFilter 1 none) opts (wireMeta 5 level 0 c) passes cached] at calls
    change route _ _ true ⟨wireMeta 5 level 0 c, SingleLog.noIgnores⟩ =
      route _ _ true ⟨(wireMeta 5 level 0 c').withHashes.setList 0 1, SingleLog.noIgnores⟩ at calls
    have lists : ((wireMeta 5 level 0 c').withHashes.setList 0 1).cachedLists =
        Function.update (fun _ => 0) 0 1 :=
      congrArg (Function.update · 0 1) (funext unlisted')
    rw [route_unlisted true unlisted, oneFilter_route leveled rfl lists, if_pos rfl] at calls
    simp at calls

theorem unlisted_of_alike (passes : opts.levelFilterOutMask &&& level = 0)
    (alike : ∀ (T : FilterTable) (registered : TargetId → Bool) (hasDefault : Bool) (tag : TagId)
        (origin : OriginId) (padding padding' : Fin 4 → Byte) (s : List Byte),
      T.Reachable → s ≠ [] → s.length ≤ GREASE_MAX_MESSAGE_SIZE →
        ServedAlike T
          (serve T opts registered hasDefault ((wireMeta tag level origin c).bytes padding ++ s))
          (serve T opts registered hasDefault ((wireMeta tag level origin c').bytes padding' ++ s)))
    (n : Fin 4) : c.cachedLists n = 0 := by
  by_contra notNull
  have text : [97] ≠ ([] : List Byte) := by decide
  have size : ([97] : List Byte).length ≤ GREASE_MAX_MESSAGE_SIZE := by decide
  obtain ⟨T, tag, origin, reachable, logged, mem, unstored⟩ := foreign_list_read passes notNull
  obtain ⟨-, -, read⟩ := alike T (fun _ => false) false tag origin (fun _ => 0) (fun _ => 0) [97]
    reachable text size
  rw [serve_wire _ _ _ _ _ _ _ _ _ text size, if_pos logged] at read
  obtain ⟨hash, found⟩ := read _ (List.mem_append_left _ mem)
  exact unstored hash found

theorem servedAlike_of_unlisted {T : FilterTable} {registered : TargetId → Bool} {hasDefault : Bool}
    {tag : TagId} {origin : OriginId} (unlisted : ∀ n, c.cachedLists n = 0)
    (unlisted' : ∀ n, c'.cachedLists n = 0)
    (decisions : (sift T opts (wireMeta tag level origin c)).1 =
      (sift T opts (wireMeta tag level origin c')).1)
    (calls : route T registered hasDefault
        ⟨(sift T opts (wireMeta tag level origin c)).2, SingleLog.noIgnores⟩ =
      route T registered hasDefault
        ⟨(sift T opts (wireMeta tag level origin c')).2, SingleLog.noIgnores⟩)
    (padding padding' : Fin 4 → Byte) {s : List Byte} (text : s ≠ [])
    (size : s.length ≤ GREASE_MAX_MESSAGE_SIZE) :
    ServedAlike T
      (serve T opts registered hasDefault ((wireMeta tag level origin c).bytes padding ++ s))
      (serve T opts registered hasDefault ((wireMeta tag level origin c').bytes padding' ++ s)) := by
  rw [serve_wire _ _ _ _ _ _ _ _ _ text size, serve_wire _ _ _ _ _ _ _ _ _ text size, ← decisions]
  by_cases logged : (sift T opts (wireMeta tag level origin c)).1 = true
  · simp only [logged, if_true]
    refine ⟨rfl, calls, fun p mem => ?_⟩
    rcases List.mem_append.mp mem with left | right
    · exact wire_consulted T opts tag level origin unlisted left
    · exact wire_consulted T opts tag level origin unlisted' right
  · simp only [logged, if_false, Bool.false_eq_true]
    exact ⟨rfl, rfl, fun p mem => by simp at mem⟩

/-- A masked entry is dropped before sift looks at the internal fields. -/
theorem masked_servedAlike {T : FilterTable} {registered : TargetId → Bool} {hasDefault : Bool}
    {tag : TagId} {origin : OriginId} (masked : opts.levelFilterOutMask &&& level ≠ 0)
    (padding padding' : Fin 4 → Byte) {s : List Byte} (text : s ≠ [])
    (size : s.length ≤ GREASE_MAX_MESSAGE_SIZE) :
    ServedAlike T
      (serve T opts registered hasDefault ((wireMeta tag level origin c).bytes padding ++ s))
      (serve T opts registered hasDefault ((wireMeta tag level origin c').bytes padding' ++ s)) := by
  rw [serve_wire _ _ _ _ _ _ _ _ _ text size, serve_wire _ _ _ _ _ _ _ _ _ text size,
    sift_masked T opts (wireMeta tag level origin c) masked,
    sift_masked T opts (wireMeta tag level origin c') masked]
  exact ⟨rfl, rfl, fun p mem => by simp at mem⟩

theorem route_levelless {T : FilterTable} {registered : TargetId → Bool} {hasDefault : Bool}
    {x : ExtraLogMeta} (levelless : x.m.level = 0) :
    route T registered hasDefault x =
      if hasDefault then [⟨DEFAULT_TARGET, none, defaultFilter⟩] else [] := by
  have invalid : ∀ p, routeList T registered hasDefault x p = ([], false) := by
    intro p
    have none : (T.heap p).valid x.m.level = false := by simp [FilterList.valid, levelless]
    simp [routeList, none]
  simp [route, List.ofFn_succ, invalid]

theorem sift_levelless {T : FilterTable} {tag : TagId} {origin : OriginId}
    (filterOut : opts.defaultFilterOut = false) :
    (sift T opts (wireMeta tag 0 origin c)).1 = true := by
  have passes : opts.levelFilterOutMask &&& 0 = 0 := UInt32.and_zero
  cases cached : c.hasCache with
  | true => rw [sift_cached T opts (wireMeta tag 0 origin c) passes cached]
  | false =>
    rw [sift_chosen T opts (wireMeta tag 0 origin c) passes cached]
    split
    · rfl
    · simp [filterOut]

end

/-- Entries of this level that differ in these internal fields (and in the padding) are
    served alike, whatever the table, the targets and the rest of the entries, exactly if
    the level is masked out, or both leave the lists NULL and both or neither set the
    first hash, where the hash does not count for a message without a level that is not
    filtered out by default. -/
theorem wire_fields_ignored_iff (opts : Opts) (level : LevelMask) (c c' : InternalFields) :
    (∀ (T : FilterTable) (registered : TargetId → Bool) (hasDefault : Bool) (tag : TagId)
        (origin : OriginId) (padding padding' : Fin 4 → Byte) (s : List Byte),
      T.Reachable → s ≠ [] → s.length ≤ GREASE_MAX_MESSAGE_SIZE →
        ServedAlike T
          (serve T opts registered hasDefault ((wireMeta tag level origin c).bytes padding ++ s))
          (serve T opts registered hasDefault ((wireMeta tag level origin c').bytes padding' ++ s))) ↔
      opts.levelFilterOutMask &&& level ≠ 0 ∨
        (∀ n, c.cachedLists n = 0) ∧ (∀ n, c'.cachedLists n = 0) ∧
          (c.hasCache = c'.hasCache ∨ level = 0 ∧ opts.defaultFilterOut = false) := by
  constructor
  · intro alike
    by_cases passes : opts.levelFilterOutMask &&& level = 0
    · have text : [97] ≠ ([] : List Byte) := by decide
      have size : ([97] : List Byte).length ≤ GREASE_MAX_MESSAGE_SIZE := by decide
      have unlisted : ∀ n, c.cachedLists n = 0 := unlisted_of_alike passes alike
      have unlisted' : ∀ n, c'.cachedLists n = 0 :=
        unlisted_of_alike passes fun T registered hasDefault tag origin padding padding' s
          reachable text size =>
            (alike T registered hasDefault tag origin padding' padding s reachable text size).symm
      refine .inr ⟨unlisted, unlisted', ?_⟩
      by_contra told
      obtain ⟨differ, shown⟩ := not_or.mp told
      have seen : level ≠ 0 ∨ opts.defaultFilterOut = true := by
        by_contra neither
        obtain ⟨levelless, off⟩ := not_or.mp neither
        exact shown ⟨not_not.mp levelless, Bool.eq_false_iff.mpr off⟩
      cases cached : c.hasCache with
      | true =>
        have uncached : c'.hasCache = false := by simpa [cached] using differ
        obtain ⟨T, registered, hasDefault, tag, origin, reachable, unlike⟩ :=
          hash_trusted passes unlisted unlisted' cached uncached seen
        exact unlike (fun _ => 0) (fun _ => 0) text size
          (alike T registered hasDefault tag origin _ _ [97] reachable text size)
      | false =>
        have cached' : c'.hasCache = true := by simpa [cached] using differ
        obtain ⟨T, registered, hasDefault, tag, origin, reachable, unlike⟩ :=
          hash_trusted passes unlisted' unlisted cached' cached seen
        exact unlike (fun _ => 0) (fun _ => 0) text size
          (alike T registered hasDefault tag origin _ _ [97] reachable text size).symm
    · exact .inl passes
  · rintro condition T registered hasDefault tag origin padding padding' s - text size
    rcases condition with masked | ⟨unlisted, unlisted', hashes | ⟨rfl, filterOut⟩⟩
    · exact masked_servedAlike masked padding padding' text size
    · obtain ⟨decisions, lists⟩ := sift_wire T opts tag level origin unlisted unlisted' hashes
      obtain ⟨-, levels, -, -, extras⟩ := sift_keeps T opts (wireMeta tag level origin c)
      obtain ⟨-, levels', -, -, extras'⟩ := sift_keeps T opts (wireMeta tag level origin c')
      refine servedAlike_of_unlisted unlisted unlisted' decisions ?_ padding padding' text size
      refine route_lists (levels.trans levels'.symm) lists ?_ ?_
      · rw [LogMeta.hasIgnores, extras]
        rfl
      · rw [LogMeta.hasIgnores, extras']
        rfl
    · obtain ⟨-, levelless, -⟩ := sift_keeps T opts (wireMeta tag 0 origin c)
      obtain ⟨-, levelless', -⟩ := sift_keeps T opts (wireMeta tag 0 origin c')
      refine servedAlike_of_unlisted unlisted unlisted'
        ((sift_levelless filterOut).trans (sift_levelless filterOut).symm) ?_ padding padding' text size
      rw [route_levelless levelless, route_levelless levelless']

def honestFields : InternalFields := ⟨0, ![NO_CACHED_HASH, 0, 0], fun _ => 0⟩

def hashedFields : InternalFields := ⟨0, fun _ => 0, fun _ => 0⟩

def listedFields : InternalFields := ⟨0, fun _ => 0, ![0xDEAD, 0, 0, 0]⟩

def servedTagged (c : InternalFields) : Served :=
  serve taggedTable {} (· == 7) true ((wireMeta 5 1 0 c).bytes (fun _ => 0) ++ [97])

/-- The set hash keeps the message from target 7; the set list is read. -/
theorem wire_fields_trusted :
    taggedTable.Reachable ∧
      (servedTagged honestFields).calls.map Selected.target = [7, 0] ∧
      (servedTagged hashedFields).calls.map Selected.target = [0] ∧
      (servedTagged listedFields).consulted = [0xDEAD] ∧
      ∀ entry ∈ taggedTable.filterHashTable.entries, entry.2 ≠ 0xDEAD := by
  refine ⟨taggedTable_reachable, by decide, by decide, by decide, fun entry mem => ?_⟩
  have unused : (taggedTable.filterHashTable.entries.all fun entry => entry.2 != 0xDEAD) = true := by
    decide
  have other := List.all_eq_true.mp unused entry mem
  simpa using other

end GreaseLog
