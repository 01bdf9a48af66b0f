import GreaseLog.Handled

/- What one command does to the logger: the targets keep their configuration and
   sound banks, the calls made are those that were routed, and the drain loop
   comes to an end. -/
namespace GreaseLog

def Event.call? : Event → Option Selected
  | .write call _ => some call
  | .overflow call _ _ => some call
  | .rotate _ => none

/-- The entry was copied to a buffer in full, or emitted. -/
def Event.delivered : Event → Bool
  | .write _ outcome => outcome.isStored
  | .overflow _ _ emitted => emitted
  | .rotate _ => false

/-- The entry was copied, be it past the end of a buffer, or emitted. -/
def Event.copied : Event → Bool
  | .write _ outcome => outcome.isCopied
  | .overflow _ _ emitted => emitted
  | .rotate _ => false

def Event.starved : Event → Bool
  | .write _ outcome => outcome.starved
  | .overflow _ flushed _ => flushed == .noBuffers || flushed == .writeOutFull
  | .rotate _ => false

namespace Logger
variable {L L' L'' : Logger} {id : TargetId} {t t' : LogTarget} {o : Owner}

structure Wf (L : Logger) : Prop where
  ids : ∀ id t, L.target id = some t → t.myId = id
  banks : ∀ id t, L.target id = some t → t.BankWf L.owner []
  delims : ∀ id t, L.target id = some t → ∀ b, (t.buffers b).delim = t.current.delim
  absent : ∀ id, L.target id = none → L.owner.pending id = []
  pool : ∀ slot, (L.pool slot).buf.bytes.length = L.opts.bufferSize

structure Same (L L' : Logger) : Prop where
  filters : L'.filters = L.filters
  opts : L'.opts = L.opts
  registered : L'.registered = L.registered
  hasDefault : L'.defaultTarget.isSome = L.defaultTarget.isSome
  targets : ∀ id t, L.target id = some t → ∃ t', L'.target id = some t' ∧ t.SameSetup t'

theorem Same.refl (L : Logger) : Same L L :=
  ⟨rfl, rfl, rfl, rfl, fun _ t found => ⟨t, found, .refl t⟩⟩

theorem Same.trans (first : Same L L') (second : Same L' L'') : Same L L'' := by
  refine ⟨second.filters.trans first.filters, second.opts.trans first.opts,
    second.registered.trans first.registered, second.hasDefault.trans first.hasDefault, ?_⟩
  intro id t found
  obtain ⟨t', found', setup⟩ := first.targets id t found
  obtain ⟨t'', found'', setup'⟩ := second.targets id t' found'
  exact ⟨t'', found'', setup.trans setup'⟩

theorem Same.routed (same : Same L L') (x : ExtraLogMeta) : L'.routed x = L.routed x := by
  simp only [Logger.routed, same.filters, same.opts, same.registered, same.hasDefault]

theorem Same.sifted (same : Same L L') (x : ExtraLogMeta) : L'.sifted x = L.sifted x := by
  simp only [Logger.sifted, same.filters, same.opts]

theorem Wf.frame (wf : L.Wf) (targets : L'.target = L.target)
    (callbacks : L'.owner.v8LogCallbacks = L.owner.v8LogCallbacks)
    (buffers : ∀ slot, (L'.pool slot).buf.bytes.length = (L.pool slot).buf.bytes.length)
    (size : L'.opts.bufferSize = L.opts.bufferSize) : L'.Wf where
  ids := by rw [targets]; exact wf.ids
  banks := by rw [targets]; exact fun id t found => (wf.banks id t found).owner callbacks
  delims := by rw [targets]; exact wf.delims
  absent := by
    rw [targets]
    exact fun id missing => (pending_congr callbacks id).trans (wf.absent id missing)
  pool := fun slot => by rw [buffers, size]; exact wf.pool slot

theorem putTarget_same : (L.putTarget id t o).target id = some t := by
  unfold putTarget setTarget target
  by_cases default : id = 0
  · simp [default]
  · simp [default]

theorem putTarget_other {other : TargetId} (ne : other ≠ id) :
    (L.putTarget id t o).target other = L.target other := by
  unfold putTarget setTarget target
  by_cases default : id = 0
  · simp [default, default ▸ ne]
  · simp [default, AList.lookup_insert_ne ne]

theorem putTarget_registered (found : L.target id = some t) (t' : LogTarget) (o : Owner) :
    (L.putTarget id t' o).registered = L.registered ∧
      (L.putTarget id t' o).defaultTarget.isSome = L.defaultTarget.isSome := by
  unfold target at found
  by_cases default : id = 0
  · simp only [default, if_true] at found
    exact ⟨funext fun other => by simp [putTarget, setTarget, default, registered],
      by simp [putTarget, setTarget, default, found]⟩
  · simp only [default, if_false] at found
    refine ⟨funext fun other => ?_, by simp [putTarget, setTarget, default]⟩
    by_cases same : other = id
    · subst same
      simp [putTarget, setTarget, default, registered, found]
    · simp [putTarget, setTarget, default, registered, AList.lookup_insert_ne same]

theorem put_same (found : L.target id = some t) (setup : t.SameSetup t') :
    Same L (L.putTarget id t' o) := by
  obtain ⟨filters, opts, _, _⟩ := putTarget_fields L id t' o
  obtain ⟨registered, hasDefault⟩ := putTarget_registered found t' o
  refine ⟨filters, opts, registered, hasDefault, fun other u there => ?_⟩
  by_cases same : other = id
  · subst same
    obtain rfl := Option.some.inj (found.symm.trans there)
    exact ⟨t', putTarget_same, setup⟩
  · exact ⟨u, (putTarget_other same).trans there, .refl u⟩

theorem putTarget_wf (wf : L.Wf) (named : t.myId = id) (bank : t.BankWf o [])
    (delims : ∀ b, (t.buffers b).delim = t.current.delim)
    (others : ∀ other, other ≠ id → o.pending other = L.owner.pending other) :
    (L.putTarget id t o).Wf := by
  obtain ⟨_, opts, pool, _⟩ := putTarget_fields L id t o
  have ours : ∀ u, (L.putTarget id t o).target id = some u → u = t := fun u there =>
    (Option.some.inj (putTarget_same.symm.trans there)).symm
  have theirs : ∀ other u, other ≠ id → (L.putTarget id t o).target other = some u →
      L.target other = some u := fun other u ne there => (putTarget_other ne).symm.trans there
  constructor
  · intro other u there
    by_cases same : other = id
    · subst same
      rw [ours u there]
      exact named
    · exact wf.ids other u (theirs other u same there)
  · intro other u there
    by_cases same : other = id
    · subst same
      rw [ours u there]
      exact bank
    · have before := theirs other u same there
      refine (wf.banks other u before).pending_same ?_
      rw [wf.ids other u before, show (L.putTarget id t o).owner = o from rfl, others other same]
  · intro other u there
    by_cases same : other = id
    · subst same
      rw [ours u there]
      exact delims
    · exact wf.delims other u (theirs other u same there)
  · intro other missing
    have apart : other ≠ id := by
      rintro rfl
      simp [putTarget_same] at missing
    exact (others other apart).trans (wf.absent other ((putTarget_other apart).symm.trans missing))
  · intro slot
    rw [pool, opts]
    exact wf.pool slot

theorem put_wf (wf : L.Wf) (found : L.target id = some t) (handled : t.Handled L.owner t' o) :
    (L.putTarget id t' o).Wf := by
  have named : t.myId = id := wf.ids id t found
  have delims := wf.delims id t found
  refine putTarget_wf wf (handled.setup.config.myId.trans named) (handled.wf (wf.banks id t found))
    (fun b => ?_) fun other apart => handled.others other (named ▸ apart)
  calc (t'.buffers b).delim = (t.buffers b).delim := handled.setup.delims b
    _ = t.current.delim := delims b
    _ = (t.buffers t'.currentBuffer).delim := (delims _).symm
    _ = t'.current.delim := (handled.setup.delims _).symm

/-! The calls that are made for a meta. -/

theorem visit_length (n : Nat) (slots : List Filter) : (visit n slots).length ≤ slots.length := by
  induction slots generalizing n with
  | nil => exact Nat.le_refl _
  | cons f rest ih =>
    unfold visit
    split
    · exact Nat.zero_le _
    · exact Nat.succ_le_succ (ih _)

theorem routeFilter_length (registered : TargetId → Bool) (hasDefault : Bool) (x : ExtraLogMeta)
    (p : ListPtr) (n : Nat) (f : Filter) :
    (routeFilter registered hasDefault x p n f).1.length ≤ 1 := by
  unfold routeFilter
  split
  · split
    · split <;> simp
    · split <;> simp
  · simp

theorem flatMap_length_le {α β : Type} {f : α → List β} {bound : Nat} (each : ∀ a, (f a).length ≤ bound)
    (l : List α) : (l.flatMap f).length ≤ l.length * bound := by
  induction l with
  | nil => simp
  | cons a rest ih =>
    have first := each a
    rw [List.flatMap_cons, List.length_append, List.length_cons, Nat.succ_mul]
    omega

theorem routeList_length (T : FilterTable) (registered : TargetId → Bool) (hasDefault : Bool)
    (x : ExtraLogMeta) (p : ListPtr) :
    (routeList T registered hasDefault x p).1.length ≤ MAX_IDENTICAL_FILTERS := by
  unfold routeList
  split
  · have slots := visit_length 0 (T.heap p).list
    rw [(T.heap p).sized] at slots
    have calls := flatMap_length_le (f := fun v : Nat × Filter =>
      (routeFilter registered hasDefault x p v.1 v.2).1)
      (fun v => routeFilter_length registered hasDefault x p v.1 v.2) (visit 0 (T.heap p).list)
    simp only [List.flatMap_map]
    omega
  · exact Nat.zero_le _

theorem routed_length (L : Logger) (x : ExtraLogMeta) : (L.routed x).length ≤ MAX_CALLS := by
  simp only [Logger.routed]
  split
  · have lists := flatMap_length_le (routeList_length L.filters L.registered L.defaultTarget.isSome
      { x with m := (sift L.filters L.opts x.m).2 })
      (List.ofFn (sift L.filters L.opts x.m).2.cachedLists)
    rw [List.length_ofFn] at lists
    simp only [route, List.flatMap_map, List.length_append, MAX_CALLS]
    unfold GREASE_META_HASHLIST_CACHE_SIZE
    split
    · rw [List.length_singleton]
      omega
    · rw [List.length_nil]
      omega
  · exact Nat.zero_le _

theorem route_inputs {T : FilterTable} {registered : TargetId → Bool} {hasDefault : Bool}
    {x y : ExtraLogMeta} (levels : x.m.level = y.m.level) (lists : x.m.cachedLists = y.m.cachedLists)
    (ignoring : x.ignoring = y.ignoring) :
    route T registered hasDefault x = route T registered hasDefault y := by
  have same : routeList T registered hasDefault x = routeList T registered hasDefault y := by
    funext p
    simp only [routeList, routeFilter, levels, ignoring]
  simp only [route, lists, same]

/-- Only the meta counts, and the list of one that has ignores. -/
theorem route_congr {T : FilterTable} {registered : TargetId → Bool} {hasDefault : Bool}
    {x y : ExtraLogMeta} (metas : x.m = y.m)
    (lists : x.m.hasIgnores = true → x.ignoreList = y.ignoreList) :
    route T registered hasDefault x = route T registered hasDefault y := by
  refine route_inputs (by rw [metas]) (by rw [metas]) (funext fun target => ?_)
  cases ignores : x.m.hasIgnores with
  | true => simp [ExtraLogMeta.ignoring, ← metas, lists ignores]
  | false => simp [ExtraLogMeta.ignoring, ← metas, ignores]

theorem routeFilter_mem {registered : TargetId → Bool} {hasDefault : Bool} {x : ExtraLogMeta}
    {p : ListPtr} {n : Nat} {f : Filter} {call : Selected}
    (mem : call ∈ (routeFilter registered hasDefault x p n f).1) :
    (call.target = 0 ∧ hasDefault = true) ∨
      (call.target ≠ 0 ∧ registered call.target = true ∧ x.ignoring call.target = false) := by
  unfold routeFilter at mem
  split at mem
  · split at mem
    · split at mem
      · obtain rfl := List.mem_singleton.mp mem
        exact Or.inl ⟨rfl, ‹_›⟩
      · simp at mem
    · rename_i other
      split at mem
      · rename_i there
        obtain rfl := List.mem_singleton.mp mem
        simp only [Bool.and_eq_true, Bool.not_eq_true'] at there
        exact Or.inr ⟨other, there.2, there.1⟩
      · simp at mem
  · simp at mem

theorem route_mem {T : FilterTable} {registered : TargetId → Bool} {hasDefault : Bool}
    {x : ExtraLogMeta} {call : Selected} (mem : call ∈ route T registered hasDefault x) :
    (call.target = 0 ∧ hasDefault = true) ∨
      (call.target ≠ 0 ∧ registered call.target = true ∧ x.ignoring call.target = false) := by
  simp only [route, List.mem_append, List.mem_flatMap, List.mem_map] at mem
  rcases mem with ⟨_, ⟨p, _, rfl⟩, mem⟩ | mem
  · unfold routeList at mem
    split at mem
    · simp only [List.mem_flatMap, List.mem_map] at mem
      obtain ⟨_, ⟨v, _, rfl⟩, mem⟩ := mem
      exact routeFilter_mem mem
    · simp at mem
  · split at mem
    · rename_i last
      obtain rfl := List.mem_singleton.mp mem
      simp only [Bool.and_eq_true] at last
      exact Or.inl ⟨rfl, last.2⟩
    · simp at mem

theorem routed_present {x : ExtraLogMeta} {call : Selected} (mem : call ∈ L.routed x) :
    ∃ t, L.target call.target = some t := by
  simp only [Logger.routed] at mem
  split at mem
  · refine Option.isSome_iff_exists.mp ?_
    rcases route_mem mem with ⟨default, there⟩ | ⟨other, there, _⟩
    · simpa [target, default] using there
    · simpa [target, other, registered] using there
  · simp at mem

/-! The writes of a NEW_LOG command. -/

def requeues (L : Logger) (s : List Byte) (call : Selected) : Bool :=
  (L.target call.target).any fun t =>
    !t.disabled && decide (t.bankSize < s.length + GREASE_MAX_PREFIX_HEADER)

def fits (L : Logger) (s : List Byte) (m : LogMeta) (call : Selected) (env : WriteEnv) : Bool :=
  (L.target call.target).any fun t =>
    decide ((entryBytes t.current.delim (t.header env m call.filter) s
      (t.footer env m call.filter)).length ≤ t.bankSize)

def Enabled (L : Logger) : Prop := ∀ id t, L.target id = some t → t.disabled = false

theorem Same.absent (same : Same L L') (missing : L.target id = none) : L'.target id = none := by
  unfold target at missing ⊢
  have registered := congrFun same.registered id
  have hasDefault := same.hasDefault
  unfold Logger.registered at registered
  split at missing <;> simp_all

theorem Same.requeues (same : Same L L') (s : List Byte) : L'.requeues s = L.requeues s := by
  funext call
  cases found : L.target call.target with
  | none => simp [Logger.requeues, found, same.absent found]
  | some t =>
    obtain ⟨t', found', setup⟩ := same.targets _ t found
    simp [Logger.requeues, found, found', setup.config.disabled, setup.config.bankSize]

theorem SameSetup_texts {t t' : LogTarget} (setup : t.SameSetup t')
    (delims : ∀ b, (t.buffers b).delim = t.current.delim) :
    t'.header = t.header ∧ t'.footer = t.footer ∧ t'.current.delim = t.current.delim :=
  ⟨setup.config.texts.1, setup.config.texts.2, (setup.delims _).trans (delims _)⟩

theorem Same.fits (same : Same L L') (wf : L.Wf) (s : List Byte) (m : LogMeta) :
    L'.fits s m = L.fits s m := by
  funext call env
  cases found : L.target call.target with
  | none => simp [Logger.fits, found, same.absent found]
  | some t =>
    obtain ⟨t', found', setup⟩ := same.targets _ t found
    obtain ⟨header, footer, delim⟩ := SameSetup_texts setup (wf.delims _ t found)
    simp [Logger.fits, found, found', setup.config.bankSize, header, footer, delim]

theorem Same.enabled (same : Same L L') (enabled : L.Enabled) : L'.Enabled := by
  intro id t' found'
  cases found : L.target id with
  | none => simp [same.absent found] at found'
  | some t =>
    obtain ⟨t'', found'', setup⟩ := same.targets _ t found
    obtain rfl := Option.some.inj (found'.symm.trans found'')
    rw [setup.config.disabled]
    exact enabled id t found

variable (env : Nat → WriteEnv)

structure Writes (s : List Byte) (m : LogMeta) (L : Logger) (calls : List Selected) (L' : Logger)
    (events : List Event) : Prop where
  same : Same L L'
  wf : L'.Wf
  pool : L'.pool = L.pool
  called : L'.calls = L.calls + calls.length
  named : events.map Event.call? = calls.map some
  queued : ∃ added, L'.owner.internalCmdQueue.items = L.owner.internalCmdQueue.items ++ added ∧
    added.length ≤ calls.length ∧ (∀ req ∈ added, req.slot? = none) ∧
    (L.owner.internalCmdQueue.items.length + calls.length ≤ INTERNAL_QUEUE_SIZE →
      added.filterMap InternalCmdReq.overflow? =
        List.replicate (calls.countP (L.requeues s)) (.ofData s m))
  stored : (∀ e ∈ events, e.starved = false) → s ≠ [] → L.Enabled →
    events.map Event.delivered = (calls.zipIdx L.calls).map fun p =>
      !L.requeues s p.1 && L.fits s m p.1 (env p.2)

theorem Same.counted (same : Same L L') (calls : Nat) : Same L { L' with calls := calls } :=
  ⟨same.filters, same.opts, same.registered, same.hasDefault, same.targets⟩

theorem Wf.counted (wf : L.Wf) (calls : Nat) : Wf { L with calls := calls } :=
  wf.frame rfl rfl (fun _ => rfl) rfl

theorem writeTo_writes (wf : L.Wf) {call : Selected} {t : LogTarget}
    (found : L.target call.target = some t) (s : List Byte) (m : LogMeta) :
    Writes env s m L [call] (writeTo env L s m call).1 (writeTo env L s m call).2 := by
  let r := t.write L.owner (env L.calls) s m call.filter
  have ran : writeTo env L s m call =
      ({ L.putTarget call.target r.1 r.2.1 with calls := L.calls + 1 }, [.write call r.2.2]) := by
    simp only [writeTo, found, r]
  have handled := LogTarget.write_handled t L.owner (env L.calls) s m call.filter
  obtain ⟨_, _, pool, _⟩ := putTarget_fields L call.target r.1 r.2.1
  have put : Same L (L.putTarget call.target r.1 r.2.1) := put_same found handled.setup
  have size : L.requeues s call =
      (!t.disabled && decide (t.bankSize < s.length + GREASE_MAX_PREFIX_HEADER)) := by
    simp [requeues, found]
  rw [ran]
  refine ⟨put.counted _, (put_wf wf found handled).counted _, pool, rfl, rfl, ?_, ?_⟩
  · obtain ⟨added, items, one, ofWrite, overflow⟩ :=
      LogTarget.write_queue t L.owner (env L.calls) s m call.filter
    refine ⟨added, items, one, fun req mem => ofWrite_slotless (ofWrite req mem), fun room => ?_⟩
    rw [overflow (Nat.lt_of_succ_le room), List.countP_singleton, size]
    split <;> rfl
  · intro fed text enabled
    have on := enabled _ t found
    have calm := fed _ (List.mem_singleton_self _)
    have fit : L.fits s m call (env L.calls) =
        decide ((entryBytes t.current.delim (t.header (env L.calls) m call.filter) s
          (t.footer (env L.calls) m call.filter)).length ≤ t.bankSize) := by
      simp [fits, found]
    simp only [List.map_cons, List.map_nil, List.zipIdx_cons, List.zipIdx_nil, size, fit, on,
      Bool.not_false, Bool.true_and, List.cons.injEq, and_true, Event.delivered]
    by_cases small : t.bankSize < s.length + GREASE_MAX_PREFIX_HEADER
    · have apart : r.2.2.isStored = false := by
        simp only [r, LogTarget.write, on, small, if_true, Bool.false_eq_true, if_false]
        split <;> rfl
      simp [apart, small]
    · have exact := LogTarget.write_stored_iff (wf.banks _ t found) (wf.delims _ t found)
        (env L.calls) text m call.filter on (Nat.le_of_not_lt small) calm
      simp only [small, decide_false, Bool.not_false, Bool.true_and]
      exact Bool.eq_iff_iff.mpr (by simpa [r] using exact)

theorem writes_trans {s : List Byte} {m : LogMeta} {calls calls' : List Selected}
    {events events' : List Event} (wf : L.Wf) (first : Writes env s m L calls L' events)
    (second : Writes env s m L' calls' L'' events') :
    Writes env s m L (calls ++ calls') L'' (events ++ events') := by
  refine ⟨first.same.trans second.same, second.wf, second.pool.trans first.pool, ?_, ?_, ?_, ?_⟩
  · rw [second.called, first.called, List.length_append, Nat.add_assoc]
  · rw [List.map_append, List.map_append, first.named, second.named]
  · obtain ⟨added, items, one, slotless, overflow⟩ := first.queued
    obtain ⟨added', items', one', slotless', overflow'⟩ := second.queued
    refine ⟨added ++ added', by rw [items', items, List.append_assoc], ?_, ?_, fun room => ?_⟩
    · rw [List.length_append, List.length_append]
      omega
    · exact List.forall_mem_append.mpr ⟨slotless, slotless'⟩
    · rw [List.length_append] at room
      have room' : L'.owner.internalCmdQueue.items.length + calls'.length ≤ INTERNAL_QUEUE_SIZE := by
        rw [items, List.length_append]
        omega
      rw [List.filterMap_append, overflow (by omega), overflow' room', first.same.requeues,
        List.countP_append, List.replicate_add]
  · intro fed text enabled
    obtain ⟨fed, fed'⟩ := List.forall_mem_append.mp fed
    rw [List.map_append, first.stored fed text enabled,
      second.stored fed' text (first.same.enabled enabled), first.same.requeues,
      first.same.fits wf, first.called, List.zipIdx_append, List.map_append]

theorem callAll_writes (wf : L.Wf) (s : List Byte) (m : LogMeta) (calls : List Selected)
    (present : ∀ call ∈ calls, ∃ t, L.target call.target = some t) :
    Writes env s m L calls (callAll (fun L call => writeTo env L s m call) L calls).1
      (callAll (fun L call => writeTo env L s m call) L calls).2 := by
  induction calls generalizing L with
  | nil =>
    exact ⟨.refl L, wf, rfl, rfl, rfl, ⟨[], by simp [callAll]⟩, fun _ _ _ => rfl⟩
  | cons call rest ih =>
    obtain ⟨t, found⟩ := present call List.mem_cons_self
    have first := writeTo_writes env wf found s m
    have others := ih first.wf fun other mem => by
      obtain ⟨u, there⟩ := present other (List.mem_cons_of_mem _ mem)
      obtain ⟨u', there', _⟩ := first.same.targets _ u there
      exact ⟨u', there'⟩
    exact writes_trans env wf first others

/-! The writes of which no copy is made, past the end of a buffer or not. -/

theorem copied_of_delivered {e : Event} (delivered : e.delivered = true) : e.copied = true := by
  cases e with
  | write call outcome => cases outcome <;> simp_all [Event.delivered, Event.copied,
      WriteOutcome.isStored, WriteOutcome.isCopied]
  | overflow call flushed emitted => exact delivered
  | rotate id => exact delivered

/-- The entry fits no buffer, and with no data in currentBuffer write() drops it. -/
def drops (L : Logger) (s : List Byte) (m : LogMeta) (call : Selected) (env : WriteEnv) : Bool :=
  !L.fits s m call env && (L.target call.target).any fun t => t.current.isEmpty

theorem writeTo_uncopied (wf : L.Wf) {call : Selected} {t : LogTarget}
    (found : L.target call.target = some t) {s : List Byte} (text : s ≠ []) (m : LogMeta)
    (on : t.disabled = false) (fed : ∀ e ∈ (writeTo env L s m call).2, e.starved = false) :
    ((∀ e ∈ (writeTo env L s m call).2, e.copied = false) ↔
        L.requeues s call = true ∨ L.drops s m call (env L.calls) = true) ∧
      ((∀ e ∈ (writeTo env L s m call).2, e.copied = false) →
        (writeTo env L s m call).1.target = L.target) := by
  let r := t.write L.owner (env L.calls) s m call.filter
  have ran : writeTo env L s m call =
      ({ L.putTarget call.target r.1 r.2.1 with calls := L.calls + 1 }, [.write call r.2.2]) := by
    simp only [writeTo, found, r]
  have unchanged : r.1 = t → (writeTo env L s m call).1.target = L.target := by
    intro same
    rw [ran]
    funext id
    by_cases here : id = call.target
    · have put : (L.putTarget call.target r.1 r.2.1).target call.target = some r.1 := putTarget_same
      rw [here, found, ← same]
      exact put
    · have others : (L.putTarget call.target r.1 r.2.1).target id = L.target id :=
        putTarget_other here
      exact others
  rw [ran] at fed
  have calm : r.2.2.starved = false := fed _ (List.mem_singleton_self _)
  have size : L.requeues s call = decide (t.bankSize < s.length + GREASE_MAX_PREFIX_HEADER) := by
    simp [requeues, found, on]
  have one : (∀ e ∈ (writeTo env L s m call).2, e.copied = false) ↔ r.2.2.isCopied = false := by
    rw [ran]
    simp [Event.copied]
  rw [one, size]
  by_cases small : t.bankSize < s.length + GREASE_MAX_PREFIX_HEADER
  · obtain ⟨apart, same⟩ : r.2.2.isCopied = false ∧ r.1 = t := by
      simp only [r, LogTarget.write, on, small, if_true, Bool.false_eq_true, if_false]
      exact ⟨by split <;> rfl, trivial⟩
    exact ⟨iff_of_true apart (Or.inl (decide_eq_true small)), fun _ => unchanged same⟩
  · have enough := Nat.le_of_not_lt small
    have dropping : L.drops s m call (env L.calls) = true ↔
        t.bankSize < (entryBytes t.current.delim (t.header (env L.calls) m call.filter) s
          (t.footer (env L.calls) m call.filter)).length ∧ t.current.data = [] := by
      simp [drops, fits, found, LogBuf.isEmpty]
    have stores := LogTarget.write_stored_iff (wf.banks _ t found) (wf.delims _ t found)
      (env L.calls) text m call.filter on enough calm
    rw [dropping]
    simp only [small, decide_false, Bool.false_eq_true, false_or]
    by_cases wide : t.bankSize < (entryBytes t.current.delim
        (t.header (env L.calls) m call.filter) s (t.footer (env L.calls) m call.filter)).length
    · rcases LogTarget.write_unstored (wf.banks _ t found) (wf.delims _ t found) (env L.calls) text
        m call.filter on enough calm wide with ⟨data, copied⟩ | ⟨empty, dropped, same⟩
      · have copied : r.2.2.isCopied = true := copied
        exact ⟨iff_of_false (by simp [copied]) fun both => data both.2, by simp [copied]⟩
      · exact ⟨iff_of_true dropped ⟨wide, empty⟩, fun _ => unchanged same⟩
    · have stored : r.2.2.isStored = true := stores.mpr (Nat.le_of_not_lt wide)
      have copied : r.2.2.isCopied = true :=
        copied_of_delivered (e := .write call r.2.2) stored
      exact ⟨iff_of_false (by simp [copied]) fun both => wide both.1, by simp [copied]⟩

theorem callAll_uncopied (wf : L.Wf) {s : List Byte} (text : s ≠ []) (m : LogMeta)
    (enabled : L.Enabled) (calls : List Selected)
    (present : ∀ call ∈ calls, ∃ t, L.target call.target = some t)
    (fed : ∀ e ∈ (callAll (fun L call => writeTo env L s m call) L calls).2, e.starved = false) :
    (∀ e ∈ (callAll (fun L call => writeTo env L s m call) L calls).2, e.copied = false) ↔
      ∀ p ∈ calls.zipIdx L.calls,
        L.requeues s p.1 = true ∨ L.drops s m p.1 (env p.2) = true := by
  induction calls generalizing L with
  | nil => simp [callAll]
  | cons call rest ih =>
    obtain ⟨t, found⟩ := present call List.mem_cons_self
    obtain ⟨fed, fed'⟩ := List.forall_mem_append.mp fed
    have writes := writeTo_writes env wf found s m
    obtain ⟨first, unchanged⟩ := writeTo_uncopied env wf found text m (enabled _ t found) fed
    have others := ih writes.wf (writes.same.enabled enabled) (fun other mem => by
      obtain ⟨u, there⟩ := present other (List.mem_cons_of_mem _ mem)
      obtain ⟨u', there', _⟩ := writes.same.targets _ u there
      exact ⟨u', there'⟩) fed'
    have called : (writeTo env L s m call).1.calls = L.calls + 1 := writes.called
    rw [called, writes.same.requeues] at others
    simp only [callAll, List.forall_mem_append, List.zipIdx_cons, List.forall_mem_cons, others, first]
    refine and_congr_right fun dropped => ?_
    have drops : (writeTo env L s m call).1.drops = L.drops := by
      funext s m call env
      simp only [Logger.drops, Logger.fits, unchanged (first.mpr dropped)]
    rw [drops]

/-! The other commands, which leave the queue alone. -/

/-- A command without a buffer of the pool: the calls it makes are those of an
    overflow message, each emitted when its target is enabled. -/
structure Quiet (L : Logger) (req : InternalCmdReq) (L' : Logger) (events : List Event) : Prop where
  same : Same L L'
  wf : L'.Wf
  named : events.filterMap Event.call? = req.overflow?.toList.flatMap fun l => L.routed l.extraMeta
  emitted : L.Enabled → ∀ e ∈ events, e.call? ≠ none → e.delivered = true

theorem overflowTo_named (wf : L.Wf) {call : Selected} {t : LogTarget}
    (found : L.target call.target = some t) (l : SingleLog) :
    Same L (overflowTo env L l call).1 ∧ (overflowTo env L l call).1.Wf ∧
      (overflowTo env L l call).2.filterMap Event.call? = [call] ∧
      (t.disabled = false → ∀ e ∈ (overflowTo env L l call).2, e.delivered = true) := by
  let flushed := t.flushAll L.owner true false
  let r := flushed.1.writeOverflow flushed.2.1 (env L.calls) l call.filter
  have ran : overflowTo env L l call =
      ({ L.putTarget call.target r.1 r.2.1 with calls := L.calls + 1 },
        [.overflow call flushed.2.2 r.2.2.1]) := by
    simp only [overflowTo, found, flushed, r]
  have handled := (LogTarget.flushAll_handled t L.owner true false).trans
    (LogTarget.writeOverflow_handled flushed.1 flushed.2.1 (env L.calls) l call.filter)
  have put : Same L (L.putTarget call.target r.1 r.2.1) := put_same found handled.setup
  rw [ran]
  refine ⟨put.counted _, (put_wf wf found handled).counted _, rfl, fun on e mem => ?_⟩
  obtain rfl := List.mem_singleton.mp mem
  have still : flushed.1.disabled = false := by
    rw [(LogTarget.flushAll_handled t L.owner true false).setup.config.disabled]
    exact on
  simp [r, Event.delivered, LogTarget.writeOverflow, still]

theorem callAll_overflows (wf : L.Wf) (l : SingleLog) (calls : List Selected)
    (present : ∀ call ∈ calls, ∃ t, L.target call.target = some t) :
    let r := callAll (fun L call => overflowTo env L l call) L calls
    Same L r.1 ∧ r.1.Wf ∧ r.2.filterMap Event.call? = calls ∧
      (L.Enabled → ∀ e ∈ r.2, e.delivered = true) := by
  induction calls generalizing L with
  | nil => exact ⟨.refl L, wf, rfl, fun _ e mem => absurd mem (by simp [callAll])⟩
  | cons call rest ih =>
    obtain ⟨t, found⟩ := present call List.mem_cons_self
    obtain ⟨same, kept, named, emitted⟩ := overflowTo_named env wf found l
    obtain ⟨same', kept', named', emitted'⟩ := ih kept fun other mem => by
      obtain ⟨u, there⟩ := present other (List.mem_cons_of_mem _ mem)
      obtain ⟨u', there', _⟩ := same.targets _ u there
      exact ⟨u', there'⟩
    refine ⟨same.trans same', kept', ?_, fun enabled => ?_⟩
    · simp only [callAll, List.filterMap_append, named, named', List.singleton_append]
    · exact List.forall_mem_append.mpr
        ⟨emitted (enabled _ t found), emitted' (same.enabled enabled)⟩

theorem flushTargets_kept (ids : List TargetId) (wf : L.Wf) :
    Same L (ids.foldl flushTargetSync L) ∧ (ids.foldl flushTargetSync L).Wf := by
  induction ids generalizing L with
  | nil => exact ⟨.refl L, wf⟩
  | cons id rest ih =>
    have first : Same L (L.flushTargetSync id) ∧ (L.flushTargetSync id).Wf := by
      unfold flushTargetSync
      split
      · exact ⟨.refl L, wf⟩
      · rename_i t found
        have handled := LogTarget.flushAllSync_handled t L.owner
        exact ⟨put_same found handled.setup, put_wf wf found handled⟩
    obtain ⟨same, kept⟩ := ih first.2
    exact ⟨first.1.trans same, kept⟩

theorem handleReq_quiet (wf : L.Wf) {req : InternalCmdReq} (other : req.slot? = none) :
    Quiet L req (handleReq env L req).1 (handleReq env L req).2 := by
  cases req with
  | newLog slot => simp [InternalCmdReq.slot?] at other
  | targetRotateBuffer d =>
    simp only [handleReq, handleRotate]
    split
    · exact ⟨.refl L, wf, rfl, fun _ e mem => by simp at mem⟩
    · rename_i t found
      have handled := LogTarget.flushAll_handled t L.owner false false
      refine ⟨put_same found handled.setup, put_wf wf found handled, rfl, fun _ e mem call => ?_⟩
      obtain rfl := List.mem_singleton.mp mem
      exact absurd rfl call
  | writeTargetOverflow d l =>
    obtain ⟨same, kept, named, emitted⟩ := callAll_overflows env wf
      { l with extraMeta := L.sifted l.extraMeta } (L.routed l.extraMeta)
      fun call mem => routed_present mem
    refine ⟨same, kept, ?_, fun enabled e mem _ => emitted enabled e mem⟩
    simpa [InternalCmdReq.overflow?, handleReq, handleOverflow] using named
  | internalShutdown =>
    obtain ⟨same, kept⟩ := flushTargets_kept (0 :: L.targets.keys) wf
    exact ⟨same, kept, rfl, fun _ e mem => by simp [handleReq] at mem⟩

theorem giveBack_kept (same : Same L L') (wf : L'.Wf) (slot : PoolSlot) :
    Same L (L'.giveBack slot) ∧ (L'.giveBack slot).Wf := by
  refine ⟨⟨same.filters, same.opts, same.registered, same.hasDefault, same.targets⟩,
    wf.frame rfl rfl (fun other => ?_) rfl⟩
  by_cases this : other = slot
  · subst this
    simp [giveBack, SingleLog.clear]
  · simp [giveBack, this]

/-! The loop comes to an end: a command adds less than it cost. -/

theorem cost_slotless {req : InternalCmdReq} (other : req.slot? = none) : cost req = 1 := by
  cases req <;> simp_all [InternalCmdReq.slot?, cost]

def pendingCost (L : Logger) : Nat := (L.owner.internalCmdQueue.items.map cost).sum

theorem Same.commands (L : Logger) (o : Owner) : Same L { L with owner := o } :=
  ⟨rfl, rfl, rfl, rfl, fun _ t found => ⟨t, found, .refl t⟩⟩

theorem Wf.commands (wf : L.Wf) {o : Owner} (callbacks : o.v8LogCallbacks = L.owner.v8LogCallbacks) :
    Wf { L with owner := o } :=
  wf.frame rfl callbacks (fun _ => rfl) rfl

theorem removeReq_some {L rest : Logger} {req : InternalCmdReq} (took : L.removeReq = some (req, rest)) :
    L.owner.internalCmdQueue.items = req :: rest.owner.internalCmdQueue.items ∧
      Same L rest ∧ (L.Wf → rest.Wf) ∧ rest.pool = L.pool ∧ rest.calls = L.calls := by
  obtain ⟨⟨first, queue⟩, removed, eq⟩ := Option.map_eq_some_iff.mp took
  obtain ⟨rfl, rfl⟩ := Prod.mk.inj eq
  exact ⟨BoundedQueue.remove_some removed, Same.commands L _, fun wf => wf.commands rfl, rfl, rfl⟩

theorem handleReq_cheaper (wf : L.Wf) (req : InternalCmdReq) :
    Same L (handleReq env L req).1 ∧ (handleReq env L req).1.Wf ∧
      (handleReq env L req).1.pendingCost < L.pendingCost + cost req := by
  cases kind : req.slot? with
  | none =>
    refine ⟨(handleReq_quiet env wf kind).same, (handleReq_quiet env wf kind).wf, ?_⟩
    have commands := (handleReq_pool env L kind).2
    rw [pendingCost, pendingCost, commands, cost_slotless kind]
    omega
  | some slot =>
    obtain rfl : req = .newLog slot := by
      cases req <;> simp_all [InternalCmdReq.slot?]
    have writes := callAll_writes env wf ((L.pool slot).buf.bytes.take (L.pool slot).buf.used)
      (L.sifted (L.pool slot).extraMeta).m (L.routed (L.pool slot).extraMeta)
      fun call mem => routed_present mem
    obtain ⟨added, items, few, slotless, _⟩ := writes.queued
    obtain ⟨same, kept⟩ := giveBack_kept writes.same writes.wf slot
    refine ⟨same, kept, ?_⟩
    have costs : (added.map cost).sum = added.length := by
      rw [List.map_congr_left fun req mem => cost_slotless (slotless req mem), List.map_const',
        List.sum_replicate_nat, Nat.mul_one]
    have bound := routed_length L (L.pool slot).extraMeta
    simp only [pendingCost, handleReq, handleNewLog, giveBack, items, List.map_append,
      List.sum_append, costs, cost]
    omega

theorem handleInternalCmd_empties (wf : L.Wf) :
    (handleInternalCmd env L).1.owner.internalCmdQueue.items = [] ∧
      (Same L (handleInternalCmd env L).1 ∧ (handleInternalCmd env L).1.Wf) ∧
      ∀ more, drain env (L.pendingCost + more) L = handleInternalCmd env L := by
  have lowers : ∀ (M : Logger) (req : InternalCmdReq) (rest : Logger), (Same L M ∧ M.Wf) →
      M.removeReq = some (req, rest) →
      (Same L (handleReq env rest req).1 ∧ (handleReq env rest req).1.Wf) ∧
        (handleReq env rest req).1.pendingCost < M.pendingCost := by
    intro M req rest inv took
    obtain ⟨items, same, kept, _, _⟩ := removeReq_some took
    obtain ⟨same', handled, cheaper⟩ := handleReq_cheaper env (kept inv.2) req
    refine ⟨⟨(inv.1.trans same).trans same', handled⟩, ?_⟩
    have all : M.pendingCost = cost req + rest.pendingCost := by
      simp [pendingCost, items]
    omega
  obtain ⟨none, kept, stable⟩ :=
    Worklist.drain_empties lowers ⟨.refl L, wf⟩ (Nat.le_refl L.pendingCost)
  refine ⟨?_, kept, stable⟩
  have removed := Option.map_eq_none_iff.mp none
  exact (BoundedQueue.remove_none_iff _).mp removed

theorem quiet_flatten {reqs : List InternalCmdReq} {lists : List (List Event)}
    {named : InternalCmdReq → List Selected} {fine : Event → Prop}
    (each : List.Forall₂ (fun req events => events.filterMap Event.call? = named req ∧
      ∀ e ∈ events, fine e) reqs lists) :
    lists.flatten.filterMap Event.call? = reqs.flatMap named ∧ ∀ e ∈ lists.flatten, fine e := by
  induction each with
  | nil => exact ⟨rfl, fun e mem => by simp at mem⟩
  | cons first _ ih =>
    refine ⟨?_, ?_⟩
    · rw [List.flatten_cons, List.filterMap_append, List.flatMap_cons, first.1, ih.1]
    · rw [List.flatten_cons]
      exact List.forall_mem_append.mpr ⟨first.2, ih.2⟩

theorem drain_rest (wf : L.Wf)
    (slotless : ∀ req ∈ L.owner.internalCmdQueue.items, req.slot? = none) {fuel : Nat}
    (enough : L.owner.internalCmdQueue.items.length ≤ fuel) :
    (drain env fuel L).2.filterMap Event.call? =
        (L.owner.internalCmdQueue.items.filterMap InternalCmdReq.overflow?).flatMap
          (fun l => L.routed l.extraMeta) ∧
      ∀ e ∈ (drain env fuel L).2, L.Enabled → e.call? ≠ none → e.delivered = true := by
  let named := fun req : InternalCmdReq => req.overflow?.toList.flatMap fun l => L.routed l.extraMeta
  have handles : ∀ (M : Logger) (req : InternalCmdReq) (more : List InternalCmdReq),
      (Same L M ∧ M.Wf) → M.owner.internalCmdQueue.items = req :: more → req.slot? = none →
      ∃ rest, M.removeReq = some (req, rest) ∧
        (Same L (handleReq env rest req).1 ∧ (handleReq env rest req).1.Wf) ∧
        (handleReq env rest req).1.owner.internalCmdQueue.items = more ∧
        ((handleReq env rest req).2.filterMap Event.call? = named req ∧
          ∀ e ∈ (handleReq env rest req).2, L.Enabled → e.call? ≠ none → e.delivered = true) := by
    intro M req more inv items other
    obtain ⟨queue, removed, left⟩ := BoundedQueue.remove_cons items
    have took : M.removeReq =
        some (req, { M with owner := { M.owner with internalCmdQueue := queue } }) := by
      simp [removeReq, removed]
    obtain ⟨_, same, kept, _, _⟩ := removeReq_some took
    have before := inv.1.trans same
    have quiet := handleReq_quiet env (kept inv.2) other
    refine ⟨_, took, ⟨before.trans quiet.same, quiet.wf⟩, ?_, ?_, fun e mem enabled =>
      quiet.emitted (before.enabled enabled) e mem⟩
    · rw [(handleReq_pool env _ other).2, left]
    · rw [quiet.named]
      exact congrArg (req.overflow?.toList.flatMap ·) (funext fun l => before.routed l.extraMeta)
  have empty : ∀ M : Logger, M.owner.internalCmdQueue.items = [] → M.removeReq = none :=
    fun M items => Option.map_eq_none_iff.mpr ((BoundedQueue.remove_none_iff _).mpr items)
  obtain ⟨_, _, lists, flat, each⟩ := Worklist.drain_quiet (fun M => Same L M ∧ M.Wf)
    (fun M => M.owner.internalCmdQueue.items) (fun req events =>
      events.filterMap Event.call? = named req ∧
        ∀ e ∈ events, L.Enabled → e.call? ≠ none → e.delivered = true)
    empty handles ⟨.refl L, wf⟩ slotless enough
  obtain ⟨calls, emitted⟩ := quiet_flatten each
  have drained : (drain env fuel L).2 = lists.flatten := flat
  rw [drained]
  refine ⟨?_, emitted⟩
  rw [calls]
  simp only [named]
  generalize L.owner.internalCmdQueue.items = reqs
  induction reqs with
  | nil => rfl
  | cons req rest ih => cases kind : req.overflow? <;> simp [kind, ih]

end Logger

end GreaseLog
