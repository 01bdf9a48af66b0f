import GreaseLog.LoggerRuns
import GreaseLog.RoutingSpec

/- One message from _log through the drain loop: the calls that are made for it,
   and which of them deliver the entry. A message that write() re-queues for one
   target is emitted to all of them. -/
namespace GreaseLog

def tally (kind : Event → Bool) (call : Selected) (events : List Event) : Nat :=
  events.countP fun e => e.call? == some call && kind e

def deliveries : Selected → List Event → Nat := tally Event.delivered

def copies : Selected → List Event → Nat := tally Event.copied

variable {kind : Event → Bool}

theorem tally_append (kind : Event → Bool) (call : Selected) (first second : List Event) :
    tally kind call (first ++ second) = tally kind call first + tally kind call second :=
  List.countP_append

theorem tally_le (kind : Event → Bool) (call : Selected) (events : List Event) :
    tally kind call events ≤ (events.filterMap Event.call?).count call := by
  induction events with
  | nil => exact Nat.le_refl _
  | cons e rest ih =>
    simp only [tally, List.countP_cons, List.filterMap_cons] at ih ⊢
    cases named : e.call? with
    | none => simpa using ih
    | some other =>
      simp only [List.count_cons, Option.some_beq_some]
      by_cases same : other = call
      · simp only [same, beq_self_eq_true, Bool.true_and, if_true]
        split <;> omega
      · simpa [same] using ih

theorem tally_all {events : List Event} (all : ∀ e ∈ events, e.call? ≠ none → kind e = true)
    (call : Selected) : tally kind call events = (events.filterMap Event.call?).count call := by
  induction events with
  | nil => rfl
  | cons e rest ih =>
    have others := ih fun e' mem => all e' (List.mem_cons_of_mem _ mem)
    simp only [tally, List.countP_cons, List.filterMap_cons] at others ⊢
    cases named : e.call? with
    | none => simpa using others
    | some other =>
      have this := all e List.mem_cons_self (by simp [named])
      simp [List.count_cons, others, this]

theorem tally_zero {events : List Event} {call : Selected} :
    tally kind call events = 0 ↔ ∀ e ∈ events, e.call? = some call → kind e = false := by
  simp [tally, List.countP_eq_zero]

theorem deliveries_le_copies (call : Selected) (events : List Event) :
    deliveries call events ≤ copies call events := by
  apply List.countP_mono_left
  intro e _ both
  simp only [Bool.and_eq_true] at both ⊢
  exact ⟨both.1, Logger.copied_of_delivered both.2⟩

theorem named_filterMap {events : List Event} {calls : List Selected}
    (named : events.map Event.call? = calls.map some) : events.filterMap Event.call? = calls := by
  have joined : events.filterMap Event.call? = (events.map Event.call?).filterMap id := by
    rw [List.filterMap_map]
    rfl
  rw [joined, named, List.filterMap_map]
  exact List.filterMap_some

/-- Each of some distinct calls has one event of the kind exactly if every event is
    of it. -/
theorem tally_once_iff {events : List Event} {calls : List Selected}
    (named : events.map Event.call? = calls.map some) (distinct : calls.Nodup) :
    (∀ call ∈ calls, tally kind call events = 1) ↔ ∀ e ∈ events, kind e = true := by
  constructor
  · intro once e mem
    have mapped := List.mem_map_of_mem (f := Event.call?) mem
    rw [named] at mapped
    obtain ⟨call, listed, name⟩ := List.mem_map.mp mapped
    have some : 0 < tally kind call events := by
      rw [once call listed]
      exact Nat.one_pos
    obtain ⟨e', mem', this⟩ := List.countP_pos_iff.mp some
    simp only [Bool.and_eq_true, beq_iff_eq] at this
    have unique : (events.map Event.call?).Nodup := by
      rw [named]
      exact distinct.map (Option.some_injective _)
    obtain rfl := List.inj_on_of_nodup_map unique mem' mem (this.1.trans name)
    exact this.2
  · intro all call mem
    rw [tally_all fun e mem _ => all e mem, named_filterMap named]
    exact List.count_eq_one_of_mem distinct mem

theorem tally_none_iff {events : List Event} {calls : List Selected}
    (named : events.map Event.call? = calls.map some) :
    (∀ call ∈ calls, tally kind call events = 0) ↔ ∀ e ∈ events, kind e = false := by
  constructor
  · intro never e mem
    have mapped := List.mem_map_of_mem (f := Event.call?) mem
    rw [named] at mapped
    obtain ⟨call, listed, name⟩ := List.mem_map.mp mapped
    exact tally_zero.mp (never call listed) e mem name.symm
  · intro none call _
    exact tally_zero.mpr fun e mem _ => none e mem

/-! The calls made for a message are distinct. -/

theorem visit_bound {n : Nat} {slots : List Filter} {v : Nat × Filter} (mem : v ∈ visit n slots) :
    n ≤ v.1 := by
  induction slots generalizing n with
  | nil => simp [visit] at mem
  | cons f rest ih =>
    unfold visit at mem
    split at mem
    · simp at mem
    · rcases List.mem_cons.mp mem with rfl | later
      · exact Nat.le_refl _
      · exact Nat.le_of_succ_le (ih later)

theorem visit_increasing (n : Nat) (slots : List Filter) :
    (visit n slots).Pairwise fun v w => v.1 < w.1 := by
  induction slots generalizing n with
  | nil => exact .nil
  | cons f rest ih =>
    unfold visit
    split
    · exact .nil
    · exact .cons (fun w later => visit_bound later) (ih _)

theorem routeFilter_slot {registered : TargetId → Bool} {hasDefault : Bool} {x : ExtraLogMeta}
    {p : ListPtr} {n : Nat} {f : Filter} {call : Selected}
    (mem : call ∈ (routeFilter registered hasDefault x p n f).1) : call.slot = some (p, n) := by
  unfold routeFilter at mem
  split at mem
  · split at mem
    · split at mem
      · rw [List.mem_singleton.mp mem]
      · simp at mem
    · split at mem
      · rw [List.mem_singleton.mp mem]
      · simp at mem
  · simp at mem

theorem routeList_distinct (T : FilterTable) (registered : TargetId → Bool) (hasDefault : Bool)
    (x : ExtraLogMeta) (p : ListPtr) :
    (routeList T registered hasDefault x p).1.Nodup ∧
      ∀ call ∈ (routeList T registered hasDefault x p).1, call.slot ≠ none := by
  unfold routeList
  split
  · simp only [List.flatMap_map]
    constructor
    · refine List.nodup_flatMap.mpr ⟨fun v _ => ?_, ?_⟩
      · have one := Logger.routeFilter_length registered hasDefault x p v.1 v.2
        match calls : (routeFilter registered hasDefault x p v.1 v.2).1 with
        | [] => exact .nil
        | [call] => exact List.nodup_singleton call
        | _ :: _ :: _ => simp [calls] at one
      · refine (visit_increasing 0 _).imp fun {v w} below call left right => ?_
        have slots := (routeFilter_slot left).symm.trans (routeFilter_slot right)
        have same := congrArg Prod.snd (Option.some.inj slots)
        simp only at same
        omega
    · intro call mem
      obtain ⟨v, _, made⟩ := List.mem_flatMap.mp mem
      simp [routeFilter_slot made]
  · exact ⟨.nil, fun call mem => by simp at mem⟩

namespace Logger
variable {L : Logger} {x : ExtraLogMeta} {s : List Byte}

theorem sifted_again (logged : (sift L.filters L.opts x.m).1 = true) :
    (L.sifted (L.sifted x)).m = (L.sifted x).m ∧
      L.routed (L.sifted x) =
        route L.filters L.registered L.defaultTarget.isSome (L.sifted x) := by
  have again := sift_again L.filters L.opts x.m logged
  constructor
  · simp [Logger.sifted, again]
  · simp [Logger.routed, Logger.sifted, again]

/-- A message from inside the process has one list at most, so that its calls
    differ in the slot of their filter. -/
theorem routed_distinct (fresh : x.m.Fresh) (logged : (sift L.filters L.opts x.m).1 = true) :
    (L.routed (L.sifted x)).Nodup := by
  have passes : L.opts.levelFilterOutMask &&& x.m.level = 0 := by
    by_contra masked
    simp [sift_masked L.filters L.opts x.m masked] at logged
  obtain ⟨n, p, only⟩ : ∃ n p, (L.sifted x).m.cachedLists = Function.update (fun _ => 0) n p := by
    have found := sift_fresh L.filters L.opts fresh passes
    cases chosen : L.filters.chosen x.m.tag x.m.origin with
    | some c =>
      simp only [chosen] at found
      exact ⟨c.1, c.2, found.2⟩
    | none =>
      simp only [chosen] at found
      exact ⟨0, 0, (funext found.2).trans (Function.update_eq_self 0 _).symm⟩
  rw [(sifted_again logged).2, route_one_list _ only]
  obtain ⟨distinct, slots⟩ := routeList_distinct L.filters L.registered L.defaultTarget.isSome
    (L.sifted x) p
  refine List.nodup_append.mpr ⟨distinct, by split <;> simp, fun call mem other last => ?_⟩
  split at last
  · rw [List.mem_singleton.mp last]
    rintro rfl
    exact slots _ mem rfl
  · simp at last

/-! What _log puts into the queue. -/

theorem setMeta_extraMeta (l : SingleLog) (x : ExtraLogMeta) :
    (l.setMeta x).extraMeta.m = x.m ∧
      (x.m.hasIgnores = true → (l.setMeta x).extraMeta.ignoreList = x.ignoreList) := by
  unfold SingleLog.setMeta
  split <;> simp_all

theorem setMeta_inputs (L : Logger) (l : SingleLog) (x : ExtraLogMeta) :
    L.routed (l.setMeta x).extraMeta = L.routed x ∧
      (L.sifted (l.setMeta x).extraMeta).m = (L.sifted x).m := by
  obtain ⟨metas, lists⟩ := setMeta_extraMeta l x
  obtain ⟨-, -, -, -, extras⟩ := sift_keeps L.filters L.opts x.m
  constructor
  · simp only [Logger.routed, metas]
    split
    · refine route_congr rfl fun ignores => lists ?_
      simpa [LogMeta.hasIgnores, extras] using ignores
    · rfl
  · simp [Logger.sifted, metas]

theorem fillBuffer_text (l : SingleLog) (x : ExtraLogMeta) (room : s.length ≤ l.buf.bytes.length) :
    (fillBuffer l x s).buf.bytes.take (fillBuffer l x s).buf.used = s :=
  HeapBuf.memcpy_text l.buf room

variable (env : Nat → WriteEnv)

theorem large_events (wf : L.Wf) (large : L.opts.bufferSize < s.length)
    (queued : (L._log x s).2 = .queued) (idle : L.owner.internalCmdQueue.items = []) :
    let events := (handleInternalCmd env (L._log x s).1).2
    events.filterMap Event.call? = L.routed x ∧
      ∀ e ∈ events, L.Enabled → e.call? ≠ none → e.delivered = true := by
  obtain ⟨same, kept⟩ := log_kept wf x s
  obtain ⟨req, items, _, ⟨_, rfl⟩ | ⟨small, _⟩⟩ := log_queued queued
  · rw [idle, List.nil_append] at items
    have enough : (L._log x s).1.owner.internalCmdQueue.items.length ≤
        ((L._log x s).1.owner.internalCmdQueue.items.map cost).sum := by
      rw [items]
      simp [cost]
    obtain ⟨calls, emitted⟩ := drain_rest env kept
      (by rw [items]; simp [InternalCmdReq.slot?]) enough
    refine ⟨?_, fun e mem enabled => emitted e mem (same.enabled enabled)⟩
    have named : (handleInternalCmd env (L._log x s).1).2.filterMap Event.call? = _ := calls
    rw [items] at named
    simp only [List.filterMap_cons, InternalCmdReq.overflow?, List.filterMap_nil,
      List.flatMap_cons, List.flatMap_nil, List.append_nil, same.routed] at named
    exact named.trans (setMeta_inputs L { SingleLog.alloc (min s.length MAX_LOG_MESSAGE_SIZE) with
      buf := (SingleLog.alloc (min s.length MAX_LOG_MESSAGE_SIZE)).buf.memcpyAppend s
        overflowEnding } x).1
  · omega

theorem log_target (L : Logger) (x : ExtraLogMeta) (s : List Byte) :
    (L._log x s).1.target = L.target := by
  rcases log_cases L x s with ⟨_, h⟩ | ⟨_, slot, avail, _, h⟩ | ⟨_, _, h⟩ <;> rw [h] <;> rfl

/-- The events of a message that fits a pool buffer: its writes, and then all its
    calls once more for each write that was re-queued. -/
structure ShortEvents (s : List Byte) (x : ExtraLogMeta) (L : Logger) (writes rest : List Event) :
    Prop where
  written : writes.map Event.call? = (L.routed x).map some
  again : rest.filterMap Event.call? =
    (List.replicate ((L.routed x).countP (L.requeues s))
      (L.routed ⟨(L.sifted x).m, SingleLog.noIgnores⟩)).flatten
  emitted : ∀ e ∈ rest, L.Enabled → e.call? ≠ none → e.delivered = true
  stored : (∀ e ∈ writes, e.starved = false) → s ≠ [] → L.Enabled →
    writes.map Event.delivered = ((L.routed x).zipIdx L.calls).map fun p =>
      !L.requeues s p.1 && L.fits s (L.sifted x).m p.1 (env p.2)
  uncopied : (∀ e ∈ writes, e.starved = false) → s ≠ [] → L.Enabled →
    ((∀ e ∈ writes, e.copied = false) ↔ ∀ p ∈ (L.routed x).zipIdx L.calls,
      L.requeues s p.1 = true ∨ L.drops s (L.sifted x).m p.1 (env p.2) = true)

theorem short_events (wf : L.Wf) (small : s.length ≤ L.opts.bufferSize)
    (queued : (L._log x s).2 = .queued) (idle : L.owner.internalCmdQueue.items = []) :
    ∃ writes rest, (handleInternalCmd env (L._log x s).1).2 = writes ++ rest ∧
      ShortEvents env s x L writes rest := by
  obtain ⟨same, kept⟩ := log_kept wf x s
  obtain ⟨req, items, called, ⟨large, _⟩ | ⟨_, slot, rfl, filled⟩⟩ := log_queued queued
  · omega
  · rw [idle, List.nil_append] at items
    obtain ⟨queue, removed, left⟩ := BoundedQueue.remove_cons items
    let M : Logger := { (L._log x s).1 with
      owner := { (L._log x s).1.owner with internalCmdQueue := queue } }
    have took : (L._log x s).1.removeReq = some (.newLog slot, M) := by
      simp [removeReq, removed, M]
    obtain ⟨_, same', kept', pool, called'⟩ := removeReq_some took
    have before : Same L M := same.trans same'
    have text : (M.pool slot).buf.bytes.take (M.pool slot).buf.used = s := by
      rw [pool, filled]
      exact fillBuffer_text _ x (by rw [wf.pool slot]; exact small)
    obtain ⟨calls, metas⟩ : M.routed (M.pool slot).extraMeta = L.routed x ∧
        (M.sifted (M.pool slot).extraMeta).m = (L.sifted x).m := by
      rw [before.routed, before.sifted, pool, filled]
      exact setMeta_inputs L _ x
    have present : ∀ call ∈ L.routed x, ∃ t, M.target call.target = some t := fun call mem =>
      routed_present (calls ▸ mem : call ∈ M.routed (M.pool slot).extraMeta)
    have writes := callAll_writes env (kept' kept) s (L.sifted x).m (L.routed x) present
    let done := callAll (fun L' call => writeTo env L' s (L.sifted x).m call) M (L.routed x)
    have handled : handleReq env M (.newLog slot) = (done.1.giveBack slot, done.2) := by
      simp only [handleReq, handleNewLog, text, calls, metas, done]
    obtain ⟨backSame, backWf⟩ := giveBack_kept writes.same writes.wf slot
    obtain ⟨added, queued', few, slotless, overflow⟩ := writes.queued
    have left' : (done.1.giveBack slot).owner.internalCmdQueue.items = added := by
      rw [← List.nil_append added, ← left]
      exact queued'
    have after : Same L (done.1.giveBack slot) := before.trans backSame
    have enough : (done.1.giveBack slot).owner.internalCmdQueue.items.length ≤ MAX_CALLS := by
      rw [left']
      exact few.trans (routed_length L x)
    obtain ⟨named, emitted⟩ := drain_rest env backWf (by rwa [left']) enough
    refine ⟨done.2, (drain env MAX_CALLS (done.1.giveBack slot)).2, ?_, writes.named, ?_,
      fun e mem enabled => emitted e mem (after.enabled enabled), fun fed some enabled => ?_,
      fun fed some enabled => ?_⟩
    · have fuel : ((L._log x s).1.owner.internalCmdQueue.items.map cost).sum = MAX_CALLS + 1 := by
        rw [items]
        simp [cost, Nat.add_comm]
      simp only [handleInternalCmd, fuel]
      have step : drain env (MAX_CALLS + 1) (L._log x s).1 =
          ((drain env MAX_CALLS (handleReq env M (.newLog slot)).1).1,
            (handleReq env M (.newLog slot)).2 ++
              (drain env MAX_CALLS (handleReq env M (.newLog slot)).1).2) :=
        Worklist.drain_some took MAX_CALLS
      rw [step, handled]
    · have length : M.owner.internalCmdQueue.items = [] := left
      have bound : MAX_CALLS ≤ INTERNAL_QUEUE_SIZE := by decide
      have room : M.owner.internalCmdQueue.items.length + (L.routed x).length ≤
          INTERNAL_QUEUE_SIZE := by
        rw [length, List.length_nil, Nat.zero_add]
        exact (routed_length L x).trans bound
      rw [named, left', overflow room, before.requeues, List.flatMap_replicate,
        (before.trans backSame).routed]
      rfl
    · have stored := writes.stored fed some (before.enabled enabled)
      rw [before.requeues, before.fits wf] at stored
      rw [← called]
      exact stored
    · have uncopied := callAll_uncopied env (kept' kept) some (L.sifted x).m (before.enabled enabled)
        (L.routed x) present fed
      have targets : M.target = L.target := log_target L x s
      have drops : M.drops = L.drops := by
        funext s m call env
        simp only [Logger.drops, Logger.fits, targets]
      rw [before.requeues, drops] at uncopied
      rw [← called]
      exact uncopied

/-- The messages that every selected pair gets once: those longer than a pool
    buffer, those that no pair re-queues and that fit each bank, and those that one
    pair re-queues and that write() drops for every other, where there is one. -/
def DeliveredOnce (L : Logger) (x : ExtraLogMeta) (s : List Byte) : Prop :=
  let calls := L.routed x
  let requeued := calls.countP (L.requeues s)
  L.opts.bufferSize < s.length ∨
    (requeued = 0 ∧ ∀ p ∈ calls.zipIdx L.calls, L.fits s x.m p.1 (env p.2) = true) ∨
    (requeued = 1 ∧ ∀ p ∈ calls.zipIdx L.calls,
      L.requeues s p.1 = true ∨ L.drops s x.m p.1 (env p.2) = true)

theorem forall_map_congr {α β γ : Type} {f : α → γ} {g : β → γ} {as : List α} {bs : List β}
    (same : as.map f = bs.map g) (c : γ) : (∀ a ∈ as, f a = c) ↔ ∀ b ∈ bs, g b = c := by
  have left := List.forall_mem_map (f := f) (l := as) (P := (· = c))
  have right := List.forall_mem_map (f := g) (l := bs) (P := (· = c))
  rw [← left, same, right]

theorem requeued_none {calls : List Selected} {again : Selected → Bool}
    (none : calls.countP again = 0) {n : Nat} {p : Selected × Nat} (mem : p ∈ calls.zipIdx n) :
    again p.1 = false :=
  Bool.eq_false_iff.mpr (List.countP_eq_zero.mp none p.1 (List.fst_mem_of_mem_zipIdx mem))

/-- The copies of a short message: those that its writes make, and one for each
    write that was re-queued. -/
theorem short_tally {writes rest : List Event} {x : ExtraLogMeta}
    (short : ShortEvents env s x L writes rest) (stable : (L.sifted x).m = x.m)
    (plain : x.m.hasIgnores = false) (enabled : L.Enabled)
    (emits : ∀ e : Event, e.delivered = true → kind e = true) (call : Selected) :
    tally kind call (writes ++ rest) = tally kind call writes +
      (L.routed x).countP (L.requeues s) * (L.routed x).count call := by
  have same : L.routed ⟨(L.sifted x).m, SingleLog.noIgnores⟩ = L.routed x := by
    simp only [stable, Logger.routed]
    split
    · refine route_congr rfl fun ignores => ?_
      obtain ⟨-, -, -, -, extras⟩ := sift_keeps L.filters L.opts x.m
      simp only [LogMeta.hasIgnores, extras] at ignores plain
      simp [plain] at ignores
    · rfl
  rw [tally_append, tally_all fun e mem named => emits e (short.emitted e mem enabled named),
    short.again, same, List.count_flatten, List.map_replicate, List.sum_replicate_nat]

/-- Each selected pair got one copy, a whole one, and no other pair any. -/
def GotOnce (L : Logger) (x : ExtraLogMeta) (events : List Event) : Prop :=
  ∀ call, copies call events = (if call ∈ L.routed x then 1 else 0) ∧
    deliveries call events = copies call events

/-- With room in the queues and free buffers throughout, a message without an ignore
    list reaches every selected pair exactly once, and no other pair, exactly if
    it is one of the messages above. -/
theorem exactly_once_iff (reachable : L.Reachable) (enabled : L.Enabled) (idle : L.owner.internalCmdQueue.items = [])
    (fresh : x.m.Fresh) (plain : x.m.extras = 0) (logged : (sift L.filters L.opts x.m).1 = true)
    (text : s ≠ []) (queued : (L._log (L.sifted x) s).2 = .queued)
    (fed : ∀ e ∈ (handleInternalCmd env (L._log (L.sifted x) s).1).2, e.starved = false) :
    L.GotOnce (L.sifted x) (handleInternalCmd env (L._log (L.sifted x) s).1).2 ↔
      L.DeliveredOnce env (L.sifted x) s := by
  have wf := reachable_wf reachable
  have distinct := routed_distinct fresh logged
  have stable := (sifted_again logged).1
  have noIgnores : (L.sifted x).m.hasIgnores = false := by
    obtain ⟨-, -, -, -, extras⟩ := sift_keeps L.filters L.opts x.m
    simp [Logger.sifted, LogMeta.hasIgnores, extras, plain]
  rcases Nat.lt_or_ge L.opts.bufferSize s.length with large | small
  · obtain ⟨named, emitted⟩ := large_events env wf large queued idle
    have whole := tally_all fun e mem named => emitted e mem enabled named
    have copied := tally_all fun e mem named => copied_of_delivered (emitted e mem enabled named)
    refine iff_of_true (fun call => ?_) (Or.inl large)
    rw [copies, deliveries, whole, copied, named, distinct.count]
    exact ⟨rfl, rfl⟩
  · obtain ⟨writes, rest, events, short⟩ := short_events env wf small queued idle
    have fed' : ∀ e ∈ writes, e.starved = false := fun e mem =>
      fed e (by rw [events]; exact List.mem_append_left _ mem)
    have flags := short.stored fed' text enabled
    have uncopied := short.uncopied fed' text enabled
    rw [stable] at flags uncopied
    have pairs : L.GotOnce (L.sifted x) (writes ++ rest) ↔
        ∀ call ∈ L.routed (L.sifted x),
          copies call writes + (L.routed (L.sifted x)).countP (L.requeues s) = 1 ∧
            deliveries call writes = copies call writes := by
      refine forall_congr' fun call => ?_
      have few : copies call writes ≤ _ := tally_le Event.copied call writes
      have fewer := deliveries_le_copies call writes
      rw [named_filterMap short.written] at few
      have copied : copies call (writes ++ rest) = _ :=
        short_tally env short stable noIgnores enabled (fun _ => copied_of_delivered) call
      have whole : deliveries call (writes ++ rest) = _ :=
        short_tally env short stable noIgnores enabled (fun _ => id) call
      rw [copied, whole]
      by_cases mem : call ∈ L.routed (L.sifted x)
      · simp only [mem, distinct.count, if_true, true_implies, Nat.mul_one, copies, deliveries]
        omega
      · have absent := List.count_eq_zero_of_not_mem mem
        simp only [absent, mem, if_false, false_implies, iff_true, Nat.mul_zero]
        simp only [copies, deliveries] at few fewer ⊢
        omega
    rw [events, pairs]
    unfold DeliveredOnce
    rcases requeued : (L.routed (L.sifted x)).countP (L.requeues s) with _ | _ | n
    · have once : (∀ call ∈ L.routed (L.sifted x), copies call writes + 0 = 1 ∧
          deliveries call writes = copies call writes) ↔
          ∀ call ∈ L.routed (L.sifted x), deliveries call writes = 1 := by
        refine forall₂_congr fun call mem => ?_
        have few : copies call writes ≤ _ := tally_le Event.copied call writes
        have fewer := deliveries_le_copies call writes
        rw [named_filterMap short.written, distinct.count, if_pos mem] at few
        omega
      rw [once, deliveries, tally_once_iff short.written distinct, forall_map_congr flags]
      simp only [Bool.and_eq_true, Bool.not_eq_true']
      constructor
      · exact fun all => Or.inr (Or.inl ⟨requeued, fun p mem => (all p mem).2⟩)
      · rintro (large | ⟨_, all⟩ | ⟨one, _⟩)
        · omega
        · exact fun p mem => ⟨requeued_none requeued mem, all p mem⟩
        · omega
    · have never : (∀ call ∈ L.routed (L.sifted x), copies call writes + (0 + 1) = 1 ∧
          deliveries call writes = copies call writes) ↔
          ∀ call ∈ L.routed (L.sifted x), copies call writes = 0 := by
        refine forall₂_congr fun call mem => ?_
        have fewer := deliveries_le_copies call writes
        omega
      rw [never, copies, tally_none_iff short.written, uncopied]
      constructor
      · exact fun all => Or.inr (Or.inr ⟨requeued, all⟩)
      · rintro (large | ⟨zero, _⟩ | ⟨_, all⟩)
        · omega
        · omega
        · exact all
    · obtain ⟨call, mem, _⟩ := List.countP_pos_iff.mp (by omega :
        0 < (L.routed (L.sifted x)).countP (L.requeues s))
      refine iff_of_false (fun all => ?_) ?_
      · have two := (all call mem).1
        omega
      · rintro (large | ⟨zero, _⟩ | ⟨one, _⟩)
        · omega
        · omega
        · omega

/-- Messages with tag 5 go to target 7, which has banks of 200 bytes, and to the
    default target. -/
def twoTargets : Logger :=
  let L := { Logger.new {} (fun _ => .new) fun _ => [] with filters := taggedTable }
  let L := L.putTarget 0 (.new .tty 2000 0 [10]) L.owner
  L.putTarget 7 (.new .tty 200 7 [10]) L.owner

def taggedLine : ExtraLogMeta := ⟨{ noMetaData with tag := 5, level := 1 }, SingleLog.noIgnores⟩

def lineOf (length : Nat) : List Byte := List.replicate length 97

def lineEvents (length : Nat) : List Event :=
  (handleInternalCmd plainEnvs (twoTargets._log (twoTargets.sifted taggedLine) (lineOf length)).1).2

theorem twoTargets_reachable : twoTargets.Reachable := by
  have first : FilterCall.Allowed (.init fun _ => .new)
      (.addFilter 1 { tag := some 5, target := some 7 }) :=
    fresh_of_entries (by decide) (by decide)
  have second : FilterCall.Allowed ((FilterTable.init fun _ => .new).call
      (.addFilter 1 { tag := some 5, target := some 7 })) (.addFilter 2 { tag := some 5, mask := .uint32 1 }) :=
    fresh_of_entries (by decide) (by decide)
  have filtered := ((Reachable.new {} (fun _ => .new) fun _ => []).filterCall first).filterCall second
  exact (filtered.addTarget .tty 2000 [10] {} false rfl).addTarget .tty 200 [10] {} false rfl

theorem twoTargets_enabled : twoTargets.Enabled := by
  intro id t found
  by_cases seven : id = 7
  · subst seven
    obtain rfl := Option.some.inj (found.symm.trans putTarget_same)
    rfl
  · have before := (putTarget_other seven).symm.trans found
    by_cases default : id = 0
    · subst default
      obtain rfl := Option.some.inj (before.symm.trans putTarget_same)
      rfl
    · have none := (putTarget_other default).symm.trans before
      simp [target, Logger.new, default] at none

theorem exactly_once_iff_line :
    twoTargets.GotOnce (twoTargets.sifted taggedLine) (lineEvents 50) ∧
    (twoTargets.routed (twoTargets.sifted taggedLine)).map Selected.target = [7, 0] :=
  ⟨(exactly_once_iff plainEnvs twoTargets_reachable twoTargets_enabled rfl (by decide) rfl (by decide)
      (by decide) (by decide +kernel) (by decide +kernel)).mpr
    (Or.inr (Or.inl ⟨by decide +kernel, by decide +kernel⟩)), by decide⟩

/-- A line of 100 bytes is too long for target 7 alone. -/
theorem requeued_line_sent_twice :
    twoTargets.Reachable ∧ twoTargets.Enabled ∧ twoTargets.owner.internalCmdQueue.items = [] ∧
      twoTargets.filters.Roomy ∧
      taggedLine.m.Fresh ∧ taggedLine.m.extras = 0 ∧
      (sift twoTargets.filters twoTargets.opts taggedLine.m).1 = true ∧
      (twoTargets._log (twoTargets.sifted taggedLine) (lineOf 100)).2 = .queued ∧
      (∀ e ∈ lineEvents 100, e.starved = false) ∧
      (twoTargets.routed (twoTargets.sifted taggedLine)).map
        (fun call => (call.target, deliveries call (lineEvents 100))) = [(7, 1), (0, 2)] :=
  ⟨twoTargets_reachable, twoTargets_enabled, rfl, by decide, by decide, rfl,
    by decide, by decide +kernel, by decide +kernel, by decide +kernel⟩

end Logger

end GreaseLog
