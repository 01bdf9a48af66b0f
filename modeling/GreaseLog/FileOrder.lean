import GreaseLog.FileRuns

/- The entries of a file in the order of their messages. What the file holds and what
   the target has yet to write are, together, the entries of the first messages:
   write() appends to them, writes that take effect move them, and a writev in turn
   finds nothing left to write. -/
namespace GreaseLog
namespace FileState

section
variable (env : Nat → WriteEnv) (id : TargetId) (L₀ : Logger) (t₀ : LogTarget)

structure Tracks (s : FileState) (t : LogTarget) (sent : List Message) : Prop where
  wf : s.L.Wf
  same : Logger.Same L₀ s.L
  slots : s.L.SlotsApart
  noShutdown : .internalShutdown ∉ s.L.owner.internalCmdQueue.items
  found : s.L.target id = some t
  setup : t₀.SameSetup t
  landed : s.landed ≤ t.inflight.length
  flushed : s.writing ≠ none → t.unwritten t.inflight.length = []
  routes : ∀ message ∈ sent, (L₀.routed message.1).map Selected.target = [id]
  account : Accounted env L₀ t₀ s.L.pool sent s.writing s.L.owner.internalCmdQueue.items
    (s.file ++ t.unwritten s.landed)

end

structure FileOn (t₀ : LogTarget) : Prop where
  kind : t₀.kind = .file
  enabled : t₀.disabled = false
  delims : ∀ b, (t₀.buffers b).delim = t₀.current.delim

variable {env : Nat → WriteEnv} {id : TargetId} {L₀ : Logger} {t₀ t t' : LogTarget} {o' : Owner}
  {s : FileState} {sent : List Message}

theorem FileOn.asynchronous (on : FileOn t₀) (setup : t₀.SameSetup t) : t.kind ≠ .callback := by
  rw [setup.config.kind, on.kind]
  decide

theorem tracks_target (tracks : Tracks env id L₀ t₀ s t sent) (wf : (s.L.putTarget id t' o').Wf)
    (setup : t.SameSetup t') (commands : o'.internalCmdQueue = s.L.owner.internalCmdQueue)
    {landed : Nat} (submitted : landed ≤ t'.inflight.length)
    (flushed : s.writing ≠ none → t'.unwritten t'.inflight.length = [])
    (bytes : t'.unwritten landed = t.unwritten s.landed) :
    Tracks env id L₀ t₀ { s with L := s.L.putTarget id t' o', landed := landed } t' sent := by
  obtain ⟨_, _, pool, _⟩ := Logger.putTarget_fields s.L id t' o'
  have owner : (s.L.putTarget id t' o').owner = o' := rfl
  constructor
  · exact wf
  · exact tracks.same.trans (Logger.put_same tracks.found setup)
  · exact Logger.putTarget_slots tracks.slots _ _ commands
  · simp only [owner, commands]
    exact tracks.noShutdown
  · exact Logger.putTarget_same
  · exact tracks.setup.trans setup
  · exact submitted
  · exact flushed
  · exact tracks.routes
  · simp only [pool, owner, commands, bytes]
    exact tracks.account

theorem land_tracks (tracks : Tracks env id L₀ t₀ s t sent) :
    Tracks env id L₀ t₀ (s.apply env id .land) t sent := by
  simp only [apply, tracks.found]
  split
  · exact tracks
  · rename_i req next
    obtain ⟨inside, rfl⟩ := List.getElem?_eq_some_iff.mp next
    have moved : s.file ++ t.bytesOf t.inflight[s.landed] ++ t.unwritten (s.landed + 1) =
        s.file ++ t.unwritten s.landed := by
      simp only [LogTarget.unwritten, List.drop_eq_getElem_cons inside, List.flatMap_cons,
        List.append_assoc]
    refine ⟨tracks.wf, tracks.same, tracks.slots, tracks.noShutdown, tracks.found, tracks.setup,
      inside, tracks.flushed, tracks.routes, ?_⟩
    simp only [moved]
    exact tracks.account

theorem writeCb_tracks (tracks : Tracks env id L₀ t₀ s t sent) :
    ∃ t', Tracks env id L₀ t₀ (s.apply env id .writeCb) t' sent := by
  cases landed : s.landed with
  | zero =>
    have same : s.apply env id .writeCb = s := by
      simp only [apply, tracks.found, landed]
    rw [same]
    exact ⟨t, tracks⟩
  | succ n =>
    have ran : s.apply env id .writeCb = { s with
        L := s.L.putTarget id (t.writeCb s.L.owner).1 (t.writeCb s.L.owner).2, landed := n } := by
      simp only [apply, tracks.found, landed]
    have bank := tracks.wf.banks id t tracks.found
    have inside : n + 1 ≤ t.inflight.length := landed ▸ tracks.landed
    obtain ⟨bytes, inflight⟩ := LogTarget.writeCb_unwritten bank inside
    have length : (t.writeCb s.L.owner).1.inflight.length = t.inflight.length - 1 := by
      rw [inflight, List.length_drop]
    have own : Logger.TargetAction t s.L.owner .writeCb := trivial
    have wf : (s.L.putTarget id (t.writeCb s.L.owner).1 (t.writeCb s.L.owner).2).Wf :=
      Logger.targetStep_wf tracks.wf tracks.found own
    have commands : (t.writeCb s.L.owner).2.internalCmdQueue = s.L.owner.internalCmdQueue :=
      Logger.targetAction_commands own
    rw [ran]
    refine ⟨_, tracks_target tracks wf (LogTarget.onlyClears_writeCb t s.L.owner).setup commands
      (by omega) ?_ (by rw [bytes, landed])⟩
    intro busy
    have all : t.inflight.length - 1 + 1 = t.inflight.length := by omega
    obtain ⟨bytes', _⟩ := LogTarget.writeCb_unwritten bank (Nat.le_of_eq all)
    rw [length, bytes', all]
    exact tracks.flushed busy

theorem callV8LogCallback_tracks (tracks : Tracks env id L₀ t₀ s t sent)
    (allowed : s.Allowed id .callV8LogCallback) :
    ∃ t', Tracks env id L₀ t₀ (s.apply env id .callV8LogCallback) t' sent := by
  have ran : s.apply env id .callV8LogCallback = { s with
      L := s.L.putTarget id (t.callV8LogCallback s.L.owner).1 (t.callV8LogCallback s.L.owner).2 } := by
    simp only [apply, tracks.found]
  have bank := tracks.wf.banks id t tracks.found
  have own : Logger.TargetAction t s.L.owner .callV8LogCallback := by
    intro d rest removed other apart
    rw [tracks.wf.ids id t tracks.found] at apart
    have ours := allowed (d, rest) removed
    cases d with
    | buffer target b =>
      obtain rfl : target = id := by simpa [WriteCBData.isOf] using ours
      simp [WriteCBData.bufOf, Ne.symm apart]
    | overflow target entry => rfl
  have wf : (s.L.putTarget id (t.callV8LogCallback s.L.owner).1
      (t.callV8LogCallback s.L.owner).2).Wf := Logger.targetStep_wf tracks.wf tracks.found own
  have commands : (t.callV8LogCallback s.L.owner).2.internalCmdQueue = s.L.owner.internalCmdQueue :=
    Logger.targetAction_commands own
  obtain ⟨bytes, inflight⟩ := LogTarget.callV8LogCallback_unwritten bank s.landed
  rw [ran]
  refine ⟨_, tracks_target tracks wf (LogTarget.onlyClears_callV8LogCallback t s.L.owner).setup
    commands (by rw [inflight]; exact tracks.landed) ?_ bytes⟩
  intro busy
  obtain ⟨bytes', _⟩ := LogTarget.callV8LogCallback_unwritten bank t.inflight.length
  rw [inflight, bytes']
  exact tracks.flushed busy

theorem flushAll_tracks (tracks : Tracks env id L₀ t₀ s t sent) (on : FileOn t₀)
    {doRotate nocallbacks : Bool} (allowed : s.Allowed id (.flushAll doRotate nocallbacks)) :
    ∃ t', Tracks env id L₀ t₀ (s.apply env id (.flushAll doRotate nocallbacks)) t' sent := by
  obtain ⟨idle, free⟩ := allowed
  let r := t.flushAll s.L.owner doRotate nocallbacks
  have ran : s.apply env id (.flushAll doRotate nocallbacks) = { s with
      L := s.L.putTarget id r.1 r.2.1 } := by
    simp only [apply, tracks.found, r]
  have bank := tracks.wf.banks id t tracks.found
  have handled := LogTarget.flushAll_handled t s.L.owner doRotate nocallbacks
  obtain ⟨bytes, submitted, _⟩ := LogTarget.flushAll_unwritten bank (on.asynchronous tracks.setup)
    doRotate nocallbacks (free t tracks.found) tracks.landed
  rw [ran]
  refine ⟨_, tracks_target tracks (Logger.put_wf tracks.wf tracks.found handled) handled.setup
    (flushAll_commands t s.L.owner doRotate nocallbacks) submitted ?_ bytes⟩
  intro busy
  exact absurd idle busy

theorem log_tracks (tracks : Tracks env id L₀ t₀ s t sent) {x : ExtraLogMeta} {text : List Byte}
    (allowed : s.Allowed id (.log x text)) :
    Tracks env id L₀ t₀ (s.apply env id (.log x text)) t (sent ++ [(x, text)]) := by
  obtain ⟨queued, target⟩ := allowed
  obtain ⟨same, wf⟩ := Logger.log_kept tracks.wf x text
  have opts : s.L.opts = L₀.opts := tracks.same.opts
  have routes : ∀ message ∈ sent ++ [(x, text)],
      (L₀.routed message.1).map Selected.target = [id] := by
    intro message mem
    rcases List.mem_append.mp mem with old | new
    · exact tracks.routes message old
    · obtain rfl := List.mem_singleton.mp new
      rw [← tracks.same.routed]
      exact target
  have going : ∀ l : SingleLog, L₀.routed (l.setMeta x).extraMeta = L₀.routed x := by
    intro l
    rw [← tracks.same.routed, ← tracks.same.routed]
    exact (Logger.setMeta_inputs s.L l x).1
  have labels : ∀ l : SingleLog, SameLabels x.m (l.setMeta x).extraMeta.m := by
    intro l
    rw [(Logger.setMeta_extraMeta l x).1]
    exact ⟨rfl, rfl, rfl⟩
  have slots := Logger.log_slots tracks.slots x text
  simp only [apply]
  rcases Logger.log_cases s.L x text with ⟨large, h⟩ | ⟨small, slot, avail, items, h⟩ | ⟨_, _, h⟩
  · rw [h] at queued same wf slots ⊢
    have added := Logger.addCmd_queued s.L.owner _ queued
    refine ⟨wf, tracks.same.trans same, slots, ?_, tracks.found, tracks.setup, tracks.landed,
      tracks.flushed, routes, ?_⟩
    · simp only [Logger.enqueueOverflow, added, List.mem_append, List.mem_singleton, reduceCtorEq,
        or_false]
      exact tracks.noShutdown
    · simp only [Logger.enqueueOverflow, added]
      refine accounted_enqueue tracks.account (fun _ _ _ _ => rfl) rfl ⟨?_, ?_, labels _, going _⟩
      · exact Or.inl (by rw [← opts]; exact large)
      · rw [Logger.queuedText, if_pos (by rw [← opts]; exact large)]
        rfl
  · rw [h] at queued same wf slots ⊢
    have added := Logger.addCmd_queued s.L.owner _ queued
    refine ⟨wf, tracks.same.trans same, slots, ?_, tracks.found, tracks.setup, tracks.landed,
      tracks.flushed, routes, ?_⟩
    · simp only [Logger.enqueueBuffer, added, List.mem_append, List.mem_singleton, reduceCtorEq,
        or_false]
      exact tracks.noShutdown
    · simp only [Logger.enqueueBuffer, added]
      refine accounted_enqueue tracks.account ?_ rfl ⟨?_, ?_, ?_⟩
      · intro req mem other of
        refine Function.update_of_ne ?_ _ _
        rintro rfl
        have apart := tracks.slots
        rw [Logger.SlotsApart, items] at apart
        refine (List.nodup_cons.mp apart).1 (List.mem_append_right _ ?_)
        exact List.mem_filterMap.mpr ⟨req, mem, of⟩
      · rw [← opts]
        exact small
      · rw [Function.update_self]
        exact Logger.fillBuffer_text _ x (by rw [tracks.wf.pool slot]; exact small)
      · rw [Function.update_self]
        exact ⟨labels _, going _⟩
  · rw [h] at queued
    simp at queued

structure Taken (env : Nat → WriteEnv) (id : TargetId) (L₀ : Logger) (t₀ : LogTarget) (s : FileState)
    (t : LogTarget) (sent : List Message) (req : InternalCmdReq) (L : Logger) : Prop where
  wf : L.Wf
  same : Logger.Same L₀ L
  noShutdown : .internalShutdown ∉ req :: L.owner.internalCmdQueue.items
  found : L.target id = some t
  room : L.owner.HasRoom
  avail : L.masterBufferAvail = s.L.masterBufferAvail
  pool : L.pool = s.L.pool
  apart : (L.masterBufferAvail.items ++ (req.slot?.toList ++ L.owner.queuedSlots)).Nodup
  account : Accounted env L₀ t₀ L.pool sent s.writing (req :: L.owner.internalCmdQueue.items)
    (s.file ++ t.unwritten s.landed)

theorem take_command (tracks : Tracks env id L₀ t₀ s t sent) {req : InternalCmdReq} {L : Logger}
    (took : s.L.removeReq = some (req, L)) : Taken env id L₀ t₀ s t sent req L := by
  obtain ⟨items, same, wf, pool, _⟩ := Logger.removeReq_some took
  obtain ⟨⟨first, queue⟩, removed, eq⟩ := Option.map_eq_some_iff.mp took
  obtain ⟨rfl, rfl⟩ := Prod.mk.inj eq
  constructor
  · exact wf tracks.wf
  · exact tracks.same.trans same
  · rw [← items]
    exact tracks.noShutdown
  · exact tracks.found
  · have bound := s.L.owner.internalCmdQueue.bounded
    rw [items] at bound
    exact bound
  · rfl
  · rfl
  · have apart := tracks.slots
    rw [Logger.SlotsApart, Owner.queuedSlots, items] at apart
    simp only [Owner.queuedSlots]
    cases slot : first.slot? <;> simpa [slot] using apart
  · rw [← items]
    exact tracks.account

theorem taken_tracks (tracks : Tracks env id L₀ t₀ s t sent) {req : InternalCmdReq} {L : Logger}
    (taken : Taken env id L₀ t₀ s t sent req L) (other : req.isMessage = false) :
    Tracks env id L₀ t₀ { s with L := L } t sent := by
  have slotless : req.slot? = none := by
    cases req <;> simp_all [InternalCmdReq.isMessage, InternalCmdReq.slot?]
  refine ⟨taken.wf, taken.same, ?_, ?_, taken.found, tracks.setup, tracks.landed, tracks.flushed,
    tracks.routes, ?_⟩
  · have apart := taken.apart
    rw [slotless] at apart
    exact apart
  · exact fun mem => taken.noShutdown (List.mem_cons_of_mem _ mem)
  · refine accounted_commands taken.account ?_
    rw [List.filter_cons_of_neg (by simp [other])]

theorem tracks_other (tracks : Tracks env id L₀ t₀ s t sent) {d : TargetId} {u u' : LogTarget}
    (apart : d ≠ id) (found : s.L.target d = some u) (wf : (s.L.putTarget d u' o').Wf)
    (setup : u.SameSetup u') (commands : o'.internalCmdQueue = s.L.owner.internalCmdQueue) :
    Tracks env id L₀ t₀ { s with L := s.L.putTarget d u' o' } t sent := by
  obtain ⟨_, _, pool, _⟩ := Logger.putTarget_fields s.L d u' o'
  have owner : (s.L.putTarget d u' o').owner = o' := rfl
  constructor
  · exact wf
  · exact tracks.same.trans (Logger.put_same found setup)
  · exact Logger.putTarget_slots tracks.slots _ _ commands
  · simp only [owner, commands]
    exact tracks.noShutdown
  · exact (Logger.putTarget_other (Ne.symm apart)).trans tracks.found
  · exact tracks.setup
  · exact tracks.landed
  · exact tracks.flushed
  · exact tracks.routes
  · simp only [pool, owner, commands]
    exact tracks.account

theorem rotate_tracks (tracks : Tracks env id L₀ t₀ s t sent) (on : FileOn t₀)
    (free : t.availBuffers.items ≠ []) (idle : s.writing = none) (d : TargetId) :
    ∃ t', Tracks env id L₀ t₀ { s with L := (Logger.handleRotate s.L d).1 } t' sent := by
  cases found : s.L.target d with
  | none =>
    simp only [Logger.handleRotate, found]
    exact ⟨t, tracks⟩
  | some u =>
    have handled := LogTarget.flushAll_handled u s.L.owner false false
    have wf := Logger.put_wf tracks.wf found handled
    have commands := flushAll_commands u s.L.owner false false
    simp only [Logger.handleRotate, found]
    by_cases ours : d = id
    · subst ours
      obtain rfl := Option.some.inj (tracks.found.symm.trans found)
      obtain ⟨bytes, submitted, _⟩ := LogTarget.flushAll_unwritten
        (tracks.wf.banks d t tracks.found) (on.asynchronous tracks.setup) false false free
        tracks.landed
      exact ⟨_, tracks_target tracks wf handled.setup commands submitted
        (fun busy => absurd idle busy) bytes⟩
    · exact ⟨t, tracks_other tracks ours found wf handled.setup commands⟩

theorem routed_one {x : ExtraLogMeta} (targets : (L₀.routed x).map Selected.target = [id]) :
    ∃ call, L₀.routed x = [call] ∧ call.target = id := by
  obtain ⟨call, one, target⟩ := List.map_eq_singleton_iff.mp targets
  exact ⟨call, one, target⟩

theorem handleNewLog_one {L : Logger} {slot : PoolSlot} {call : Selected}
    (found : L.target call.target = some t)
    (routed : L.routed (L.pool slot).extraMeta = [call]) :
    let text := (L.pool slot).buf.bytes.take (L.pool slot).buf.used
    let r := t.write L.owner (env L.calls) text (L.sifted (L.pool slot).extraMeta).m call.filter
    (Logger.handleReq env L (.newLog slot)).1 =
      Logger.giveBack { L.putTarget call.target r.1 r.2.1 with calls := L.calls + 1 } slot := by
  simp only [Logger.handleReq, Logger.handleNewLog, routed, Logger.callAll, Logger.writeTo, found]

theorem newLog_fields (env : Nat → WriteEnv) {L : Logger} {slot : PoolSlot} {call : Selected}
    (found : L.target call.target = some t)
    (routed : L.routed (L.pool slot).extraMeta = [call]) :
    let text := (L.pool slot).buf.bytes.take (L.pool slot).buf.used
    let r := t.write L.owner (env L.calls) text (L.sifted (L.pool slot).extraMeta).m call.filter
    let L' := (Logger.handleReq env L (.newLog slot)).1
    L'.target call.target = some r.1 ∧ L'.owner = r.2.1 ∧
      ∀ other, other ≠ slot → L'.pool other = L.pool other := by
  intro text r L'
  obtain ⟨_, _, pool, _⟩ := Logger.putTarget_fields L call.target r.1 r.2.1
  have ran : L' = Logger.giveBack { L.putTarget call.target r.1 r.2.1 with calls := L.calls + 1 } slot :=
    handleNewLog_one found routed
  rw [ran]
  refine ⟨Logger.putTarget_same (o := r.2.1), rfl, ?_⟩
  intro other apart
  simp only [Logger.giveBack, Function.update_of_ne apart]
  exact congrFun pool other

theorem carried_after {L : Logger} {slot : PoolSlot} {pool' : PoolSlot → SingleLog}
    {queued : List Message}
    (apart : (L.masterBufferAvail.items ++ (slot :: L.owner.queuedSlots)).Nodup)
    (others : ∀ other, other ≠ slot → pool' other = L.pool other)
    (each : List.Forall₂ (Carries L₀ t₀ L.pool) queued
      (L.owner.internalCmdQueue.items.filter InternalCmdReq.isMessage)) :
    List.Forall₂ (Carries L₀ t₀ pool') queued
      (L.owner.internalCmdQueue.items.filter InternalCmdReq.isMessage) := by
  refine forall₂_carries_pool ?_ each
  intro req mem other of
  refine others other ?_
  rintro rfl
  have once := List.nodup_cons.mp (List.nodup_middle.mp apart)
  refine once.1 (List.mem_append_right _ ?_)
  exact List.mem_filterMap.mpr ⟨req, List.mem_of_mem_filter mem, of⟩

theorem filter_messages_none {reqs : List InternalCmdReq}
    (none : ∀ req ∈ reqs, req.isMessage = false) : reqs.filter InternalCmdReq.isMessage = [] := by
  rw [List.filter_eq_nil_iff]
  intro req mem
  simp [none req mem]

theorem requeue_accounted {pool pool' : PoolSlot → SingleLog} {reqs : List InternalCmdReq}
    {bytes text : List Byte} {slot : PoolSlot} {m : LogMeta} {d : TargetId} (setup : t₀.SameSetup t)
    (account : Accounted env L₀ t₀ pool sent none (.newLog slot :: reqs) bytes)
    (same : text = (pool slot).buf.bytes.take (pool slot).buf.used)
    (size : t.bankSize < text.length + GREASE_MAX_PREFIX_HEADER)
    (labels : SameLabels (pool slot).extraMeta.m m)
    (alone : ∀ req ∈ reqs, req.isMessage = false)
    (again : L₀.routed ⟨m, SingleLog.noIgnores⟩ = L₀.routed (pool slot).extraMeta) :
    Accounted env L₀ t₀ pool' sent none (reqs ++ [.writeTargetOverflow d (.ofData text m)]) bytes := by
  obtain ⟨done, message, queued, entries, split, made, ⟨small, content, copy⟩, rest, flat⟩ :=
    accounted_head account rfl
  have none := filter_messages_none alone
  rw [none] at rest
  obtain rfl := List.forall₂_nil_right_iff.mp rest
  rw [← same] at content
  refine ⟨done, [], [message], entries, ?_, made, .nil, ?_, flat⟩
  · rw [split, List.append_nil]
  · rw [List.filter_append, none, List.nil_append]
    refine .cons ⟨?_, ?_, copy.labels.trans labels, again.trans copy.routed⟩ .nil
    · refine Or.inr ?_
      rw [← setup.config.bankSize, ← content]
      exact size
    · rw [Logger.queuedText, if_neg (Nat.not_lt.mpr small), ← content]
      rfl

theorem buffer_accounted {L : Logger} {pool' : PoolSlot → SingleLog} {added : List InternalCmdReq}
    {bytes text : List Byte} {slot : PoolSlot} {m : LogMeta} {call : Selected} {n : Nat}
    (setup : t₀.SameSetup t) (on : FileOn t₀)
    (account : Accounted env L₀ t₀ L.pool sent none (.newLog slot :: L.owner.internalCmdQueue.items) bytes)
    (routed : L₀.routed (L.pool slot).extraMeta = [call])
    (same : text = (L.pool slot).buf.bytes.take (L.pool slot).buf.used)
    (size : ¬ t.bankSize < text.length + GREASE_MAX_PREFIX_HEADER)
    (labels : SameLabels (L.pool slot).extraMeta.m m)
    (apart : (L.masterBufferAvail.items ++ (slot :: L.owner.queuedSlots)).Nodup)
    (others : ∀ other, other ≠ slot → pool' other = L.pool other)
    (rotations : ∀ req ∈ added, req.isMessage = false) :
    Accounted env L₀ t₀ pool' sent none (L.owner.internalCmdQueue.items ++ added)
      (bytes ++ t.copiedEntry (env n) text m call.filter) := by
  obtain ⟨done, message, queued, entries, split, made, ⟨small, content, copy⟩, rest, flat⟩ :=
    accounted_head account rfl
  rw [← same] at content
  have notOversized : ¬ L₀.Oversized t₀ message.2 := by
    rintro (large | large)
    · omega
    · rw [← setup.config.bankSize, ← content] at large
      exact size large
  refine ⟨done ++ [message], [], queued, entries ++ [t.copiedEntry (env n) text m call.filter],
    ?_, ?_, .nil, ?_, ?_⟩
  · rw [split]
    simp
  · refine List.rel_append made (.cons ⟨call, ?_, n, ?_⟩ .nil)
    · rw [← copy.routed, routed]
      exact List.mem_singleton_self _
    · rw [Logger.entry, if_neg notOversized, ← content]
      exact LogTarget.copiedEntry_same setup on.delims (copy.labels.trans labels) (env n) text
        call.filter
  · rw [List.filter_append, filter_messages_none rotations, List.append_nil]
    exact carried_after apart others rest
  · rw [flat]
    simp

theorem newLog_tracks (tracks : Tracks env id L₀ t₀ s t sent) (on : FileOn t₀)
    (idle : s.writing = none) (free : t.availBuffers.items ≠ []) {slot : PoolSlot} {L : Logger}
    (took : s.L.removeReq = some (.newLog slot, L))
    (turn : ∀ call ∈ L.routed (L.pool slot).extraMeta, WritesInTurn env L slot t call) :
    ∃ t', Tracks env id L₀ t₀ { s with L := (Logger.handleReq env L (.newLog slot)).1 } t' sent := by
  have taken := take_command tracks took
  have account := taken.account
  rw [idle] at account
  obtain ⟨call, routed₀, target⟩ : ∃ call, L₀.routed (L.pool slot).extraMeta = [call] ∧
      call.target = id := by
    obtain ⟨done, message, queued, _, split, _, ⟨_, _, copy⟩, _, _⟩ := accounted_head account rfl
    have ours : message ∈ sent := by
      rw [split]
      exact List.mem_append_right _ List.mem_cons_self
    rw [copy.routed]
    exact routed_one (tracks.routes message ours)
  have routed : L.routed (L.pool slot).extraMeta = [call] := by
    rw [taken.same.routed, routed₀]
  have found : L.target call.target = some t := by
    rw [target]
    exact taken.found
  obtain ⟨same, wf, _⟩ := Logger.handleReq_cheaper env taken.wf (.newLog slot)
  have slots := Logger.handleReq_slots env tracks.slots took
  obtain ⟨found', owner', others⟩ := newLog_fields env found routed
  have enabled : t.disabled = false := tracks.setup.config.disabled.trans on.enabled
  have labels := sifted_labels L (L.pool slot).extraMeta
  have noShutdown := fun mem => taken.noShutdown (List.mem_cons_of_mem _ mem)
  have inTurn := turn call (by rw [routed]; exact List.mem_singleton_self _)
  rw [target] at found'
  unfold WritesInTurn at inTurn
  simp only at inTurn
  generalize text_eq : (L.pool slot).buf.bytes.take (L.pool slot).buf.used = text at *
  generalize meta_eq : (L.sifted (L.pool slot).extraMeta).m = m at *
  by_cases size : t.bankSize < text.length + GREASE_MAX_PREFIX_HEADER
  · rw [if_pos size] at inTurn
    obtain ⟨alone, again⟩ := inTurn
    rw [taken.same.routed, taken.same.routed] at again
    obtain ⟨kept, items⟩ := LogTarget.write_requeues enabled size taken.room (env L.calls) m
      call.filter
    rw [kept] at found'
    refine ⟨t, wf, taken.same.trans same, slots, ?_, found', tracks.setup, tracks.landed,
      fun busy => absurd idle busy, tracks.routes, ?_⟩
    · simp only [owner', items, List.mem_append, List.mem_singleton, reduceCtorEq, or_false]
      exact noShutdown
    · simp only [owner', items, idle]
      exact requeue_accounted tracks.setup account text_eq.symm size labels alone again
  · rw [if_neg size] at inTurn
    obtain ⟨moved, inflight, added, items, rotations⟩ := LogTarget.write_buffers
      (taken.wf.banks id t taken.found) (taken.wf.delims id t taken.found) enabled
      (Nat.le_of_not_lt size) free taken.room inTurn s.landed
    have noMessages : ∀ req ∈ added, req.isMessage = false := by
      intro req mem
      rw [rotations req mem]
      rfl
    have handled := LogTarget.write_handled t L.owner (env L.calls) text m call.filter
    refine ⟨_, wf, taken.same.trans same, slots, ?_, found', tracks.setup.trans handled.setup,
      by rw [inflight]; exact tracks.landed, fun busy => absurd idle busy, tracks.routes, ?_⟩
    · simp only [owner', items]
      intro mem
      rcases List.mem_append.mp mem with old | new
      · exact noShutdown old
      · exact absurd (rotations _ new) (by simp)
    · simp only [owner', items, idle, moved, ← List.append_assoc]
      exact buffer_accounted tracks.setup on account routed₀ text_eq.symm size labels taken.apart
        others noMessages

/-- The flush before an overflow message leaves nothing but writes in flight. -/
theorem overflow_tracks (tracks : Tracks env id L₀ t₀ s t sent) (on : FileOn t₀)
    (idle : s.writing = none) (free : t.availBuffers.items ≠ []) {d : TargetId} {l : SingleLog}
    {L : Logger} (took : s.L.removeReq = some (.writeTargetOverflow d l, L)) :
    ∃ t', Tracks env id L₀ t₀ (s.nextOverflow L { l with extraMeta := L.sifted l.extraMeta }
      (L.routed l.extraMeta)) t' sent := by
  have taken := take_command tracks took
  have account := taken.account
  rw [idle] at account
  obtain ⟨done, message, queued, entries, split, made, ⟨large, text, copy⟩, rest, bytes⟩ :=
    accounted_head account rfl
  obtain ⟨call, one, target⟩ := routed_one (tracks.routes message (by
    rw [split]
    exact List.mem_append_right _ List.mem_cons_self))
  have routed : L.routed l.extraMeta = [call] := by
    rw [taken.same.routed, copy.routed, one]
  let r := t.flushAll L.owner true false
  have ran : s.nextOverflow L { l with extraMeta := L.sifted l.extraMeta } (L.routed l.extraMeta) =
      { s with
        L := L.putTarget id r.1 r.2.1
        writing := some ({ l with extraMeta := L.sifted l.extraMeta }, call, []) } := by
    simp only [nextOverflow, routed, Logger.flushBefore, target, taken.found, r]
  have handled := LogTarget.flushAll_handled t L.owner true false
  have commands : r.2.1.internalCmdQueue = L.owner.internalCmdQueue :=
    flushAll_commands t L.owner true false
  obtain ⟨kept, submitted, nothing⟩ := LogTarget.flushAll_unwritten
    (taken.wf.banks id t taken.found) (on.asynchronous tracks.setup) true false free tracks.landed
  obtain ⟨_, _, pool, _⟩ := Logger.putTarget_fields L id r.1 r.2.1
  have owner : (L.putTarget id r.1 r.2.1).owner = r.2.1 := rfl
  rw [ran]
  refine ⟨r.1, Logger.put_wf taken.wf taken.found handled,
    taken.same.trans (Logger.put_same taken.found handled.setup), ?_, ?_, Logger.putTarget_same,
    tracks.setup.trans handled.setup, submitted, fun _ => nothing rfl, tracks.routes, done, [message],
    queued, entries, ?_, made, ?_, ?_, ?_⟩
  · exact Logger.putTarget_slots taken.apart id r.1 commands
  · simp only [owner, commands]
    exact fun mem => taken.noShutdown (List.mem_cons_of_mem _ mem)
  · rw [split]
    simp
  · exact .cons ⟨large, text, copy.labels.trans (sifted_labels L l.extraMeta), one, rfl⟩ .nil
  · simp only [pool, owner, commands]
    exact rest
  · rw [← bytes]
    exact congrArg (s.file ++ ·) kept

theorem writev_tracks (tracks : Tracks env id L₀ t₀ s t sent) (on : FileOn t₀)
    (turn : s.InTurn env id .writev) :
    ∃ t', Tracks env id L₀ t₀ (s.apply env id .writev) t' sent := by
  cases busy : s.writing with
  | none =>
    have same : s.apply env id .writev = s := by
      simp only [apply, busy]
    rw [same]
    exact ⟨t, tracks⟩
  | some w =>
    obtain ⟨l, call, rest⟩ := w
    obtain ⟨done, current, queued, entries, account⟩ := tracks.account
    have writing := account.current
    rw [busy, Option.toList_some] at writing
    obtain ⟨message, _, first, others, rfl⟩ := List.forall₂_cons_right_iff.mp writing
    obtain rfl := List.forall₂_nil_right_iff.mp others
    obtain ⟨large, text, labels, one, none⟩ := first
    simp only at none one text labels
    subst none
    have target : call.target = id := by
      have targets := tracks.routes message (by rw [account.sent]; simp)
      rw [one] at targets
      simpa using targets
    let r := t.writeOverflow s.L.owner (env s.L.calls) l call.filter
    have enabled : t.disabled = false := tracks.setup.config.disabled.trans on.enabled
    have kind : t.kind = .file := tracks.setup.config.kind.trans on.kind
    obtain ⟨kept, written⟩ := LogTarget.writeOverflow_file kind enabled s.L.owner
      (env s.L.calls) l call.filter
    have entry : r.2.2.2 = L₀.entry t₀ (env s.L.calls) message.1.m message.2 call.filter := by
      rw [Logger.entry, if_pos large, ← text]
      exact written.trans (congrArg List.flatten
        (LogTarget.overflowEntry_same tracks.setup on.delims labels _ _))
    have ran : s.apply env id .writev = { s with
        L := { s.L.putTarget id t r.2.1 with calls := s.L.calls + 1 }
        file := s.file ++ r.2.2.2
        writing := none } := by
      simp only [apply, busy, Logger.overflowAfter, target, tracks.found, nextOverflow, if_true, r,
        kept]
    have handled := LogTarget.writeOverflow_handled t s.L.owner (env s.L.calls) l call.filter
    rw [kept] at handled
    have commands : r.2.1.internalCmdQueue = s.L.owner.internalCmdQueue :=
      writeOverflow_commands t s.L.owner (env s.L.calls) l call.filter
    have nothing : t.unwritten s.landed = [] := by
      rw [turn t tracks.found]
      exact tracks.flushed (by rw [busy]; simp)
    obtain ⟨_, _, pool, _⟩ := Logger.putTarget_fields s.L id t r.2.1
    have owner : (s.L.putTarget id t r.2.1).owner = r.2.1 := rfl
    rw [ran]
    refine ⟨t, (Logger.put_wf tracks.wf tracks.found handled).counted _,
      (tracks.same.trans (Logger.put_same tracks.found handled.setup)).counted _, ?_, ?_,
      Logger.putTarget_same (o := r.2.1), tracks.setup, tracks.landed, fun busy => absurd rfl busy,
      tracks.routes, done ++ [message], [], queued, entries ++ [r.2.2.2], ?_, ?_, .nil, ?_, ?_⟩
    · exact Logger.putTarget_slots tracks.slots id t commands
    · simp only [owner, commands]
      exact tracks.noShutdown
    · rw [account.sent]
      simp
    · refine List.rel_append account.made (.cons ⟨call, ?_, s.L.calls, entry⟩ .nil)
      rw [one]
      exact List.mem_singleton_self _
    · simp only [pool, owner, commands]
      exact account.queued
    · have all := account.bytes
      rw [nothing, List.append_nil] at all
      simp only [nothing, List.append_nil, all, List.flatten_append, List.flatten_cons,
        List.flatten_nil]

theorem handle_tracks (tracks : Tracks env id L₀ t₀ s t sent) (on : FileOn t₀)
    (allowed : s.Allowed id .handle) (turn : s.InTurn env id .handle) :
    ∃ t', Tracks env id L₀ t₀ (s.apply env id .handle) t' sent := by
  obtain ⟨idle, anyFree⟩ := allowed
  have free := anyFree t tracks.found
  cases took : s.L.removeReq with
  | none =>
    simp only [apply, took]
    exact ⟨t, tracks⟩
  | some r =>
    obtain ⟨req, L⟩ := r
    have taken := take_command tracks took
    cases req with
    | newLog slot =>
      simp only [apply, took]
      exact newLog_tracks tracks on idle free took
        fun call mem => turn _ took slot rfl t taken.found call mem
    | targetRotateBuffer d =>
      simp only [apply, took]
      exact rotate_tracks (taken_tracks tracks taken rfl) on free idle d
    | writeTargetOverflow d l =>
      simp only [apply, took]
      exact overflow_tracks tracks on idle free took
    | internalShutdown => exact absurd List.mem_cons_self taken.noShutdown

/-! The runs. -/

def logged (actions : List FileAction) : List Message := actions.filterMap FileAction.logged?

theorem logged_none {a : FileAction} (none : a.logged? = none) (sent : List Message) :
    sent ++ logged [a] = sent := by
  simp [logged, none]

theorem step_tracks {s' : FileState} {a : FileAction} (on : FileOn t₀)
    (tracks : Tracks env id L₀ t₀ s t sent) (turn : s.InTurn env id a) (step : s.Step env id a s') :
    ∃ t', Tracks env id L₀ t₀ s' t' (sent ++ logged [a]) := by
  obtain ⟨allowed, rfl⟩ := step
  cases a with
  | log x text => exact ⟨t, log_tracks tracks allowed⟩
  | handle =>
    rw [logged_none rfl]
    exact handle_tracks tracks on allowed turn
  | writev =>
    rw [logged_none rfl]
    exact writev_tracks tracks on turn
  | land =>
    rw [logged_none rfl]
    exact ⟨t, land_tracks tracks⟩
  | writeCb =>
    rw [logged_none rfl]
    exact writeCb_tracks tracks
  | flushAll doRotate nocallbacks =>
    rw [logged_none rfl]
    exact flushAll_tracks tracks on allowed
  | callV8LogCallback =>
    rw [logged_none rfl]
    exact callV8LogCallback_tracks tracks allowed

theorem start_tracks (env : Nat → WriteEnv) {start : FileState} (new : start.Start id t₀) :
    FileOn t₀ ∧ Tracks env id start.L t₀ start t₀ [] := by
  have wf := Logger.reachable_wf new.reachable
  refine ⟨⟨new.kind, new.enabled, wf.delims id t₀ new.found⟩, wf, .refl _,
    Logger.reachable_slots new.reachable, ?_, new.found, .refl t₀, ?_, ?_, ?_, [], [], [], [], rfl,
    .nil, ?_, ?_, ?_⟩
  · simp [new.idle]
  · simp [new.landed]
  · exact fun busy => absurd new.writing busy
  · simp
  · rw [new.writing]
    exact .nil
  · rw [new.idle]
    exact .nil
  · simp [new.file, new.landed, LogTarget.unwritten, new.inflight, new.writeOut, new.current]

theorem run_tracks {start : FileState} (new : start.Start id t₀) {actions : List FileAction}
    (run : Runs.Run (Runs.Guard (InTurn env id) (Step env id)) start actions s) :
    ∃ t, Tracks env id start.L t₀ s t (logged actions) := by
  obtain ⟨on, first⟩ := start_tracks env new
  refine Runs.run_history (fun actions s => ∃ t, Tracks env id start.L t₀ s t (logged actions))
    ⟨t₀, first⟩ ?_ run
  rintro actions s a s' ⟨t, tracks⟩ ⟨turn, step⟩
  have split : logged (actions ++ [a]) = logged actions ++ logged [a] := List.filterMap_append
  rw [split]
  exact step_tracks on tracks turn step

/-- The file, with what is on its way to it, is made of the entries of the first
    messages in the order in which they were queued; the other messages wait. -/
def FileOrdered (env : Nat → WriteEnv) (id : TargetId) (start : FileState) (t₀ : LogTarget)
    (actions : List FileAction) (s : FileState) : Prop :=
  ∃ entries, List.Forall₂ (start.L.IsEntry env t₀) ((logged actions).take entries.length) entries ∧
    s.file ++ s.unwritten id = entries.flatten ∧
    entries.length + s.waiting = (logged actions).length

/-- In a run whose writes and writevs all come in turn, the order of the messages is
    the order of their entries. -/
theorem file_in_order {start : FileState} (new : start.Start id t₀) {actions : List FileAction}
    (run : Runs.Run (Runs.Guard (InTurn env id) (Step env id)) start actions s) :
    FileOrdered env id start t₀ actions s := by
  obtain ⟨t, tracks⟩ := run_tracks new run
  obtain ⟨done, current, queued, entries, account⟩ := tracks.account
  have made := account.made.length_eq
  refine ⟨entries, ?_, ?_, ?_⟩
  · rw [account.sent, List.append_assoc, ← made, List.take_left]
    exact account.made
  · rw [← account.bytes, unwritten, tracks.found]
    rfl
  · have writing := account.current.length_eq
    have waits := account.queued.length_eq
    rw [account.sent, List.length_append, List.length_append, waiting, List.countP_eq_length_filter]
    omega

def fileTarget : LogTarget := .new .file 4096 0 [10]

def oneFile : FileState :=
  let L := Logger.new {} (fun _ => .new) fun _ => []
  { L := L.putTarget 0 fileTarget L.owner }

theorem oneFile_start : oneFile.Start 0 fileTarget :=
  ⟨(Logger.Reachable.new {} (fun _ => .new) fun _ => []).addTarget .file 4096 [10] {} false rfl,
    rfl, rfl, rfl, rfl, rfl, rfl, rfl, rfl, rfl, rfl⟩

def plainMeta : ExtraLogMeta := ⟨{ noMetaData with level := 1 }, SingleLog.noIgnores⟩

def shortAndLong : List FileAction :=
  [.log plainMeta [97], .handle, .log plainMeta (List.replicate 2001 98), .handle]

def landedFirst : List FileAction := shortAndLong ++ [FileAction.land, .writev, .writeCb]

def landedLast : List FileAction := shortAndLong ++ [FileAction.writev, .land]

theorem file_in_order_lines :
    FileOrdered plainEnvs 0 oneFile fileTarget landedFirst
        (landedFirst.foldl (apply plainEnvs 0) oneFile) ∧
      (landedFirst.foldl (apply plainEnvs 0) oneFile).file =
        [97, 10] ++ List.replicate 2001 98 ++ [10] := by
  have checked : Runs.Checked (fun s a => s.InTurn plainEnvs 0 a ∧ s.Allowed 0 a)
      (apply plainEnvs 0) oneFile landedFirst := by decide +kernel
  constructor
  · exact file_in_order oneFile_start (Runs.run_checked (fun s a h => ⟨h.1, h.2, rfl⟩) checked)
  · decide +kernel

theorem writev_overtakes_line :
    ∃ s, oneFile.Start 0 fileTarget ∧ Runs.Run (Step plainEnvs 0) oneFile landedLast s ∧
      s.file = List.replicate 2001 98 ++ [10, 97, 10] ∧
      ¬ FileOrdered plainEnvs 0 oneFile fileTarget landedLast s := by
  have checked : Runs.Checked (fun s a => s.Allowed 0 a) (apply plainEnvs 0) oneFile landedLast := by
    decide +kernel
  have long : (landedLast.foldl (apply plainEnvs 0) oneFile).file =
      List.replicate 2001 98 ++ [10, 97, 10] := by decide +kernel
  refine ⟨_, oneFile_start, Runs.run_checked (fun s a h => ⟨h, rfl⟩) checked, long, ?_⟩
  rintro ⟨entries, made, bytes, count⟩
  have none : waiting (landedLast.foldl (apply plainEnvs 0) oneFile) = 0 := by decide +kernel
  have both : entries.length = 2 := by
    rw [none] at count
    exact count
  rw [both] at made
  obtain ⟨first, rest, ⟨call, mem, n, rfl⟩, _, rfl⟩ := List.forall₂_cons_left_iff.mp made
  have line : ∀ call ∈ oneFile.L.routed plainMeta,
      oneFile.L.entry fileTarget plainEnv plainMeta.m [97] call.filter = [97, 10] := by
    decide +kernel
  have entry : oneFile.L.entry fileTarget (plainEnvs n) plainMeta.m [97] call.filter = [97, 10] :=
    line call mem
  have head := congrArg List.head? bytes
  simp only at head
  have first : (List.replicate 2001 (98 : Byte)).head? = some 98 := rfl
  rw [List.flatten_cons, entry, long, List.append_assoc, List.head?_append, first,
    Option.some_or] at head
  exact absurd (Option.some.inj head) (by decide)

end FileState
end GreaseLog
