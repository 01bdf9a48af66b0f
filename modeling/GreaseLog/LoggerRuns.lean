import GreaseLog.Dispatch

/- The loggers that a process can come to have: their targets, callbacks and pool
   buffers are sound, and _log queues one command or none. -/
namespace GreaseLog

namespace Logger
variable {L : Logger} {x : ExtraLogMeta} {s : List Byte}

theorem addCmd_queued (o : Owner) (req : InternalCmdReq)
    (queued : (if (o.addCmd req).2 then LogResult.queued else .queueFull) = .queued) :
    (o.addCmd req).1.internalCmdQueue.items = o.internalCmdQueue.items ++ [req] := by
  rcases LogTarget.addCmd_cases o req with ⟨_, _, items⟩ | ⟨_, full, _⟩
  · exact items
  · simp [full] at queued

theorem fillBuffer_length (l : SingleLog) (x : ExtraLogMeta) (s : List Byte) :
    (fillBuffer l x s).buf.bytes.length = l.buf.bytes.length := by
  have copied : (fillBuffer l x s).buf = l.buf.memcpy s := rfl
  rw [copied, HeapBuf.memcpy, List.length_append, List.length_take, List.length_drop]
  omega

theorem enqueueBuffer_kept (wf : L.Wf) (slot : PoolSlot) (x : ExtraLogMeta) (s : List Byte) :
    Same L (L.enqueueBuffer slot x s).1 ∧ (L.enqueueBuffer slot x s).1.Wf := by
  refine ⟨⟨rfl, rfl, rfl, rfl, fun _ t found => ⟨t, found, .refl t⟩⟩,
    wf.frame rfl rfl (fun other => ?_) rfl⟩
  by_cases same : other = slot
  · subst same
    simp [enqueueBuffer, fillBuffer_length]
  · simp [enqueueBuffer, same]

theorem log_cases (L : Logger) (x : ExtraLogMeta) (s : List Byte) :
    (L.opts.bufferSize < s.length ∧ L._log x s = L.enqueueOverflow x s) ∨
    (s.length ≤ L.opts.bufferSize ∧ ∃ slot avail,
      L.masterBufferAvail.items = slot :: avail.items ∧
      L._log x s = ({ L with masterBufferAvail := avail } : Logger).enqueueBuffer slot x s) ∨
    (s.length ≤ L.opts.bufferSize ∧ L.masterBufferAvail.items = [] ∧
      L._log x s = (L, .poolEmpty)) := by
  by_cases large : s.length > L.opts.bufferSize
  · exact Or.inl ⟨large, if_pos large⟩
  · have small : s.length ≤ L.opts.bufferSize := Nat.le_of_not_gt large
    cases removed : L.masterBufferAvail.remove with
    | none =>
      have none := (BoundedQueue.remove_none_iff _).mp removed
      exact Or.inr (Or.inr ⟨small, none, by simp [_log, large, takeBuffer, removed]⟩)
    | some r =>
      obtain ⟨slot, avail⟩ := r
      have items := BoundedQueue.remove_some removed
      exact Or.inr (Or.inl ⟨small, slot, avail, items, by simp [_log, large, takeBuffer, removed]⟩)

theorem log_kept (wf : L.Wf) (x : ExtraLogMeta) (s : List Byte) :
    Same L (L._log x s).1 ∧ (L._log x s).1.Wf := by
  rcases log_cases L x s with ⟨_, h⟩ | ⟨_, slot, avail, _, h⟩ | ⟨_, _, h⟩
  · rw [h]
    exact ⟨Same.commands L _, wf.commands rfl⟩
  · have taken : Wf { L with masterBufferAvail := avail } := wf.frame rfl rfl (fun _ => rfl) rfl
    obtain ⟨same, kept⟩ := enqueueBuffer_kept taken slot x s
    rw [h]
    exact ⟨⟨same.filters, same.opts, same.registered, same.hasDefault, same.targets⟩, kept⟩
  · rw [h]
    exact ⟨Same.refl L, wf⟩

theorem log_queued (queued : (L._log x s).2 = .queued) :
    ∃ req, (L._log x s).1.owner.internalCmdQueue.items = L.owner.internalCmdQueue.items ++ [req] ∧
      (L._log x s).1.calls = L.calls ∧
      ((L.opts.bufferSize < s.length ∧ req = .writeTargetOverflow 0 (overflowLog x s)) ∨
        (s.length ≤ L.opts.bufferSize ∧
          ∃ slot, req = .newLog slot ∧ (L._log x s).1.pool slot = fillBuffer (L.pool slot) x s)) := by
  rcases log_cases L x s with ⟨large, h⟩ | ⟨small, slot, avail, _, h⟩ | ⟨_, _, h⟩
  · rw [h] at queued ⊢
    exact ⟨_, addCmd_queued L.owner _ queued, rfl, Or.inl ⟨large, rfl⟩⟩
  · rw [h] at queued ⊢
    exact ⟨_, addCmd_queued L.owner _ queued, rfl,
      Or.inr ⟨small, slot, rfl, Function.update_self ..⟩⟩
  · rw [h] at queued
    simp at queued

/-! No buffer of the pool is in two places. -/

def SlotsApart (L : Logger) : Prop := (L.masterBufferAvail.items ++ L.owner.queuedSlots).Nodup

theorem log_slots (apart : L.SlotsApart) (x : ExtraLogMeta) (s : List Byte) :
    (L._log x s).1.SlotsApart := by
  rcases log_cases L x s with ⟨_, h⟩ | ⟨_, slot, avail, items, h⟩ | ⟨_, _, h⟩
  · have queued : (L.enqueueOverflow x s).1.owner.queuedSlots = L.owner.queuedSlots :=
      queuedSlots_add _ _ rfl
    rw [h, SlotsApart, queued]
    exact apart
  · rw [SlotsApart, items] at apart
    rw [h, SlotsApart]
    rcases LogTarget.addCmd_cases L.owner (.newLog slot) with ⟨_, _, added⟩ | ⟨_, _, same⟩
    · have queued : (L.owner.addCmd (.newLog slot)).1.queuedSlots = L.owner.queuedSlots ++ [slot] := by
        simp only [Owner.queuedSlots, added, List.filterMap_append]
        rfl
      have moved : (avail.items ++ (L.owner.queuedSlots ++ [slot])).Nodup := by
        rw [← List.append_assoc]
        exact (List.perm_append_singleton slot _).nodup_iff.mpr apart
      simp only [enqueueBuffer, queued]
      exact moved
    · simp only [enqueueBuffer, same]
      exact (List.nodup_cons.mp apart).2
  · rw [h]
    exact apart

theorem callAll_writes_slots (env : Nat → WriteEnv) (s : List Byte) (m : LogMeta)
    (calls : List Selected) (L : Logger) :
    (callAll (fun L call => writeTo env L s m call) L calls).1.masterBufferAvail =
        L.masterBufferAvail ∧
      (callAll (fun L call => writeTo env L s m call) L calls).1.owner.queuedSlots =
        L.owner.queuedSlots := by
  induction calls generalizing L with
  | nil => exact ⟨rfl, rfl⟩
  | cons call rest ih =>
    obtain ⟨avail, queued⟩ := ih (writeTo env L s m call).1
    obtain ⟨avail', _, queued'⟩ := writeTo_pool env L s m call
    exact ⟨avail.trans avail', queued.trans queued'⟩

theorem handleReq_slots (env : Nat → WriteEnv) {L rest : Logger} {req : InternalCmdReq}
    (apart : L.SlotsApart) (took : L.removeReq = some (req, rest)) :
    (handleReq env rest req).1.SlotsApart := by
  obtain ⟨⟨first, queue⟩, removed, eq⟩ := Option.map_eq_some_iff.mp took
  obtain ⟨rfl, rfl⟩ := Prod.mk.inj eq
  have items := BoundedQueue.remove_some removed
  rw [SlotsApart, Owner.queuedSlots, items] at apart
  cases kind : first.slot? with
  | none =>
    obtain ⟨avail, commands⟩ :=
      handleReq_pool env { L with owner := { L.owner with internalCmdQueue := queue } } kind
    rw [List.filterMap_cons_none kind] at apart
    rw [SlotsApart, Owner.queuedSlots, avail, commands]
    exact apart
  | some slot =>
    obtain rfl : first = .newLog slot := by
      cases first <;> simp_all [InternalCmdReq.slot?]
    rw [List.filterMap_cons_some kind] at apart
    simp only [SlotsApart, handleReq, handleNewLog, giveBack]
    obtain ⟨avail, queued⟩ := callAll_writes_slots env
      ((L.pool slot).buf.bytes.take (L.pool slot).buf.used)
      (sifted { L with owner := { L.owner with internalCmdQueue := queue } } (L.pool slot).extraMeta).m
      (routed { L with owner := { L.owner with internalCmdQueue := queue } } (L.pool slot).extraMeta)
      { L with owner := { L.owner with internalCmdQueue := queue } }
    rw [avail, queued]
    have moved : (slot :: (L.masterBufferAvail.items ++ queue.items.filterMap InternalCmdReq.slot?)).Nodup :=
      List.perm_middle.nodup_iff.mp apart
    rcases BoundedQueue.addIfRoom_cases L.masterBufferAvail slot with ⟨_, _, added⟩ | ⟨_, full⟩
    · rw [added, List.append_assoc]
      exact apart
    · rw [full]
      exact (List.nodup_cons.mp moved).2

theorem new_wf (opts : Opts) (heap : ListPtr → FilterList) (memory : PoolSlot → List Byte) :
    (Logger.new opts heap memory).Wf := by
  have none : ∀ id, (Logger.new opts heap memory).target id = none := by
    intro id
    simp only [target, Logger.new]
    split <;> rfl
  refine ⟨fun id t found => ?_, fun id t found => ?_, fun id t found => ?_, fun _ _ => rfl,
    fun slot => ?_⟩
  · simp [none] at found
  · simp [none] at found
  · simp [none] at found
  · simp [Logger.new]

theorem addTarget_wf (wf : L.Wf) (kind : TargetKind) (bufferSize : Nat) (id : TargetId)
    (delim : List Byte) (formats : TargetFormats) (logCallbackSet : Bool)
    (noCallbacks : L.owner.pending id = []) :
    (L.putTarget id { LogTarget.new kind bufferSize id delim with
      formats := formats, logCallbackSet := logCallbackSet } L.owner).Wf := by
  let start : BankState := ⟨{ LogTarget.new kind bufferSize id delim with
    formats := formats, logCallbackSet := logCallbackSet }, L.owner⟩
  have new : start.Start := ⟨⟨kind, bufferSize, id, delim, formats, logCallbackSet, rfl⟩, noCallbacks⟩
  exact putTarget_wf wf rfl (BankState.start_wf new) (fun _ => rfl) fun _ _ => rfl

/-- What happens to a target outside the drain loop: its flush timer, the end of a
    write, the delivery of a callback of its own, and disabling it. -/
def TargetAction (t : LogTarget) (o : Owner) : BankAction → Prop
  | .flushAll _ _ | .writeCb | .disableWrites _ => True
  | .callV8LogCallback => ∀ d rest, o.v8LogCallbacks.remove = some (d, rest) →
      (∀ id, id ≠ t.myId → d.bufOf id = none)
  | _ => False

inductive Reachable : Logger → Prop where
  | new (opts : Opts) (heap : ListPtr → FilterList) (memory : PoolSlot → List Byte) :
      Reachable (.new opts heap memory)
  | filterCall {L : Logger} (before : Reachable L) {c : FilterCall} (allowed : c.Allowed L.filters) :
      Reachable { L with filters := L.filters.call c }
  | setOpts {L : Logger} (before : Reachable L) (levelFilterOutMask : LevelMask)
      (defaultFilterOut : Bool) :
      Reachable { L with opts := { L.opts with
        levelFilterOutMask := levelFilterOutMask, defaultFilterOut := defaultFilterOut } }
  | addTarget {L : Logger} (before : Reachable L) (kind : TargetKind) (bufferSize : Nat)
      {id : TargetId} (delim : List Byte) (formats : TargetFormats) (logCallbackSet : Bool)
      (unused : L.target id = none) :
      Reachable (L.putTarget id { LogTarget.new kind bufferSize id delim with
        formats := formats, logCallbackSet := logCallbackSet } L.owner)
  | log {L : Logger} (before : Reachable L) (x : ExtraLogMeta) (s : List Byte) :
      Reachable (L._log x s).1
  | handle {L : Logger} (before : Reachable L) (env : Nat → WriteEnv) :
      Reachable (handleInternalCmd env L).1
  | targetStep {L : Logger} (before : Reachable L) {id : TargetId} {t : LogTarget}
      (found : L.target id = some t) {a : BankAction} (own : TargetAction t L.owner a) :
      Reachable (L.putTarget id (BankState.apply ⟨t, L.owner⟩ a).t (BankState.apply ⟨t, L.owner⟩ a).o)

theorem targetAction_keeps {t : LogTarget} {o : Owner} {a : BankAction} (own : TargetAction t o a) :
    (BankState.apply ⟨t, o⟩ a).t.myId = t.myId ∧
      (∀ b, ((BankState.apply ⟨t, o⟩ a).t.buffers b).delim = (t.buffers b).delim) ∧
      ∀ id, id ≠ t.myId → (BankState.apply ⟨t, o⟩ a).o.pending id = o.pending id := by
  cases a with
  | flushAll doRotate nocallbacks =>
    have handled := LogTarget.flushAll_handled t o doRotate nocallbacks
    exact ⟨handled.setup.config.myId, handled.setup.delims, handled.others⟩
  | writeCb =>
    have setup := (LogTarget.onlyClears_writeCb t o).setup
    refine ⟨setup.config.myId, setup.delims, fun id other => ?_⟩
    simp only [BankState.apply, LogTarget.writeCb]
    split
    · rfl
    · exact LogTarget.returnBuffer_others _ o _ _ other
    · exact LogTarget.returnOverflow_pending t o _ _ id
  | callV8LogCallback =>
    have setup := (LogTarget.onlyClears_callV8LogCallback t o).setup
    refine ⟨setup.config.myId, setup.delims, fun id other => ?_⟩
    simp only [BankState.apply]
    rcases t.callV8LogCallback_cases o with ⟨_, h⟩ | ⟨d, rest, removed, called⟩
    · rw [h]
    · have theirs := Owner.pending_next { o with v8LogCallbacks := rest, needV8 := o.needV8 - 1 } id
        (BoundedQueue.remove_some removed)
      rw [own d rest removed id other, Option.toList_none, List.nil_append] at theirs
      rcases called with ⟨b, _, h⟩ | ⟨_, h⟩ <;> rw [h, theirs]
  | disableWrites v => exact ⟨rfl, fun _ => rfl, fun _ _ => rfl⟩
  | write _ _ _ _ => exact own.elim
  | writeOverflow _ _ _ => exact own.elim
  | rotate => exact own.elim
  | configure _ _ _ => exact own.elim
  | others _ => exact own.elim

theorem targetAction_allowed {t : LogTarget} {o : Owner} {a : BankAction} (own : TargetAction t o a) :
    BankState.Allowed ⟨t, o⟩ a := by
  cases a <;> first | exact trivial | exact own.elim

theorem targetAction_commands {t : LogTarget} {o : Owner} {a : BankAction} (own : TargetAction t o a) :
    (BankState.apply ⟨t, o⟩ a).o.internalCmdQueue = o.internalCmdQueue := by
  cases a with
  | flushAll doRotate nocallbacks => exact flushAll_commands t o doRotate nocallbacks
  | writeCb =>
    simp only [BankState.apply, LogTarget.writeCb]
    split
    · rfl
    · exact returnBuffer_commands _ o _ _
    · simp only [LogTarget.returnOverflow]
      split <;> rfl
  | callV8LogCallback =>
    rcases t.callV8LogCallback_cases o with ⟨_, h⟩ | ⟨_, _, _, ⟨_, _, h⟩ | ⟨_, h⟩⟩ <;>
      simp only [BankState.apply, h]
  | disableWrites v => rfl
  | write _ _ _ _ => exact own.elim
  | writeOverflow _ _ _ => exact own.elim
  | rotate => exact own.elim
  | configure _ _ _ => exact own.elim
  | others _ => exact own.elim

theorem targetStep_wf {id : TargetId} {t : LogTarget} {a : BankAction} (wf : L.Wf)
    (found : L.target id = some t) (own : TargetAction t L.owner a) :
    (L.putTarget id (BankState.apply ⟨t, L.owner⟩ a).t (BankState.apply ⟨t, L.owner⟩ a).o).Wf := by
  obtain ⟨named, delims, others⟩ := targetAction_keeps own
  have same := wf.delims id t found
  refine putTarget_wf wf (named.trans (wf.ids id t found))
    (BankState.apply_wf (wf.banks id t found) (targetAction_allowed own))
    (fun b => ?_) fun other apart => others other (by rwa [wf.ids id t found])
  calc ((BankState.apply ⟨t, L.owner⟩ a).t.buffers b).delim = (t.buffers b).delim := delims b
    _ = t.current.delim := same b
    _ = (t.buffers (BankState.apply ⟨t, L.owner⟩ a).t.currentBuffer).delim := (same _).symm
    _ = (BankState.apply ⟨t, L.owner⟩ a).t.current.delim := (delims _).symm

theorem reachable_wf (reachable : Reachable L) : L.Wf := by
  induction reachable with
  | new opts heap memory => exact new_wf opts heap memory
  | filterCall before allowed wf => exact wf.frame rfl rfl (fun _ => rfl) rfl
  | setOpts before mask filterOut wf => exact wf.frame rfl rfl (fun _ => rfl) rfl
  | addTarget before kind bufferSize delim formats logCallbackSet unused wf =>
    exact addTarget_wf wf kind bufferSize _ delim formats logCallbackSet (wf.absent _ unused)
  | log before x s wf => exact (log_kept wf x s).2
  | handle before env wf => exact (handleInternalCmd_empties env wf).2.1.2
  | targetStep before found own wf => exact targetStep_wf wf found own

theorem putTarget_slots {L : Logger} {o : Owner} (apart : L.SlotsApart) (id : TargetId) (t : LogTarget)
    (commands : o.internalCmdQueue = L.owner.internalCmdQueue) : (L.putTarget id t o).SlotsApart := by
  have owner : (L.putTarget id t o).owner = o := rfl
  rw [SlotsApart, (putTarget_fields L id t o).2.2.2, owner, Owner.queuedSlots, commands]
  exact apart

theorem reachable_slots (reachable : Reachable L) : L.SlotsApart := by
  induction reachable with
  | new opts heap memory =>
    have all : (List.finRange PRIMARY_BUFFER_ENTRIES ++ []).Nodup := by
      rw [List.append_nil]
      exact List.nodup_finRange _
    exact all
  | filterCall before allowed ih => exact ih
  | setOpts before mask filterOut ih => exact ih
  | @addTarget L before kind bufferSize id delim formats logCallbackSet unused ih =>
    exact putTarget_slots ih id _ rfl
  | log before x s ih => exact log_slots ih x s
  | handle before env ih =>
    exact Worklist.drain_keeps (fun _ _ _ apart took => handleReq_slots env apart took) _ ih
  | @targetStep L before id t found a own ih =>
    exact putTarget_slots ih id _ (targetAction_commands own)

end Logger

end GreaseLog
