import Mathlib.Data.List.Perm.Basic
import GreaseLog.Banks
import GreaseLog.Logger
import GreaseLog.Lib.Runs

/- The primary buffer pool under any interleaving of _log calls with the logger
   thread. A buffer is lost exactly where _log finds internalCmdQueue full. -/
namespace GreaseLog

/-- The logger, the buffers that _log calls hold, and the NEW_LOG command being
    handled with the writes still to make. -/
structure PoolState where
  L : Logger
  running : List PoolSlot := []
  handling : Option (PoolSlot × List Selected) := none

inductive PoolAction where
  | logTake
  | logEnqueue (slot : PoolSlot) (x : ExtraLogMeta) (s : List Byte)
  | logOverflow (x : ExtraLogMeta) (s : List Byte)
  | handlerTake
  | handlerWrite
  | handlerReturn
  /-- Whatever leaves the pool and the commands alone. -/
  | others (L : Logger)

def InternalCmdReq.slot? : InternalCmdReq → Option PoolSlot
  | .newLog slot => some slot
  | _ => none

def Owner.queuedSlots (o : Owner) : List PoolSlot :=
  o.internalCmdQueue.items.filterMap InternalCmdReq.slot?

namespace PoolState
variable (env : Nat → WriteEnv)

inductive Step : PoolState → PoolAction → PoolState → Prop where
  | logTake {s : PoolState} {slot : PoolSlot} {L : Logger} (took : s.L.takeBuffer = some (slot, L)) :
      Step s .logTake { s with L := L, running := slot :: s.running }
  | logEnqueue {s : PoolState} {slot : PoolSlot} (x : ExtraLogMeta) {text : List Byte}
      (fits : text.length ≤ s.L.opts.bufferSize) (held : slot ∈ s.running) :
      Step s (.logEnqueue slot x text)
        { s with L := (s.L.enqueueBuffer slot x text).1, running := s.running.erase slot }
  | logOverflow {s : PoolState} (x : ExtraLogMeta) {text : List Byte}
      (large : s.L.opts.bufferSize < text.length) :
      Step s (.logOverflow x text) { s with L := (s.L.enqueueOverflow x text).1 }
  | takeNewLog {s : PoolState} {slot : PoolSlot}
      {rest : BoundedQueue InternalCmdReq INTERNAL_QUEUE_SIZE} (idle : s.handling = none)
      (took : s.L.owner.internalCmdQueue.remove = some (.newLog slot, rest)) :
      Step s .handlerTake { s with
        L := { s.L with owner := { s.L.owner with internalCmdQueue := rest } }
        handling := some (slot, s.L.routed (s.L.pool slot).extraMeta) }
  | takeOther {s : PoolState} {req : InternalCmdReq}
      {rest : BoundedQueue InternalCmdReq INTERNAL_QUEUE_SIZE} (idle : s.handling = none)
      (took : s.L.owner.internalCmdQueue.remove = some (req, rest)) (other : req.slot? = none) :
      Step s .handlerTake { s with
        L := (Logger.handleReq env
          { s.L with owner := { s.L.owner with internalCmdQueue := rest } } req).1 }
  | handlerWrite {s : PoolState} {slot : PoolSlot} {call : Selected} {calls : List Selected}
      (busy : s.handling = some (slot, call :: calls)) :
      Step s .handlerWrite { s with
        L := (Logger.writeTo env s.L ((s.L.pool slot).buf.bytes.take (s.L.pool slot).buf.used)
          (s.L.sifted (s.L.pool slot).extraMeta).m call).1
        handling := some (slot, calls) }
  | handlerReturn {s : PoolState} {slot : PoolSlot} (busy : s.handling = some (slot, [])) :
      Step s .handlerReturn { s with
        L := s.L.giveBack slot
        handling := none }
  | others {s : PoolState} {L : Logger} (pool : L.masterBufferAvail = s.L.masterBufferAvail)
      (commands : L.owner.internalCmdQueue = s.L.owner.internalCmdQueue) :
      Step s (.others L) { s with L := L }

def places (s : PoolState) : List PoolSlot :=
  s.L.masterBufferAvail.items ++ s.L.owner.queuedSlots ++ s.running ++
    (s.handling.map Prod.fst).toList

def Conserved (s : PoolState) : Prop :=
  s.places.Perm (List.finRange PRIMARY_BUFFER_ENTRIES)

def RoomToEnqueue (s : PoolState) : PoolAction → Prop
  | .logEnqueue _ _ _ => s.L.owner.HasRoom
  | _ => True

end PoolState

theorem conserved_count {s : PoolState} (conserved : s.Conserved) (slot : PoolSlot) :
    s.places.count slot = (List.finRange PRIMARY_BUFFER_ENTRIES).count slot :=
  List.perm_iff_count.mp conserved slot

/-! The commands that write() and flushAll() add carry no buffer of the pool. -/

theorem queuedSlots_add (o : Owner) (req : InternalCmdReq) (other : req.slot? = none) :
    (o.addCmd req).1.queuedSlots = o.queuedSlots := by
  by_cases room : o.HasRoom
  · simp [Owner.queuedSlots, (Owner.addCmd_room req room).2, List.filterMap_append, other]
  · simp [Owner.addCmd_full req room]

theorem write_slots (t : LogTarget) (o : Owner) (env : WriteEnv) (s : List Byte) (m : LogMeta)
    (filter : Filter) : (t.write o env s m filter).2.1.queuedSlots = o.queuedSlots := by
  unfold LogTarget.write
  split
  · rfl
  · split
    · exact queuedSlots_add o _ rfl
    · simp only
      split
      · simp only
        split <;> rfl
      · split
        · split
          · exact queuedSlots_add o _ rfl
          · rfl
        · rfl

theorem returnBuffer_commands (t : LogTarget) (o : Owner) (b : BufId) (nocallback : Bool) :
    (t.returnBuffer o b nocallback).2.internalCmdQueue = o.internalCmdQueue := by
  obtain ⟨o', _, commands, released | ⟨_, waiting⟩⟩ := t.returnBuffer_cases o b nocallback
  · rw [released]
    exact commands
  · rw [waiting]
    exact commands

theorem flushOut_commands (t : LogTarget) (o : Owner) (nocallbacks : Bool) (out : List BufId) :
    (t.flushOut o nocallbacks out).2.internalCmdQueue = o.internalCmdQueue := by
  induction out generalizing t o with
  | nil => rfl
  | cons b rest ih =>
    rw [LogTarget.flushOut, ih]
    rcases LogTarget.flush_cases t o b nocallbacks with ⟨_, h⟩ | ⟨_, h⟩ <;> rw [h]
    exact returnBuffer_commands t o b nocallbacks

theorem flushAll_commands (t : LogTarget) (o : Owner) (doRotate nocallbacks : Bool) :
    (t.flushAll o doRotate nocallbacks).2.1.internalCmdQueue = o.internalCmdQueue :=
  flushOut_commands _ _ _ _

theorem writeOverflow_commands (t : LogTarget) (o : Owner) (env : WriteEnv) (log : SingleLog)
    (filter : Filter) :
    (t.writeOverflow o env log filter).2.1.internalCmdQueue = o.internalCmdQueue := by
  unfold LogTarget.writeOverflow LogTarget.writeAsyncOverflow LogTarget.returnOverflow
  split
  · rfl
  · simp only
    split
    · rfl
    · split <;> rfl
    · split
      · rfl
      · split <;> rfl

theorem flushOutSync_commands (t : LogTarget) (o : Owner) (out : List BufId) :
    (t.flushOutSync o out).2.1.internalCmdQueue = o.internalCmdQueue := by
  induction out generalizing t o with
  | nil => rfl
  | cons b rest ih =>
    rw [LogTarget.flushOutSync]
    refine (ih _ _).trans ?_
    simp only [LogTarget.flushSync]
    split <;> rfl

theorem flushAllSync_commands (t : LogTarget) (o : Owner) (doRotate : Bool) :
    (t.flushAllSync o doRotate).2.1.internalCmdQueue = o.internalCmdQueue :=
  flushOutSync_commands _ _ _

namespace Logger
variable (env : Nat → WriteEnv)

theorem putTarget_fields (L : Logger) (id : TargetId) (t : LogTarget) (o : Owner) :
    (L.putTarget id t o).filters = L.filters ∧ (L.putTarget id t o).opts = L.opts ∧
      (L.putTarget id t o).pool = L.pool ∧
      (L.putTarget id t o).masterBufferAvail = L.masterBufferAvail := by
  unfold putTarget setTarget
  split <;> exact ⟨rfl, rfl, rfl, rfl⟩

theorem writeTo_pool (L : Logger) (s : List Byte) (m : LogMeta) (call : Selected) :
    (writeTo env L s m call).1.masterBufferAvail = L.masterBufferAvail ∧
      (writeTo env L s m call).1.pool = L.pool ∧
      (writeTo env L s m call).1.owner.queuedSlots = L.owner.queuedSlots := by
  unfold writeTo
  split
  · exact ⟨rfl, rfl, rfl⟩
  · rename_i t _
    obtain ⟨_, _, pool, avail⟩ := putTarget_fields L call.target
      (t.write L.owner (env L.calls) s m call.filter).1
      (t.write L.owner (env L.calls) s m call.filter).2.1
    exact ⟨avail, pool, write_slots t _ _ _ _ _⟩

theorem writeTo_rules (L : Logger) (s : List Byte) (m : LogMeta) (call : Selected) :
    (writeTo env L s m call).1.filters = L.filters ∧ (writeTo env L s m call).1.opts = L.opts := by
  unfold writeTo
  split
  · exact ⟨rfl, rfl⟩
  · rename_i t _
    obtain ⟨filters, opts, _, _⟩ := putTarget_fields L call.target
      (t.write L.owner (env L.calls) s m call.filter).1
      (t.write L.owner (env L.calls) s m call.filter).2.1
    exact ⟨filters, opts⟩

theorem overflowTo_pool (L : Logger) (l : SingleLog) (call : Selected) :
    (overflowTo env L l call).1.masterBufferAvail = L.masterBufferAvail ∧
      (overflowTo env L l call).1.owner.internalCmdQueue = L.owner.internalCmdQueue := by
  unfold overflowTo
  split
  · exact ⟨rfl, rfl⟩
  · rename_i t _
    refine ⟨(putTarget_fields L call.target _ L.owner).2.2.2, ?_⟩
    exact (writeOverflow_commands _ _ _ _ _).trans (flushAll_commands t L.owner true false)

theorem callAll_overflowTo_pool (l : SingleLog) (calls : List Selected) (L : Logger) :
    (callAll (fun L call => overflowTo env L l call) L calls).1.masterBufferAvail =
        L.masterBufferAvail ∧
      (callAll (fun L call => overflowTo env L l call) L calls).1.owner.internalCmdQueue =
        L.owner.internalCmdQueue := by
  induction calls generalizing L with
  | nil => exact ⟨rfl, rfl⟩
  | cons call rest ih =>
    obtain ⟨avail, commands⟩ := ih (overflowTo env L l call).1
    obtain ⟨avail', commands'⟩ := overflowTo_pool env L l call
    exact ⟨avail.trans avail', commands.trans commands'⟩

theorem flushTargetSync_pool (L : Logger) (id : TargetId) :
    (L.flushTargetSync id).masterBufferAvail = L.masterBufferAvail ∧
      (L.flushTargetSync id).owner.internalCmdQueue = L.owner.internalCmdQueue := by
  unfold flushTargetSync
  split
  · exact ⟨rfl, rfl⟩
  · rename_i t _
    exact ⟨(putTarget_fields L id _ L.owner).2.2.2, flushAllSync_commands t L.owner true⟩

theorem flushTargets_pool (ids : List TargetId) (L : Logger) :
    (ids.foldl flushTargetSync L).masterBufferAvail = L.masterBufferAvail ∧
      (ids.foldl flushTargetSync L).owner.internalCmdQueue = L.owner.internalCmdQueue := by
  induction ids generalizing L with
  | nil => exact ⟨rfl, rfl⟩
  | cons id rest ih =>
    obtain ⟨avail, commands⟩ := ih (L.flushTargetSync id)
    obtain ⟨avail', commands'⟩ := flushTargetSync_pool L id
    exact ⟨avail.trans avail', commands.trans commands'⟩

theorem handleReq_pool (L : Logger) {req : InternalCmdReq} (other : req.slot? = none) :
    (handleReq env L req).1.masterBufferAvail = L.masterBufferAvail ∧
      (handleReq env L req).1.owner.internalCmdQueue = L.owner.internalCmdQueue := by
  cases req with
  | newLog slot => simp [InternalCmdReq.slot?] at other
  | targetRotateBuffer d =>
    simp only [handleReq, handleRotate]
    split
    · exact ⟨rfl, rfl⟩
    · rename_i t _
      exact ⟨(putTarget_fields L d _ L.owner).2.2.2, flushAll_commands t L.owner false false⟩
  | writeTargetOverflow d l =>
    exact callAll_overflowTo_pool env { l with extraMeta := L.sifted l.extraMeta }
      (L.routed l.extraMeta) L
  | internalShutdown =>
    exact flushTargets_pool (0 :: L.targets.keys) L

theorem takeBuffer_some {L L' : Logger} {slot : PoolSlot} (took : L.takeBuffer = some (slot, L')) :
    L.masterBufferAvail.items = slot :: L'.masterBufferAvail.items ∧ L'.owner = L.owner ∧
      L'.opts = L.opts := by
  obtain ⟨⟨first, rest⟩, removed, eq⟩ := Option.map_eq_some_iff.mp took
  obtain ⟨rfl, rfl⟩ := Prod.mk.inj eq
  exact ⟨BoundedQueue.remove_some removed, rfl, rfl⟩

end Logger

namespace PoolState
variable {env : Nat → WriteEnv} {s s' : PoolState} {a : PoolAction}

theorem step_conserved (conserved : s.Conserved) (room : s.RoomToEnqueue a)
    (step : Step env s a s') : s'.Conserved := by
  refine List.perm_iff_count.mpr fun slot => ?_
  rw [← conserved_count conserved slot]
  cases step with
  | logTake took =>
    obtain ⟨items, owner, _⟩ := Logger.takeBuffer_some took
    simp only [places, items, owner, List.count_append, List.count_cons]
    omega
  | @logEnqueue held x text fits mem =>
    have queued : (s.L.enqueueBuffer held x text).1.owner.queuedSlots =
        s.L.owner.queuedSlots ++ [held] := by
      simp only [Logger.enqueueBuffer, Owner.queuedSlots, (Owner.addCmd_room _ room).2,
        List.filterMap_append]
      rfl
    have erased := List.count_erase (a := slot) (b := held) (l := s.running)
    have member : 0 < s.running.count held := List.count_pos_iff.mpr mem
    simp only [places, queued, List.count_append, List.count_cons, List.count_nil, erased]
    by_cases same : held = slot
    · subst same
      simp only [Logger.enqueueBuffer, beq_self_eq_true, if_true]
      omega
    · have ne : (held == slot) = false := by simpa using same
      simp only [Logger.enqueueBuffer, ne, Bool.false_eq_true, if_false]
      omega
  | @logOverflow x text large =>
    have queued : (s.L.enqueueOverflow x text).1.owner.queuedSlots = s.L.owner.queuedSlots :=
      queuedSlots_add _ _ rfl
    simp only [places, queued]
    rfl
  | @takeNewLog taken rest idle took =>
    have items := BoundedQueue.remove_some took
    simp only [places, idle, Owner.queuedSlots, items, List.filterMap_cons, InternalCmdReq.slot?,
      Option.map_some, Option.map_none, Option.toList_some, Option.toList_none, List.count_append,
      List.count_cons, List.count_nil]
    omega
  | @takeOther req rest idle took other =>
    have items := BoundedQueue.remove_some took
    obtain ⟨avail, commands⟩ := Logger.handleReq_pool env
      { s.L with owner := { s.L.owner with internalCmdQueue := rest } } other
    simp only [places, Owner.queuedSlots, avail, commands, items, List.filterMap_cons, other]
  | @handlerWrite taken call calls busy =>
    obtain ⟨avail, _, queued⟩ := Logger.writeTo_pool env s.L
      ((s.L.pool taken).buf.bytes.take (s.L.pool taken).buf.used)
      (s.L.sifted (s.L.pool taken).extraMeta).m call
    simp only [places, avail, queued, busy, Option.map_some]
  | @handlerReturn held busy =>
    have available : s.L.masterBufferAvail.HasRoom := by
      have total := conserved.length_eq
      rw [List.length_finRange] at total
      simp only [places, busy, List.length_append, Option.map_some, Option.toList_some,
        List.length_singleton] at total
      unfold BoundedQueue.HasRoom
      omega
    simp only [places, Logger.giveBack, busy, (BoundedQueue.addIfRoom_room held available).2,
      Option.map_some,
      Option.map_none, Option.toList_some, Option.toList_none, List.count_append, List.count_cons,
      List.count_nil]
    omega
  | others pool commands => simp only [places, Owner.queuedSlots, pool, commands]

theorem new_conserved (opts : Opts) (heap : ListPtr → FilterList) (memory : PoolSlot → List Byte) :
    (⟨Logger.new opts heap memory, [], none⟩ : PoolState).Conserved := by
  simp [Conserved, places, Logger.new, Owner.queuedSlots]

/-- In a run where each _log call finds room for the command of its buffer, every
    buffer is in one place, and an idle logger has all of them in the pool or in
    queued commands. -/
theorem roomy_run_conserves (opts : Opts) (heap : ListPtr → FilterList)
    (memory : PoolSlot → List Byte) {actions : List PoolAction}
    (run : Runs.Run (Runs.Guard RoomToEnqueue (Step env)) ⟨Logger.new opts heap memory, [], none⟩
      actions s) :
    s.Conserved ∧ (s.running = [] → s.handling = none →
      s.L.masterBufferAvail.remaining + s.L.owner.queuedSlots.length = PRIMARY_BUFFER_ENTRIES) := by
  have conserved : s.Conserved :=
    Runs.run_invariant Conserved (new_conserved opts heap memory)
      (fun _ _ _ inv step => step_conserved inv step.1 step.2) run
  refine ⟨conserved, fun idle free => ?_⟩
  have total := conserved.length_eq
  rw [List.length_finRange] at total
  simpa [places, idle, free, BoundedQueue.remaining] using total

/-! The functions of the logger are runs of these steps. -/

theorem log_run (env : Nat → WriteEnv) (s : PoolState) (x : ExtraLogMeta) (text : List Byte) :
    ∃ actions, Runs.Run (Step env) s actions { s with L := (s.L._log x text).1 } := by
  unfold Logger._log
  split
  · rename_i large
    exact ⟨_, Runs.run_one (.logOverflow x large)⟩
  · rename_i small
    split
    · rename_i slot L took
      have fits : text.length ≤ L.opts.bufferSize := by
        rw [(Logger.takeBuffer_some took).2.2]
        exact Nat.le_of_not_gt small
      let holding : PoolState := { s with L := L, running := slot :: s.running }
      have taken : Step env s .logTake holding := .logTake took
      have enqueued : Step env holding (.logEnqueue slot x text) _ :=
        .logEnqueue x fits (List.mem_cons_self ..)
      have back : holding.running.erase slot = s.running := List.erase_cons_head ..
      rw [back] at enqueued
      exact ⟨_, (Runs.run_one taken).next enqueued⟩
    · exact ⟨[], .start⟩

theorem writes_run (env : Nat → WriteEnv) (s : PoolState) (slot : PoolSlot) (calls : List Selected)
    (busy : s.handling = some (slot, calls)) :
    ∃ actions, Runs.Run (Step env) s actions { s with
      L := (Logger.callAll (fun L call => Logger.writeTo env L
        ((s.L.pool slot).buf.bytes.take (s.L.pool slot).buf.used)
        (s.L.sifted (s.L.pool slot).extraMeta).m call) s.L calls).1
      handling := some (slot, []) } := by
  induction calls generalizing s with
  | nil =>
    refine ⟨[], ?_⟩
    have same : { s with L := s.L, handling := some (slot, []) } = s := by
      rw [← busy]
    simp only [Logger.callAll, same]
    exact .start
  | cons call rest ih =>
    let text := (s.L.pool slot).buf.bytes.take (s.L.pool slot).buf.used
    let m := (s.L.sifted (s.L.pool slot).extraMeta).m
    let written : PoolState :=
      { s with L := (Logger.writeTo env s.L text m call).1, handling := some (slot, rest) }
    have step : Step env s .handlerWrite written := .handlerWrite busy
    have pool : written.L.pool = s.L.pool := (Logger.writeTo_pool env s.L text m call).2.1
    have sifted : written.L.sifted = s.L.sifted := by
      obtain ⟨filters, opts⟩ := Logger.writeTo_rules env s.L text m call
      funext x
      simp only [Logger.sifted, written, filters, opts]
    obtain ⟨actions, run⟩ := ih written rfl
    rw [pool, sifted] at run
    exact ⟨_, Runs.run_append (Runs.run_one step) run⟩

theorem handle_run (env : Nat → WriteEnv) (s : PoolState) (idle : s.handling = none) {req : InternalCmdReq}
    {rest : BoundedQueue InternalCmdReq INTERNAL_QUEUE_SIZE}
    (took : s.L.owner.internalCmdQueue.remove = some (req, rest)) :
    ∃ actions, Runs.Run (Step env) s actions { s with
      L := (Logger.handleReq env
        { s.L with owner := { s.L.owner with internalCmdQueue := rest } } req).1 } := by
  cases kind : req.slot? with
  | none => exact ⟨_, Runs.run_one (.takeOther idle took kind)⟩
  | some slot =>
    obtain rfl : req = .newLog slot := by
      cases req <;> simp_all [InternalCmdReq.slot?]
    let busy : PoolState := { s with
      L := { s.L with owner := { s.L.owner with internalCmdQueue := rest } }
      handling := some (slot, s.L.routed (s.L.pool slot).extraMeta) }
    have taken : Step env s .handlerTake busy := .takeNewLog idle took
    obtain ⟨actions, run⟩ := writes_run env busy slot _ rfl
    have returned := (Runs.run_append (Runs.run_one taken) run).next (.handlerReturn rfl)
    have stays : ∀ L : Logger, ({ s with L := L, handling := none } : PoolState) = { s with L := L } :=
      fun L => by rw [← idle]
    refine ⟨[.handlerTake] ++ actions ++ [.handlerReturn], ?_⟩
    rw [← stays]
    exact returned

def freshPool : PoolState := ⟨Logger.new {} (fun _ => .new) fun _ => [], [], none⟩

def untagged : ExtraLogMeta := ⟨noMetaData, SingleLog.noIgnores⟩

/-- One short message is logged. -/
theorem roomy_run_conserves_one :
    ∃ s actions, Runs.Run (Runs.Guard RoomToEnqueue (Step plainEnvs)) freshPool actions s ∧
      actions.length = 2 ∧ s.L.masterBufferAvail.remaining = PRIMARY_BUFFER_ENTRIES - 1 ∧
      s.L.masterBufferAvail.remaining + s.L.owner.queuedSlots.length = PRIMARY_BUFFER_ENTRIES := by
  obtain ⟨L, took⟩ : ∃ L, freshPool.L.takeBuffer = some (0, L) := ⟨_, rfl⟩
  obtain ⟨items, owner, opts⟩ := Logger.takeBuffer_some took
  let holding : PoolState := { freshPool with L := L, running := [0] }
  have taken : Step plainEnvs freshPool .logTake holding := .logTake took
  have fits : [(97 : Byte)].length ≤ holding.L.opts.bufferSize := by
    rw [show holding.L.opts = {} from opts]
    decide
  have enqueued : Step plainEnvs holding (.logEnqueue 0 untagged [97]) _ :=
    .logEnqueue untagged fits (List.mem_singleton_self 0)
  have room : holding.L.owner.HasRoom := by
    rw [show holding.L.owner = {} from owner]
    decide
  have first : Runs.Guard RoomToEnqueue (Step plainEnvs) freshPool .logTake holding := ⟨trivial, taken⟩
  have second : Runs.Guard RoomToEnqueue (Step plainEnvs) holding (.logEnqueue 0 untagged [97]) _ :=
    ⟨room, enqueued⟩
  have run := (Runs.Run.start.next first).next second
  have remaining : L.masterBufferAvail.remaining = PRIMARY_BUFFER_ENTRIES - 1 := by
    have total := congrArg List.length items
    simp only [freshPool, Logger.new, List.length_finRange, List.length_cons] at total
    change L.masterBufferAvail.items.length = _
    omega
  exact ⟨_, _, run, rfl, remaining,
    (roomy_run_conserves {} (fun _ => .new) (fun _ => []) run).2 rfl rfl⟩

def largeText : List Byte := List.replicate 2001 97

/-- Overflow messages fill the queue without taking a buffer. -/
theorem overflow_run (env : Nat → WriteEnv) (n : Nat) (room : n ≤ INTERNAL_QUEUE_SIZE) :
    ∃ s, Runs.Run (Step env) freshPool (List.replicate n (.logOverflow untagged largeText)) s ∧
      s.L.owner.internalCmdQueue.items.length = n ∧ s.L.owner.queuedSlots = [] ∧
      s.L.masterBufferAvail = freshPool.L.masterBufferAvail ∧ s.L.opts = {} ∧ s.running = [] ∧
      s.handling = none := by
  induction n with
  | zero => exact ⟨freshPool, .start, rfl, rfl, rfl, rfl, rfl, rfl⟩
  | succ n ih =>
    obtain ⟨s, run, length, queued, pool, opts, running, handling⟩ := ih (Nat.le_of_succ_le room)
    have large : s.L.opts.bufferSize < largeText.length := by
      rw [opts, largeText, List.length_replicate]
      decide
    have added := Owner.addCmd_room (o := s.L.owner)
      (.writeTargetOverflow 0 (Logger.overflowLog untagged largeText)) (by
        unfold Owner.HasRoom BoundedQueue.HasRoom
        omega)
    refine ⟨{ s with L := (s.L.enqueueOverflow untagged largeText).1 }, ?_, ?_, ?_, pool, opts,
      running, handling⟩
    · rw [List.replicate_succ']
      exact run.next (.logOverflow untagged large)
    · simp only [Logger.enqueueOverflow, added.2, List.length_append, length,
        List.length_singleton]
    · exact (queuedSlots_add _ _ rfl).trans queued

/-- 200 overflow messages and then a short one: its buffer is nowhere. -/
theorem full_queue_loses_buffer :
    ∃ s actions, Runs.Run (Step plainEnvs) freshPool actions s ∧ s.running = [] ∧ s.handling = none ∧
      ¬ s.Conserved ∧
      s.L.masterBufferAvail.remaining + s.L.owner.queuedSlots.length = PRIMARY_BUFFER_ENTRIES - 1 := by
  obtain ⟨s, run, length, queued, pool, opts, running, handling⟩ :=
    overflow_run plainEnvs INTERNAL_QUEUE_SIZE le_rfl
  obtain ⟨L, took⟩ : ∃ L, s.L.takeBuffer = some (0, L) := by
    unfold Logger.takeBuffer
    rw [pool]
    exact ⟨_, rfl⟩
  obtain ⟨items, owner, opts'⟩ := Logger.takeBuffer_some took
  let holding : PoolState := { s with L := L, running := 0 :: s.running }
  have taken : Step plainEnvs s .logTake holding := .logTake took
  have fits : [(97 : Byte)].length ≤ holding.L.opts.bufferSize := by
    rw [show holding.L.opts = s.L.opts from opts', opts]
    decide
  have enqueued : Step plainEnvs holding (.logEnqueue 0 untagged [97]) _ :=
    .logEnqueue untagged fits (List.mem_cons_self ..)
  have full : ¬ holding.L.owner.HasRoom := by
    rw [show holding.L.owner = s.L.owner from owner]
    unfold Owner.HasRoom BoundedQueue.HasRoom
    omega
  let lost : PoolState := { holding with
    L := (holding.L.enqueueBuffer 0 untagged [97]).1, running := holding.running.erase 0 }
  have sameQueue : lost.L.owner.queuedSlots = [] := by
    simp only [lost, Logger.enqueueBuffer, Owner.addCmd_full _ full]
    rw [show holding.L.owner = s.L.owner from owner, queued]
  have remaining : lost.L.masterBufferAvail.remaining = PRIMARY_BUFFER_ENTRIES - 1 := by
    have total := congrArg List.length items
    rw [pool] at total
    simp only [freshPool, Logger.new, List.length_finRange, List.length_cons] at total
    change L.masterBufferAvail.items.length = _
    omega
  have idle : lost.running = [] := by
    simp only [lost, holding, List.erase_cons_head, running]
  refine ⟨lost, _, (run.next taken).next enqueued, idle, handling, fun conserved => ?_, ?_⟩
  · have total := conserved.length_eq
    have free : lost.handling = none := handling
    unfold BoundedQueue.remaining at remaining
    simp [places, idle, free, sameQueue, remaining] at total
  · rw [remaining, sameQueue]
    rfl

end PoolState

end GreaseLog
