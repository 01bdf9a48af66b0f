import GreaseLog.LogTarget
import GreaseLog.Routing
import GreaseLog.Lib.Worklist

/- The logger: _log, and handleInternalCmd with its drain loop (logger.cc). What a
   command makes it do is recorded as a list of events. -/
namespace GreaseLog

structure Logger where
  opts : Opts := {}
  filters : FilterTable
  targets : KHash TargetId LogTarget := ∅
  defaultTarget : Option LogTarget := none
  masterBufferAvail : BoundedQueue PoolSlot PRIMARY_BUFFER_ENTRIES
  /-- The singleLog buffers of the pool. -/
  pool : PoolSlot → SingleLog
  owner : Owner := {}
  /-- The number of calls of write() and writeOverflow() made so far. -/
  calls : Nat := 0

def plainEnvs : Nat → WriteEnv := fun _ => plainEnv

inductive Event where
  | write (call : Selected) (outcome : WriteOutcome)
  | overflow (call : Selected) (flushed : RotateOutcome) (emitted : Bool)
  | rotate (target : TargetId)
  deriving DecidableEq

inductive LogResult where
  | queued
  | queueFull
  | poolEmpty
  deriving DecidableEq

namespace Logger

/-- The constructor, for whatever malloc returns. -/
def new (opts : Opts) (heap : ListPtr → FilterList) (memory : PoolSlot → List Byte) : Logger where
  opts := opts
  filters := .init heap
  masterBufferAvail := ⟨List.finRange PRIMARY_BUFFER_ENTRIES, by simp⟩
  pool := fun slot => { SingleLog.alloc opts.bufferSize with
    buf := { bytes := (memory slot ++ List.replicate opts.bufferSize 0).take opts.bufferSize } }

/-- getTarget, where 0 is the default target. -/
def target (L : Logger) (id : TargetId) : Option LogTarget :=
  if id = 0 then L.defaultTarget else L.targets.lookup id

def setTarget (L : Logger) (id : TargetId) (t : LogTarget) : Logger :=
  if id = 0 then { L with defaultTarget := some t }
  else { L with targets := L.targets.insert id t }

def putTarget (L : Logger) (id : TargetId) (t : LogTarget) (o : Owner) : Logger :=
  { L.setTarget id t with owner := o }

def registered (L : Logger) (id : TargetId) : Bool := (L.targets.lookup id).isSome

/-- What _log puts into the queue for a text that the pool buffers are too small for. -/
def overflowLog (x : ExtraLogMeta) (s : List Byte) : SingleLog :=
  let l := SingleLog.alloc (min s.length MAX_LOG_MESSAGE_SIZE)
  { l with buf := l.buf.memcpyAppend s overflowEnding }.setMeta x

def fillBuffer (l : SingleLog) (x : ExtraLogMeta) (s : List Byte) : SingleLog :=
  { l with buf := l.buf.memcpy s }.setMeta x

def takeBuffer (L : Logger) : Option (PoolSlot × Logger) :=
  L.masterBufferAvail.remove.map fun r => (r.1, { L with masterBufferAvail := r.2 })

/-- The rest of _log with the buffer it took: a full queue drops the command, and
    nothing puts the buffer back. -/
def enqueueBuffer (L : Logger) (slot : PoolSlot) (x : ExtraLogMeta) (s : List Byte) :
    Logger × LogResult :=
  let added := L.owner.addCmd (.newLog slot)
  ({ L with
      pool := Function.update L.pool slot (fillBuffer (L.pool slot) x s)
      owner := added.1 }, if added.2 then .queued else .queueFull)

def enqueueOverflow (L : Logger) (x : ExtraLogMeta) (s : List Byte) : Logger × LogResult :=
  let added := L.owner.addCmd (.writeTargetOverflow 0 (overflowLog x s))
  ({ L with owner := added.1 }, if added.2 then .queued else .queueFull)

def _log (L : Logger) (x : ExtraLogMeta) (s : List Byte) : Logger × LogResult :=
  if s.length > L.opts.bufferSize then L.enqueueOverflow x s
  else
    match L.takeBuffer with
    | some (slot, L) => L.enqueueBuffer slot x s
    | none => (L, .poolEmpty)

variable (env : Nat → WriteEnv)

def writeTo (L : Logger) (s : List Byte) (m : LogMeta) (call : Selected) : Logger × List Event :=
  match L.target call.target with
  | none => (L, [])
  | some t =>
    let r := t.write L.owner (env L.calls) s m call.filter
    ({ L.putTarget call.target r.1 r.2.1 with calls := L.calls + 1 }, [.write call r.2.2])

/-- t->flushAll(); t->writeOverflow(...) in the WRITE_TARGET_OVERFLOW branch. -/
def overflowTo (L : Logger) (l : SingleLog) (call : Selected) : Logger × List Event :=
  match L.target call.target with
  | none => (L, [])
  | some t =>
    let flushed := t.flushAll L.owner true false
    let r := flushed.1.writeOverflow flushed.2.1 (env L.calls) l call.filter
    ({ L.putTarget call.target r.1 r.2.1 with calls := L.calls + 1 },
      [.overflow call flushed.2.2 r.2.2.1])

def callAll (act : Logger → Selected → Logger × List Event) :
    Logger → List Selected → Logger × List Event
  | L, [] => (L, [])
  | L, call :: rest =>
    let done := act L call
    let others := callAll act done.1 rest
    (others.1, done.2 ++ others.2)

def routed (L : Logger) (x : ExtraLogMeta) : List Selected :=
  let r := sift L.filters L.opts x.m
  if r.1 then route L.filters L.registered L.defaultTarget.isSome { x with m := r.2 } else []

def sifted (L : Logger) (x : ExtraLogMeta) : ExtraLogMeta :=
  { x with m := (sift L.filters L.opts x.m).2 }

def giveBack (L : Logger) (slot : PoolSlot) : Logger :=
  { L with
    pool := Function.update L.pool slot (L.pool slot).clear
    masterBufferAvail := (L.masterBufferAvail.addIfRoom slot).1 }

def handleNewLog (L : Logger) (slot : PoolSlot) : Logger × List Event :=
  let l := L.pool slot
  let m := (L.sifted l.extraMeta).m
  let r := callAll (fun L call => writeTo env L (l.buf.bytes.take l.buf.used) m call) L
    (L.routed l.extraMeta)
  (r.1.giveBack slot, r.2)

/-- WRITE_TARGET_OVERFLOW: req.d is not looked at. -/
def handleOverflow (L : Logger) (l : SingleLog) : Logger × List Event :=
  let sent := { l with extraMeta := L.sifted l.extraMeta }
  callAll (fun L call => overflowTo env L sent call) L (L.routed l.extraMeta)

def handleRotate (L : Logger) (d : TargetId) : Logger × List Event :=
  match L.target d with
  | none => (L, [])
  | some t =>
    let r := t.flushAll L.owner false false
    (L.putTarget d r.1 r.2.1, [.rotate d])

def flushTargetSync (L : Logger) (id : TargetId) : Logger :=
  match L.target id with
  | none => L
  | some t =>
    let r := t.flushAllSync L.owner true
    L.putTarget id r.1 r.2.1

/-- INTERNAL_SHUTDOWN: flushAllSync(true, true). -/
def handleShutdown (L : Logger) : Logger :=
  (0 :: L.targets.keys).foldl flushTargetSync L

def handleReq (L : Logger) : InternalCmdReq → Logger × List Event
  | .newLog slot => handleNewLog env L slot
  | .targetRotateBuffer d => handleRotate L d
  | .writeTargetOverflow _ l => handleOverflow env L l
  | .internalShutdown => (L.handleShutdown, [])

def removeReq (L : Logger) : Option (InternalCmdReq × Logger) :=
  L.owner.internalCmdQueue.remove.map fun r =>
    (r.1, { L with owner := { L.owner with internalCmdQueue := r.2 } })

/-- while(internalCmdQueue.removeMv(req)), at most so many times. -/
def drain : Nat → Logger → Logger × List Event := Worklist.drain removeReq (handleReq env)

/-- The calls that one message can lead to: every slot of every cached list, and
    the default target. -/
def MAX_CALLS : Nat := GREASE_META_HASHLIST_CACHE_SIZE * MAX_IDENTICAL_FILTERS + 1

/-- The commands that the handling of this one can take, itself included. -/
def cost : InternalCmdReq → Nat
  | .newLog _ => 1 + MAX_CALLS
  | _ => 1

def handleInternalCmd (L : Logger) : Logger × List Event :=
  drain env (L.owner.internalCmdQueue.items.map cost).sum L

end Logger

end GreaseLog
