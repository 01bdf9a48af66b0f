import GreaseLog.Format
import GreaseLog.Lib.BoundedQueue

/- Messages in memory (heapBuf, singleLog, overflowWriteOut), the commands of the
   logger thread, and the queues and counters that all targets share through
   their owner (logger.h). -/
namespace GreaseLog

abbrev PRIMARY_BUFFER_ENTRIES : Nat := 100
def INTERNAL_QUEUE_SIZE : Nat := 200
def V8_LOG_CALLBACK_QUEUE_SIZE : Nat := 10
def MAX_LOG_MESSAGE_SIZE : Nat := 65536
abbrev NUM_BANKS : Nat := 4

/-- "[!! OVERFLOW ENDING]" -/
def overflowEnding : List Byte :=
  [91, 33, 33, 32, 79, 86, 69, 82, 70, 76, 79, 87, 32, 69, 78, 68, 73, 78, 71, 93]

/-- The bytes are those at handle.base, handle.len in number. -/
structure HeapBuf where
  bytes : List Byte
  used : Nat := 0
  deriving DecidableEq

namespace HeapBuf

/-- What malloc returns is not read before memcpy has filled it. -/
def alloc (n : Nat) : HeapBuf := { bytes := List.replicate n 0 }

def ofData (s : List Byte) : HeapBuf := { bytes := s }

def memcpy (b : HeapBuf) (s : List Byte) : HeapBuf :=
  let l := min s.length b.bytes.length
  { bytes := s.take l ++ b.bytes.drop l, used := l }

def memcpyAppend (b : HeapBuf) (s appendStr : List Byte) : HeapBuf :=
  if b.bytes = [] then b
  else if s.length > b.bytes.length then
    let l := b.bytes.length - appendStr.length
    { bytes := s.take l ++ appendStr, used := l + appendStr.length }
  else { bytes := s ++ b.bytes.drop s.length, used := s.length }

theorem memcpy_text (b : HeapBuf) {s : List Byte} (fits : s.length ≤ b.bytes.length) :
    (b.memcpy s).bytes.take (b.memcpy s).used = s := by
  simp [memcpy, Nat.min_eq_left fits]

end HeapBuf

structure SingleLog where
  extraMeta : ExtraLogMeta
  buf : HeapBuf
  deriving DecidableEq

namespace SingleLog

def noIgnores : Fin 11 → TargetId := fun _ => 0

/-- singleLog(d, l, m): the list of a new extra_logMeta is empty. -/
def ofData (s : List Byte) (m : LogMeta) : SingleLog :=
  { extraMeta := ⟨m, noIgnores⟩, buf := .ofData s }

def alloc (n : Nat) : SingleLog := { extraMeta := ⟨noMetaData, noIgnores⟩, buf := .alloc n }

def clear (l : SingleLog) : SingleLog :=
  { extraMeta := { l.extraMeta with m := noMetaData }, buf := { l.buf with used := 0 } }

/-- The meta as _log copies it: the whole container when it has ignores. -/
def setMeta (l : SingleLog) (x : ExtraLogMeta) : SingleLog :=
  { l with extraMeta := if x.m.hasIgnores then x else { l.extraMeta with m := x.m } }

end SingleLog

abbrev PoolSlot := Fin PRIMARY_BUFFER_ENTRIES
abbrev BufId := Fin NUM_BANKS

/-- internalCmdReq, with what aux points to. A NEW_LOG command owns a buffer of
    the pool, a WRITE_TARGET_OVERFLOW command a message of its own. -/
inductive InternalCmdReq where
  | newLog (aux : PoolSlot)
  | targetRotateBuffer (d : TargetId)
  | writeTargetOverflow (d : TargetId) (aux : SingleLog)
  | internalShutdown
  deriving DecidableEq

/-- overflowWriteOut: the buffers of one large entry, in the order added. -/
abbrev OverflowWriteOut := List (List Byte)

inductive WriteCBData where
  | buffer (t : TargetId) (b : BufId)
  | overflow (t : TargetId) (entry : OverflowWriteOut)
  deriving DecidableEq

/-- The part of GreaseLogger that the targets use. -/
structure Owner where
  internalCmdQueue : BoundedQueue InternalCmdReq INTERNAL_QUEUE_SIZE := .empty
  v8LogCallbacks : BoundedQueue WriteCBData V8_LOG_CALLBACK_QUEUE_SIZE := .empty
  needGreaseThread : Nat := 0
  needV8 : Nat := 0
  /-- assert(needGreaseThread > 0) failed -/
  aborted : Bool := false
  deriving DecidableEq

namespace Owner

def refGreaseInGrease (o : Owner) : Owner := { o with needGreaseThread := o.needGreaseThread + 1 }

def unrefGreaseInGrease (o : Owner) : Owner :=
  { o with
    needGreaseThread := o.needGreaseThread - 1
    aborted := o.aborted || o.needGreaseThread == 0 }

def refFromV8 (o : Owner) : Owner := { o with needV8 := o.needV8 + 1 }

/-- internalCmdQueue.addMvIfRoom -/
def addCmd (o : Owner) (req : InternalCmdReq) : Owner × Bool :=
  let added := o.internalCmdQueue.addIfRoom req
  ({ o with internalCmdQueue := added.1 }, added.2)

/-- v8LogCallbacks.addMvIfRoom -/
def addCallback (o : Owner) (d : WriteCBData) : Owner × Bool :=
  let added := o.v8LogCallbacks.addIfRoom d
  ({ o with v8LogCallbacks := added.1 }, added.2)

abbrev HasRoom (o : Owner) : Prop := o.internalCmdQueue.HasRoom

theorem addCmd_room {o : Owner} (req : InternalCmdReq) (room : o.HasRoom) :
    (o.addCmd req).2 = true ∧
      (o.addCmd req).1.internalCmdQueue.items = o.internalCmdQueue.items ++ [req] :=
  BoundedQueue.addIfRoom_room req room

theorem addCmd_full {o : Owner} (req : InternalCmdReq) (full : ¬ o.HasRoom) :
    o.addCmd req = (o, false) := by
  simp [addCmd, BoundedQueue.addIfRoom_full req full]

@[simp] theorem refGreaseInGrease_queue (o : Owner) :
    o.refGreaseInGrease.internalCmdQueue = o.internalCmdQueue := rfl

@[simp] theorem unrefGreaseInGrease_queue (o : Owner) :
    o.unrefGreaseInGrease.internalCmdQueue = o.internalCmdQueue := rfl

end Owner

end GreaseLog
