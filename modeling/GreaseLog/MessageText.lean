import GreaseLog.LoggerRuns
import GreaseLog.OverflowCopy

/- What _log stores of a text: the calls of memcpy in heapBuf::memcpy (logger.h), and
   the singleLog that it queues (logger.cc). -/
namespace GreaseLog

structure RawCopy where
  dest : Nat
  src : List Byte
  count : Nat

namespace RawCopy

def InBounds (c : RawCopy) (capacity : Nat) : Prop :=
  c.dest + c.count ≤ capacity ∧ c.count ≤ c.src.length

def apply (bytes : List Byte) (c : RawCopy) : List Byte :=
  bytes.take c.dest ++ c.src.take c.count ++ bytes.drop (c.dest + c.count)

end RawCopy

/-- The calls that heapBuf::memcpy(s, s.length, append_str) makes for a buffer of
    this length; the base of an empty one is NULL. -/
def memcpyCalls (handleLen : Nat) (s : List Byte) : Option (List Byte) → List RawCopy
  | none =>
    if handleLen = 0 then [] else [⟨0, s, if s.length > handleLen then handleLen else s.length⟩]
  | some appendStr =>
    if handleLen = 0 then []
    else if s.length > handleLen then
      let l := sizeSub handleLen appendStr.length
      [⟨l, appendStr, appendStr.length⟩, ⟨0, s, l⟩]
    else [⟨0, s, s.length⟩]

def storedText (s : List Byte) : List Byte :=
  if s.length ≤ MAX_LOG_MESSAGE_SIZE then s
  else s.take (MAX_LOG_MESSAGE_SIZE - overflowEnding.length) ++ overflowEnding

/-- The message holds what is to be stored of s, put into this buffer by copies that
    stay inside it and inside their sources. -/
structure SingleLog.Holds (l : SingleLog) (s : List Byte) (buf : HeapBuf)
    (appendStr : Option (List Byte)) : Prop where
  text : l.buf.bytes.take l.buf.used = storedText s
  used : l.buf.used = (storedText s).length
  inBounds : ∀ c ∈ memcpyCalls buf.bytes.length s appendStr, c.InBounds buf.bytes.length
  copied : (memcpyCalls buf.bytes.length s appendStr).foldl RawCopy.apply buf.bytes = l.buf.bytes

theorem storedText_length (s : List Byte) :
    (storedText s).length = min s.length MAX_LOG_MESSAGE_SIZE := by
  unfold storedText
  split
  · omega
  · simp only [List.length_append, List.length_take, overflowEnding, List.length_cons,
      List.length_nil, MAX_LOG_MESSAGE_SIZE] at *
    omega

/-! heapBuf::memcpy. -/

theorem memcpyCalls_inBounds (handleLen : Nat) (s : List Byte) :
    ∀ c ∈ memcpyCalls handleLen s none, c.InBounds handleLen := by
  intro c mem
  simp only [memcpyCalls] at mem
  split at mem
  · cases mem
  · obtain rfl := List.mem_singleton.mp mem
    simp only [RawCopy.InBounds]
    split <;> omega

theorem memcpyCalls_apply (b : HeapBuf) (s : List Byte) :
    (memcpyCalls b.bytes.length s none).foldl RawCopy.apply b.bytes = (b.memcpy s).bytes := by
  simp only [memcpyCalls]
  split
  · rename_i null
    have empty : b.bytes = [] := List.length_eq_zero_iff.mp null
    simp [HeapBuf.memcpy, empty]
  · rcases Nat.lt_or_ge b.bytes.length s.length with long | fits
    · simp [RawCopy.apply, HeapBuf.memcpy, long, Nat.min_eq_right (Nat.le_of_lt long)]
    · simp [RawCopy.apply, HeapBuf.memcpy, Nat.not_lt.mpr fits, Nat.min_eq_left fits]

theorem memcpyCalls_append_inBounds {handleLen : Nat} {s appendStr : List Byte}
    (room : handleLen < s.length → appendStr.length ≤ handleLen) (size : handleLen < SIZE_MODULUS) :
    ∀ c ∈ memcpyCalls handleLen s (some appendStr), c.InBounds handleLen := by
  intro c mem
  simp only [memcpyCalls] at mem
  split at mem
  · cases mem
  · split at mem
    · rename_i long
      have marker := room long
      rw [sizeSub_of_le marker size] at mem
      rcases List.mem_cons.mp mem with rfl | mem
      · simp only [RawCopy.InBounds]
        omega
      · obtain rfl := List.mem_singleton.mp mem
        simp only [RawCopy.InBounds]
        omega
    · obtain rfl := List.mem_singleton.mp mem
      simp only [RawCopy.InBounds]
      omega

theorem memcpyCalls_append_apply {b : HeapBuf} {s appendStr : List Byte}
    (room : b.bytes.length < s.length → appendStr.length ≤ b.bytes.length)
    (size : b.bytes.length < SIZE_MODULUS) :
    (memcpyCalls b.bytes.length s (some appendStr)).foldl RawCopy.apply b.bytes =
      (b.memcpyAppend s appendStr).bytes := by
  simp only [memcpyCalls]
  split
  · rename_i null
    have empty : b.bytes = [] := List.length_eq_zero_iff.mp null
    simp [HeapBuf.memcpyAppend, empty]
  · rename_i based
    have filled : b.bytes ≠ [] := fun empty => based (by simp [empty])
    rcases Nat.lt_or_ge b.bytes.length s.length with long | fits
    · have marker := room long
      have whole := Nat.sub_add_cancel marker
      rw [if_pos long, sizeSub_of_le marker size]
      simp [RawCopy.apply, HeapBuf.memcpyAppend, filled, long, whole]
    · simp [RawCopy.apply, HeapBuf.memcpyAppend, filled, Nat.not_lt.mpr fits]

namespace Logger
variable {L : Logger}

/-! The two kinds of message. -/

theorem fillBuffer_holds {l : SingleLog} (x : ExtraLogMeta) {s : List Byte}
    (fits : s.length ≤ l.buf.bytes.length) (small : s.length ≤ MAX_LOG_MESSAGE_SIZE) :
    (fillBuffer l x s).Holds s l.buf none := by
  have whole : storedText s = s := if_pos small
  have copied : (fillBuffer l x s).buf = l.buf.memcpy s := rfl
  constructor
  · rw [copied, whole]
    exact HeapBuf.memcpy_text l.buf fits
  · rw [copied, whole]
    exact Nat.min_eq_left fits
  · exact memcpyCalls_inBounds _ s
  · rw [copied]
    exact memcpyCalls_apply l.buf s

theorem overflowLog_buf (x : ExtraLogMeta) {s : List Byte} (filled : s ≠ []) :
    (overflowLog x s).buf = { bytes := storedText s, used := (storedText s).length } := by
  have copied : (overflowLog x s).buf =
      (HeapBuf.alloc (min s.length MAX_LOG_MESSAGE_SIZE)).memcpyAppend s overflowEnding := rfl
  have size := List.length_pos_iff.mpr filled
  rw [copied, storedText_length]
  rcases Nat.lt_or_ge MAX_LOG_MESSAGE_SIZE s.length with long | fits
  · have marked : ¬ s.length ≤ MAX_LOG_MESSAGE_SIZE := by omega
    have room : overflowEnding.length ≤ MAX_LOG_MESSAGE_SIZE := by decide
    simp [HeapBuf.memcpyAppend, HeapBuf.alloc, storedText, long, marked,
      Nat.min_eq_right (Nat.le_of_lt long), Nat.sub_add_cancel room,
      show MAX_LOG_MESSAGE_SIZE ≠ 0 by decide]
  · simp [HeapBuf.memcpyAppend, HeapBuf.alloc, storedText, fits, filled]

theorem overflowLog_holds (x : ExtraLogMeta) {s : List Byte} (filled : s ≠ []) :
    (overflowLog x s).Holds s (.alloc (min s.length MAX_LOG_MESSAGE_SIZE)) (some overflowEnding) := by
  have buf := overflowLog_buf x filled
  have length : (HeapBuf.alloc (min s.length MAX_LOG_MESSAGE_SIZE)).bytes.length =
      min s.length MAX_LOG_MESSAGE_SIZE := List.length_replicate
  -- only a text that is cut needs room for the marker
  have room : (HeapBuf.alloc (min s.length MAX_LOG_MESSAGE_SIZE)).bytes.length < s.length →
      overflowEnding.length ≤ (HeapBuf.alloc (min s.length MAX_LOG_MESSAGE_SIZE)).bytes.length := by
    rw [length]
    intro cut
    have marker : overflowEnding.length ≤ MAX_LOG_MESSAGE_SIZE := by decide
    omega
  have size : (HeapBuf.alloc (min s.length MAX_LOG_MESSAGE_SIZE)).bytes.length < SIZE_MODULUS := by
    rw [length]
    have small : MAX_LOG_MESSAGE_SIZE < SIZE_MODULUS := by decide
    omega
  constructor
  · rw [buf]
    exact List.take_length
  · rw [buf]
  · exact memcpyCalls_append_inBounds room size
  · exact memcpyCalls_append_apply room size

theorem overflow_emits {l : SingleLog} {s : List Byte} (holds : l.buf.bytes = storedText s)
    (m : ExtraLogMeta) (t : LogTarget) (o : Owner) (env : WriteEnv) (filter : Filter) :
    let sent : SingleLog := { l with extraMeta := m }
    storedText s ∈ t.overflowEntry env sent filter ∧
      (t.kind = .file → t.disabled = false → (t.writeOverflow o env sent filter).2.2.2 =
        t.header env m.m filter ++ storedText s ++ t.footer env m.m filter ++ t.delim) := by
  constructor
  · simp [LogTarget.overflowEntry, holds]
  · intro kind enabled
    have whole := t.overflowEntry_flatten env { l with extraMeta := m } filter
    rw [entryBytes, holds] at whole
    simp only [LogTarget.writeOverflow, LogTarget.writeAsyncOverflow, enabled, kind, whole]
    rfl

/-- The message that _log queues holds the text, cut and marked if it is too long. -/
theorem log_keeps_text (reachable : Reachable L) (size : L.opts.bufferSize ≤ MAX_LOG_MESSAGE_SIZE)
    (x : ExtraLogMeta) (s : List Byte) (room : L.owner.HasRoom)
    (available : L.masterBufferAvail.items ≠ []) :
    let r := L._log x s
    r.2 = .queued ∧
      ((s.length ≤ L.opts.bufferSize ∧ ∃ slot avail, L.masterBufferAvail.items = slot :: avail ∧
          r.1.owner.internalCmdQueue.items = L.owner.internalCmdQueue.items ++ [.newLog slot] ∧
          (r.1.pool slot).Holds s (L.pool slot).buf none) ∨
        (L.opts.bufferSize < s.length ∧ ∃ l,
          r.1.owner.internalCmdQueue.items =
            L.owner.internalCmdQueue.items ++ [.writeTargetOverflow 0 l] ∧
          l.Holds s (.alloc (min s.length MAX_LOG_MESSAGE_SIZE)) (some overflowEnding) ∧
          l.buf.bytes = storedText s ∧
          ∀ (m : ExtraLogMeta) (t : LogTarget) (o : Owner) (env : WriteEnv) (filter : Filter),
            let sent : SingleLog := { l with extraMeta := m }
            storedText s ∈ t.overflowEntry env sent filter ∧
              (t.kind = .file → t.disabled = false → (t.writeOverflow o env sent filter).2.2.2 =
                t.header env m.m filter ++ storedText s ++ t.footer env m.m filter ++ t.delim))) := by
  rcases log_cases L x s with ⟨large, h⟩ | ⟨small, slot, avail, items, h⟩ | ⟨_, empty, _⟩
  · have filled : s ≠ [] := List.length_pos_iff.mp (Nat.lt_of_le_of_lt (Nat.zero_le _) large)
    have added := Owner.addCmd_room (.writeTargetOverflow 0 (overflowLog x s)) room
    have bytes : (overflowLog x s).buf.bytes = storedText s := by
      rw [overflowLog_buf x filled]
    simp only [h, enqueueOverflow, added.1, if_true, true_and]
    exact Or.inr ⟨large, overflowLog x s, added.2, overflowLog_holds x filled, bytes,
      overflow_emits bytes⟩
  · have added := Owner.addCmd_room (.newLog slot) room
    have length := (reachable_wf reachable).pool slot
    simp only [h, enqueueBuffer, added.1, if_true, true_and]
    refine Or.inl ⟨small, slot, avail.items, items, added.2, ?_⟩
    rw [Function.update_self]
    exact fillBuffer_holds x (by omega) (by omega)
  · exact absurd empty available

def newLogger : Logger := Logger.new {} (fun _ => .new) fun _ => []

def longText : List Byte := List.replicate 3000 97

/-- A new logger and the text "hi", then one that is too long for its buffers. -/
theorem log_keeps_text_hi :
    let x : ExtraLogMeta := ⟨noMetaData, SingleLog.noIgnores⟩
    ((newLogger._log x [104, 105]).2 = .queued ∧
      ((newLogger._log x [104, 105]).1.pool 0).Holds [104, 105] (newLogger.pool 0).buf none) ∧
    (newLogger._log x longText).2 = .queued ∧
      ∃ l, (newLogger._log x longText).1.owner.internalCmdQueue.items = [.writeTargetOverflow 0 l] ∧
        l.Holds longText (.alloc 3000) (some overflowEnding) ∧ l.buf.bytes = storedText longText := by
  intro x
  have reachable : Reachable newLogger := .new {} (fun _ => .new) fun _ => []
  have length : longText.length = 3000 := List.length_replicate
  constructor
  · obtain ⟨queued, ⟨_, slot, avail, items, _, holds⟩ | ⟨large, _⟩⟩ :=
      log_keeps_text reachable (by decide) x [104, 105] (by decide) (by decide)
    · have first : slot = 0 := (List.cons.inj items).1.symm
      subst first
      exact ⟨queued, holds⟩
    · exact absurd large (by decide)
  · obtain ⟨queued, ⟨small, _⟩ | ⟨_, l, items, holds, bytes, _⟩⟩ :=
      log_keeps_text reachable (by decide) x longText (by decide) (by decide)
    · rw [length] at small
      exact absurd small (by decide)
    · rw [length] at holds
      exact ⟨queued, l, items, holds, bytes⟩

end Logger

end GreaseLog
