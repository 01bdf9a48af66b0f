import GreaseLog.Banks
import GreaseLog.Printing

/- overflowWriteOut::copyAllTo (logger.h), and the string that _doV8Callback makes
   of a large entry (logger.cc). -/
namespace GreaseLog

def MAX_OVERFLOW_BUFFERS : Nat := 4

def asInt (n : Int) : Int := n.bmod (2 ^ 32)

def addSize (ret : Int) (buf : List Byte) : Int := asInt (ret + buf.length)

def totalSize (bufs : OverflowWriteOut) : Int := bufs.foldl addSize 0

/-- d and walk are offsets; memcpy is given d. -/
def copyBuf (d : Nat) (p : Mem × Nat) (buf : List Byte) : Mem × Nat :=
  (p.1.store d buf, p.2 + buf.length)

def copyAllTo (bufs : OverflowWriteOut) (area : Mem) : Mem := (bufs.foldl (copyBuf 0) (area, 0)).1

/-- The bytes of the string in _doV8Callback, for what LMALLOC returns. -/
def callbackText (area : Mem) (bufs : OverflowWriteOut) : List Byte :=
  (copyAllTo bufs area).read (totalSize bufs).toNat

/-- Whatever an area of totalSize() bytes holds, it becomes the concatenation, and
    nothing behind it changes. -/
def CopiesAll (bufs : OverflowWriteOut) : Prop :=
  ∀ area : Mem, callbackText area bufs = bufs.flatten ∧
    ∀ i : Nat, totalSize bufs ≤ i → copyAllTo bufs area i = area i

/-- At most one buffer is not empty, and the size fits into an int. -/
abbrev Copyable (bufs : OverflowWriteOut) : Prop :=
  bufs.countP (fun buf => !buf.isEmpty) ≤ 1 ∧ bufs.flatten.length < 2 ^ 31

/-! The size. -/

theorem addSize_bmod (n : Int) (buf : List Byte) : addSize (asInt n) buf = asInt (n + buf.length) := by
  simp [addSize, asInt, Int.bmod_add_bmod]

theorem totalSize_eq (bufs : OverflowWriteOut) : totalSize bufs = asInt bufs.flatten.length := by
  have sums : ∀ (rest : OverflowWriteOut) (n : Int),
      rest.foldl addSize (asInt n) = asInt (n + rest.flatten.length) := by
    intro rest
    induction rest with
    | nil => simp
    | cons buf rest ih =>
      intro n
      rw [List.foldl_cons, addSize_bmod, ih, List.flatten_cons, List.length_append,
        Int.natCast_add, Int.add_assoc]
  simpa [totalSize, asInt] using sums bufs 0

theorem totalSize_small {bufs : OverflowWriteOut} (small : bufs.flatten.length < 2 ^ 31) :
    totalSize bufs = bufs.flatten.length := by
  rw [totalSize_eq, asInt]
  exact Int.bmod_eq_of_le (by omega) (by omega)

theorem totalSize_large {bufs : OverflowWriteOut} (large : ¬ bufs.flatten.length < 2 ^ 31) :
    (totalSize bufs).toNat ≠ bufs.flatten.length := by
  have bound : totalSize bufs < (2 ^ 32 + 1) / 2 := by
    rw [totalSize_eq]
    exact Int.bmod_lt (by decide)
  omega

/-! The loop. -/

theorem copyAllTo_cons (buf : List Byte) (rest : OverflowWriteOut) (area : Mem) :
    copyAllTo (buf :: rest) area = copyAllTo rest (area.store 0 buf) := by
  have walks : ∀ (rest : OverflowWriteOut) (mem : Mem) (walk walk' : Nat),
      (rest.foldl (copyBuf 0) (mem, walk)).1 = (rest.foldl (copyBuf 0) (mem, walk')).1 := by
    intro rest
    induction rest with
    | nil => intros; rfl
    | cons buf rest ih => exact fun mem walk walk' => ih _ _ _
  exact walks rest _ _ _

theorem copyAllTo_beyond {bufs : OverflowWriteOut} {i : Nat} (area : Mem)
    (beyond : ∀ buf ∈ bufs, buf.length ≤ i) : copyAllTo bufs area i = area i := by
  induction bufs generalizing area with
  | nil => rfl
  | cons buf rest ih =>
    have first : buf.length ≤ i := beyond buf List.mem_cons_self
    rw [copyAllTo_cons, ih _ fun b mem => beyond b (List.mem_cons_of_mem buf mem)]
    exact store_outside area (Or.inr (by omega))

theorem copyAllTo_empty {bufs : OverflowWriteOut} (area : Mem) (empty : ∀ buf ∈ bufs, buf = []) :
    copyAllTo bufs area = area := by
  funext i
  apply copyAllTo_beyond
  intro buf mem
  simp [empty buf mem]

theorem copyAllTo_single {bufs : OverflowWriteOut}
    (single : bufs.countP (fun buf => !buf.isEmpty) ≤ 1) (area : Mem) :
    copyAllTo bufs area = area.store 0 bufs.flatten := by
  induction bufs generalizing area with
  | nil =>
    funext i
    exact (store_outside area (Or.inr (Nat.zero_le i))).symm
  | cons buf rest ih =>
    rw [copyAllTo_cons]
    rw [List.countP_cons] at single
    by_cases filled : buf.isEmpty
    · have none : buf = [] := List.isEmpty_iff.mp filled
      have same : area.store 0 [] = area := by
        funext i
        exact store_outside area (Or.inr (Nat.zero_le i))
      rw [none, same, List.flatten_cons, List.nil_append]
      exact ih (by omega) area
    · have others : ∀ b ∈ rest, b = [] := by
        have none : rest.countP (fun b => !b.isEmpty) = 0 := by
          simp only [filled] at single
          simpa using single
        simpa using none
      have flat : rest.flatten = [] := List.flatten_eq_nil_iff.mpr others
      rw [copyAllTo_empty _ others, List.flatten_cons, flat, List.append_nil]

/-- With two, none of them reaches the end of the concatenation. -/
theorem shorter_than_all {bufs : OverflowWriteOut}
    (several : 1 < bufs.countP fun buf => !buf.isEmpty) {buf : List Byte} (mem : buf ∈ bufs) :
    buf.length < bufs.flatten.length := by
  induction bufs with
  | nil => cases mem
  | cons first rest ih =>
    rw [List.flatten_cons, List.length_append]
    rw [List.countP_cons] at several
    rcases List.mem_cons.mp mem with rfl | later
    · have others : 0 < rest.countP fun b => !b.isEmpty := by
        split at several <;> omega
      obtain ⟨b, member, filled⟩ := List.countP_pos_iff.mp others
      have nonempty : b ≠ [] := by simpa using filled
      have part := (List.sublist_flatten_of_mem member).length_le
      have := List.length_pos_iff.mpr nonempty
      omega
    · by_cases more : 1 < rest.countP fun b => !b.isEmpty
      · have := ih more later
        omega
      · have filled : ¬ first = [] := by
          rintro rfl
          simp at several
          omega
        have part := (List.sublist_flatten_of_mem later).length_le
        have := List.length_pos_iff.mpr filled
        omega

theorem copyable_of_texts {bufs : OverflowWriteOut}
    (texts : ∀ area, callbackText area bufs = bufs.flatten) : Copyable bufs := by
  have size : (totalSize bufs).toNat = bufs.flatten.length := by
    have text := congrArg List.length (texts fun _ => 0)
    simpa [callbackText] using text
  constructor
  · by_contra several
    have several : 1 < bufs.countP fun buf => !buf.isEmpty := Nat.lt_of_not_le several
    obtain ⟨buf, mem, _⟩ := List.countP_pos_iff.mp (Nat.lt_trans Nat.zero_lt_one several)
    have last : bufs.flatten.length - 1 < bufs.flatten.length := by
      have := shorter_than_all several mem
      omega
    -- no copy reaches the last byte, which is whatever the area held there
    let area : Mem := fun _ => bufs.flatten[bufs.flatten.length - 1] + 1
    have text := texts area
    rw [callbackText, size, read_eq_iff] at text
    have byte := text _ last
    have untouched : copyAllTo bufs area (bufs.flatten.length - 1) =
        area (bufs.flatten.length - 1) := by
      apply copyAllTo_beyond
      intro b member
      have := shorter_than_all several member
      omega
    rw [untouched] at byte
    simp [area] at byte
  · by_contra large
    exact totalSize_large large size

theorem copyable_copies {bufs : OverflowWriteOut} (copyable : Copyable bufs) : CopiesAll bufs := by
  obtain ⟨single, small⟩ := copyable
  intro area
  constructor
  · rw [callbackText, totalSize_small small, copyAllTo_single single, Int.toNat_natCast, read_eq_iff]
    intro i inside
    rw [store_inside area (Nat.zero_le i) (by omega)]
    rfl
  · intro i behind
    rw [totalSize_small small] at behind
    rw [copyAllTo_single single]
    exact store_outside area (Or.inr (by omega))

theorem copiesAll_iff (bufs : OverflowWriteOut) : CopiesAll bufs ↔ Copyable bufs := by
  constructor
  · intro copies
    exact copyable_of_texts fun area => (copies area).1
  · exact copyable_copies

/-! From writeOverflow to the callback. -/

def LogTarget.overflowEnded (t : LogTarget) (o : Owner) (env : WriteEnv) (log : SingleLog)
    (filter : Filter) : Owner :=
  let r := t.writeOverflow o env log filter
  -- only a ttyTarget has it in flight, behind the earlier writes
  ({ r.1 with inflight := r.1.inflight.drop t.inflight.length }.writeCb r.2.1).2

def LogTarget.wholeEntry (t : LogTarget) (env : WriteEnv) (log : SingleLog) (filter : Filter) :
    List Byte :=
  t.header env log.extraMeta.m filter ++ log.buf.bytes ++ t.footer env log.extraMeta.m filter ++
    t.delim

abbrev LogTarget.OnePart (t : LogTarget) (env : WriteEnv) (log : SingleLog) (filter : Filter) : Prop :=
  Copyable [t.header env log.extraMeta.m filter, log.buf.bytes,
    t.footer env log.extraMeta.m filter, t.delim]

theorem optional_count (part : List Byte) :
    (if part.isEmpty then [] else [part]).countP (fun buf => !buf.isEmpty) =
      [part].countP fun buf => !buf.isEmpty := by
  cases part <;> rfl

theorem overflowEntry_copyable (t : LogTarget) (env : WriteEnv) (log : SingleLog) (filter : Filter) :
    Copyable (t.overflowEntry env log filter) ↔ t.OnePart env log filter := by
  have parts : (t.overflowEntry env log filter).countP (fun buf => !buf.isEmpty) =
      [t.header env log.extraMeta.m filter, log.buf.bytes, t.footer env log.extraMeta.m filter,
        t.delim].countP fun buf => !buf.isEmpty := by
    simp only [LogTarget.overflowEntry, List.countP_append, optional_count]
    simp only [List.countP_cons, List.countP_nil]
    omega
  have flat : [t.header env log.extraMeta.m filter, log.buf.bytes,
      t.footer env log.extraMeta.m filter, t.delim].flatten =
        (t.overflowEntry env log filter).flatten := by
    simp [LogTarget.overflowEntry_flatten, entryBytes]
  rw [LogTarget.OnePart, Copyable, Copyable, parts, flat]

theorem overflowEntry_length (t : LogTarget) (env : WriteEnv) (log : SingleLog) (filter : Filter) :
    1 ≤ (t.overflowEntry env log filter).length ∧
      (t.overflowEntry env log filter).length ≤ MAX_OVERFLOW_BUFFERS := by
  have optional : ∀ part : List Byte, (if part.isEmpty then [] else [part]).length ≤ 1 := by
    intro part
    cases part <;> simp
  have first := optional (t.header env log.extraMeta.m filter)
  have third := optional (t.footer env log.extraMeta.m filter)
  have last := optional t.delim
  simp only [LogTarget.overflowEntry, List.length_append, List.length_singleton, MAX_OVERFLOW_BUFFERS]
  omega

theorem overflowEnded_callback {t : LogTarget} {o : Owner} (env : WriteEnv) (log : SingleLog)
    (filter : Filter) (enabled : t.disabled = false) (called : t.logCallbackSet = true)
    (room : o.v8LogCallbacks.HasRoom) :
    (t.overflowEnded o env log filter).v8LogCallbacks.items =
      o.v8LogCallbacks.items ++ [.overflow t.myId (t.overflowEntry env log filter)] := by
  have added := (BoundedQueue.addIfRoom_room
    (WriteCBData.overflow t.myId (t.overflowEntry env log filter)) room).2
  have filled : t.overflowEntry env log filter ≠ [] := by
    have := (overflowEntry_length t env log filter).1
    exact List.length_pos_iff.mp this
  cases kind : t.kind with
  | tty =>
    simp [LogTarget.overflowEnded, LogTarget.writeOverflow, LogTarget.writeAsyncOverflow,
      LogTarget.writeCb, LogTarget.returnOverflow, Owner.addCallback, Owner.refFromV8,
      Owner.unrefGreaseInGrease, Owner.refGreaseInGrease, kind, enabled, called, added]
  | file =>
    simp [LogTarget.overflowEnded, LogTarget.writeOverflow, LogTarget.writeAsyncOverflow,
      LogTarget.writeCb, LogTarget.returnOverflow, Owner.addCallback, Owner.refFromV8,
      Owner.unrefGreaseInGrease, Owner.refGreaseInGrease, kind, enabled, called, added]
  | callback =>
    simp [LogTarget.overflowEnded, LogTarget.writeOverflow, LogTarget.writeAsyncOverflow,
      LogTarget.writeCb, Owner.addCallback, Owner.refGreaseInGrease, kind, enabled, called, filled,
      added]

theorem callbackText_iff (t : LogTarget) (env : WriteEnv) (log : SingleLog) (filter : Filter) :
    (∀ area, callbackText area (t.overflowEntry env log filter) = t.wholeEntry env log filter) ↔
      t.OnePart env log filter := by
  have whole : (t.overflowEntry env log filter).flatten = t.wholeEntry env log filter :=
    t.overflowEntry_flatten env log filter
  rw [← overflowEntry_copyable, ← whole]
  constructor
  · exact copyable_of_texts
  · intro copyable area
    exact (copyable_copies copyable area).1

/-- The callback gets the whole of an entry exactly when it has one part only. -/
theorem overflow_callbacks_exact (bufs : OverflowWriteOut) (t : LogTarget) (o : Owner)
    (env : WriteEnv) (log : SingleLog) (filter : Filter) :
    (1 ≤ bufs.length → bufs.length ≤ MAX_OVERFLOW_BUFFERS → (CopiesAll bufs ↔ Copyable bufs)) ∧
    (t.disabled = false → t.logCallbackSet = true → o.v8LogCallbacks.HasRoom →
      ∃ bufs, (t.overflowEnded o env log filter).v8LogCallbacks.items =
          o.v8LogCallbacks.items ++ [.overflow t.myId bufs] ∧
        1 ≤ bufs.length ∧ bufs.length ≤ MAX_OVERFLOW_BUFFERS ∧
        ((∀ area, callbackText area bufs = t.wholeEntry env log filter) ↔
          t.OnePart env log filter)) := by
  constructor
  · intro _ _
    exact copiesAll_iff bufs
  · intro enabled called room
    have count := overflowEntry_length t env log filter
    exact ⟨t.overflowEntry env log filter, overflowEnded_callback env log filter enabled called room,
      count.1, count.2, callbackText_iff t env log filter⟩

def lineTarget : LogTarget :=
  { LogTarget.new .tty 100 0 [10] with logCallbackSet := true }

theorem overflow_callbacks_exact_line :
    CopiesAll [[97]] ∧
      ∃ bufs, (lineTarget.overflowEnded {} plainEnv (.ofData [97] noMetaData) {}).v8LogCallbacks.items =
        [.overflow 0 bufs] ∧
          ¬ ∀ area, callbackText area bufs =
            lineTarget.wholeEntry plainEnv (.ofData [97] noMetaData) {} := by
  have exactly := overflow_callbacks_exact [[97]] lineTarget {} plainEnv
    (.ofData [97] noMetaData) {}
  constructor
  · exact (exactly.1 (by decide) (by decide)).mpr (by decide)
  · obtain ⟨bufs, queued, _, _, whole⟩ := exactly.2 rfl rfl (by decide)
    exact ⟨bufs, queued, fun all => absurd (whole.mp all) (by decide)⟩

/-- The newline lands on the text. -/
theorem newline_overwrites_text :
    ¬ ∀ bufs : OverflowWriteOut, 1 ≤ bufs.length → bufs.length ≤ MAX_OVERFLOW_BUFFERS →
      CopiesAll bufs := by
  intro all
  have text := (all [[97], [10]] (by decide) (by decide) fun _ => 0).1
  exact absurd text (by decide)

end GreaseLog
