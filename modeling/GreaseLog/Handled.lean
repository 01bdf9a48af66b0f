import GreaseLog.BankSafety
import GreaseLog.Pool

/- What the functions that the logger thread calls on a target leave alone: its
   configuration, its delimiters, the soundness of its bank and the callbacks of
   the other targets. Whether write() stores an entry is a matter of its size. -/
namespace GreaseLog

def WriteOutcome.isStored : WriteOutcome → Bool
  | .stored _ => true
  | _ => false

def WriteOutcome.isCopied : WriteOutcome → Bool
  | .stored _ | .overran _ => true
  | _ => false

def WriteOutcome.starved : WriteOutcome → Bool
  | .requeueDropped | .rotateDropped | .notRotated .noBuffers | .notRotated .writeOutFull => true
  | _ => false

def InternalCmdReq.overflow? : InternalCmdReq → Option SingleLog
  | .writeTargetOverflow _ l => some l
  | _ => none

def InternalCmdReq.OfWrite : InternalCmdReq → Prop
  | .targetRotateBuffer _ | .writeTargetOverflow _ _ => True
  | .newLog _ | .internalShutdown => False

theorem ofWrite_slotless {req : InternalCmdReq} (added : req.OfWrite) : req.slot? = none := by
  cases req with
  | newLog slot => exact added.elim
  | targetRotateBuffer d => rfl
  | writeTargetOverflow d l => rfl
  | internalShutdown => rfl

namespace LogTarget
variable {t t' t'' : LogTarget} {o o' o'' : Owner} {held : List BufId}

structure SameSetup (t t' : LogTarget) : Prop where
  config : SameConfig t t'
  delims : ∀ b, (t'.buffers b).delim = (t.buffers b).delim

theorem SameSetup.refl (t : LogTarget) : SameSetup t t := ⟨SameConfig.refl t, fun _ => rfl⟩

theorem SameSetup.trans (first : SameSetup t t') (second : SameSetup t' t'') : SameSetup t t'' :=
  ⟨first.config.trans second.config, fun b => (second.delims b).trans (first.delims b)⟩

theorem OnlyClears.setup (clears : OnlyClears t t') : SameSetup t t' :=
  ⟨clears.config, clears.delims⟩

theorem store_setup (t : LogTarget) (header s footer : List Byte) :
    SameSetup t (t.store header s footer) := by
  refine ⟨⟨rfl, rfl, rfl, rfl, rfl, rfl⟩, fun b => ?_⟩
  by_cases same : b = t.currentBuffer
  · subst same
    simp [store, current]
  · rw [store, setBuffer_other _ same]

/-- A target and its owner before and after a function that the logger thread runs. -/
structure Handled (t : LogTarget) (o : Owner) (t' : LogTarget) (o' : Owner) : Prop where
  setup : SameSetup t t'
  wf : t.BankWf o [] → t'.BankWf o' []
  others : ∀ id, id ≠ t.myId → o'.pending id = o.pending id

theorem Handled.trans (first : Handled t o t' o') (second : Handled t' o' t'' o'') :
    Handled t o t'' o'' :=
  ⟨first.setup.trans second.setup, fun wf => second.wf (first.wf wf), fun id other =>
    (second.others id (by rwa [first.setup.config.myId])).trans (first.others id other)⟩

theorem write_setup (t : LogTarget) (o : Owner) (env : WriteEnv) (s : List Byte) (m : LogMeta)
    (filter : Filter) : SameSetup t (t.write o env s m filter).1 := by
  have rotated : SameSetup t t.rotate.1 := (onlyClears_rotate t).setup
  obtain ⟨o', _, ⟨_, h⟩ | ⟨_, _, h⟩ | ⟨_, _, h⟩ | ⟨_, _, _, _, h⟩ | ⟨_, _, _, _, h⟩ | ⟨_, _, _, h⟩⟩ :=
    write_cases t o env s m filter <;> rw [h]
  · exact SameSetup.refl t
  · exact SameSetup.refl t
  · exact store_setup t _ _ _
  · exact rotated.trans (store_setup _ _ _ _)
  · exact rotated
  · exact rotated

theorem write_callbacks (t : LogTarget) (o : Owner) (env : WriteEnv) (s : List Byte) (m : LogMeta)
    (filter : Filter) : (t.write o env s m filter).2.1.v8LogCallbacks = o.v8LogCallbacks := by
  obtain ⟨o', same, h | h | h | h | h | h⟩ := write_cases t o env s m filter
  · rw [h.2]; exact same
  · rw [h.2.2]; exact same
  · rw [h.2.2]; exact same
  · rw [h.2.2.2.2]; exact same
  · rw [h.2.2.2.2]; exact same
  · rw [h.2.2.2]; exact same

theorem write_handled (t : LogTarget) (o : Owner) (env : WriteEnv) (s : List Byte) (m : LogMeta)
    (filter : Filter) :
    Handled t o (t.write o env s m filter).1 (t.write o env s m filter).2.1 :=
  ⟨write_setup t o env s m filter, fun wf => write_wf wf env s m filter,
    fun id _ => pending_congr (write_callbacks t o env s m filter) id⟩

theorem returnBuffer_others (t : LogTarget) (o : Owner) (b : BufId) (nocallback : Bool)
    {id : TargetId} (other : id ≠ t.myId) :
    (t.returnBuffer o b nocallback).2.pending id = o.pending id := by
  obtain ⟨o', callbacks, _, released | ⟨room, waiting⟩⟩ := t.returnBuffer_cases o b nocallback
  · rw [released]
    exact pending_congr callbacks id
  · rw [waiting]
    have items := (BoundedQueue.addIfRoom_room (.buffer t.myId b) room).2
    rw [callbacks] at items
    simp only [Owner.pending, Owner.addCallback, Owner.refFromV8, items, callbacks,
      List.filterMap_append, List.filterMap_cons, WriteCBData.bufOf, Ne.symm other, if_false,
      List.filterMap_nil, List.append_nil]

theorem flushOut_others (t : LogTarget) (o : Owner) (nocallbacks : Bool) (out : List BufId)
    {id : TargetId} (other : id ≠ t.myId) :
    (t.flushOut o nocallbacks out).2.pending id = o.pending id := by
  induction out generalizing t o with
  | nil => rfl
  | cons b rest ih =>
    rcases flush_cases t o b nocallbacks with ⟨_, h⟩ | ⟨_, h⟩
    · rw [flushOut, h]
      exact ih _ _ other
    · rw [flushOut, h]
      have same : (t.returnBuffer o b nocallbacks).1.myId = t.myId :=
        (onlyClears_returnBuffer t o b nocallbacks).config.myId
      exact (ih _ _ (by rwa [same])).trans (returnBuffer_others t o b nocallbacks other)

theorem flushAll_handled (t : LogTarget) (o : Owner) (doRotate nocallbacks : Bool) :
    Handled t o (t.flushAll o doRotate nocallbacks).1 (t.flushAll o doRotate nocallbacks).2.1 := by
  refine ⟨(onlyClears_flushAll t o doRotate nocallbacks).setup,
    fun wf => flushAll_wf wf doRotate nocallbacks, fun id other => ?_⟩
  refine flushOut_others _ _ _ _ ?_
  cases doRotate with
  | true =>
    have same : t.rotate.1.myId = t.myId := (onlyClears_rotate t).config.myId
    exact fun eq => other (eq.trans same)
  | false => exact other

theorem writeOverflow_handled (t : LogTarget) (o : Owner) (env : WriteEnv) (log : SingleLog)
    (filter : Filter) :
    Handled t o (t.writeOverflow o env log filter).1 (t.writeOverflow o env log filter).2.1 := by
  refine ⟨(onlyClears_writeOverflow t o env log filter).setup,
    fun wf => writeOverflow_wf wf env log filter, fun id _ => ?_⟩
  unfold writeOverflow writeAsyncOverflow
  split
  · rfl
  · simp only
    split
    · rfl
    · exact returnOverflow_pending t o.refGreaseInGrease _ _ id
    · split
      · rfl
      · split
        · exact addCallback_overflow_pending o.refGreaseInGrease t.myId id _
        · rfl

theorem flushOutSync_handled (t : LogTarget) (o : Owner) (out : List BufId) :
    SameSetup t (t.flushOutSync o out).1 ∧
      (t.BankWf o out → (t.flushOutSync o out).1.BankWf (t.flushOutSync o out).2.1 []) ∧
      (t.flushOutSync o out).2.1.v8LogCallbacks = o.v8LogCallbacks := by
  induction out generalizing t o with
  | nil => exact ⟨SameSetup.refl t, id, rfl⟩
  | cons b rest ih =>
    obtain ⟨setup, wf, callbacks⟩ := ih (t.flushSync o b).1 (t.flushSync o b).2.1
    have unref : (t.flushSync o b).2.1.v8LogCallbacks = o.v8LogCallbacks := by
      simp only [flushSync]
      split <;> rfl
    refine ⟨(onlyClears_release t b).setup.trans setup, fun before => wf ?_, callbacks.trans unref⟩
    exact (release_wf before).owner unref

theorem flushAllSync_handled (t : LogTarget) (o : Owner) :
    Handled t o (t.flushAllSync o true).1 (t.flushAllSync o true).2.1 := by
  obtain ⟨setup, wf, callbacks⟩ := flushOutSync_handled
    { t.rotate.1 with writeOutBuffers := .empty } o t.rotate.1.writeOutBuffers.items
  refine ⟨((onlyClears_rotate t).trans (onlyClears_takeWriteOut _)).setup.trans setup,
    fun before => wf ?_, fun id _ => pending_congr callbacks id⟩
  have taken := takeWriteOut_wf (rotate_wf before)
  rwa [List.append_nil] at taken

/-- An entry that write() is to buffer, and that neither starves nor is re-queued,
    is stored exactly when it fits an empty buffer. -/
theorem write_stored_iff (wf : t.BankWf o held) (delims : ∀ b, (t.buffers b).delim = t.current.delim)
    (env : WriteEnv) {s : List Byte} (text : s ≠ []) (m : LogMeta) (filter : Filter)
    (on : t.disabled = false) (size : s.length + GREASE_MAX_PREFIX_HEADER ≤ t.bankSize)
    (fed : (t.write o env s m filter).2.2.starved = false) :
    (t.write o env s m filter).2.2.isStored = true ↔
      (entryBytes t.current.delim (t.header env m filter) s (t.footer env m filter)).length ≤
        t.bankSize := by
  have some : 0 < s.length := List.length_pos_of_ne_nil text
  have space : t.current.space = t.bankSize := wf.spaces _
  obtain ⟨o', _, ⟨off, _⟩ | ⟨_, small, _⟩ | ⟨_, fit, h⟩ | ⟨_, _, turned, _, h⟩ |
    ⟨_, _, _, _, h⟩ | ⟨_, small, stuck, h⟩⟩ := write_cases t o env s m filter
  · simp [on] at off
  · omega
  · have data := store_data t (t.header env m filter) (t.footer env m filter) (Or.inl text)
    have current : (t.store (t.header env m filter) s (t.footer env m filter)).current.space =
        t.bankSize := (store_wf wf _ _ _).spaces _
    have room : t.current.data.length + (entryBytes t.current.delim (t.header env m filter) s
        (t.footer env m filter)).length ≤ t.bankSize := by
      unfold LogBuf.remain at fit
      rw [entryBytes_length]
      omega
    rw [h]
    simp only [stored, data, current, List.length_append, room, if_true, WriteOutcome.isStored,
      true_iff]
    omega
  · have delim : t.rotate.1.current.delim = t.current.delim :=
      ((onlyClears_rotate t).delims _).trans (delims _)
    have data := store_data t.rotate.1 (t.header env m filter) (t.footer env m filter) (Or.inl text)
    rw [rotated_current wf turned, List.nil_append, delim] at data
    have current : (t.rotate.1.store (t.header env m filter) s (t.footer env m filter)).current.space =
        t.bankSize :=
      ((store_wf (rotate_wf wf) _ _ _).spaces _).trans (onlyClears_rotate t).config.bankSize
    rw [h]
    simp only [stored, data, current]
    split <;> simp_all [WriteOutcome.isStored]
  · rw [h] at fed
    simp [WriteOutcome.starved] at fed
  · rw [h] at fed ⊢
    have empty : t.current.data = [] := by
      rcases rotate_wf_cases wf with ⟨empty, _⟩ | ⟨_, _, none⟩ | ⟨_, _, _, _, _, _, turned⟩
      · exact empty
      · simp [none, WriteOutcome.starved] at fed
      · simp [turned] at stuck
    unfold LogBuf.remain at small
    rw [space, empty, List.length_nil] at small
    rw [entryBytes_length]
    simp only [WriteOutcome.isStored, Bool.false_eq_true, false_iff]
    omega

/-- One that fits no empty buffer is copied past the end of a buffer, unless
    currentBuffer is empty: then rotate() has nothing to do, and it is dropped. -/
theorem write_unstored (wf : t.BankWf o held) (delims : ∀ b, (t.buffers b).delim = t.current.delim)
    (env : WriteEnv) {s : List Byte} (text : s ≠ []) (m : LogMeta) (filter : Filter)
    (on : t.disabled = false) (size : s.length + GREASE_MAX_PREFIX_HEADER ≤ t.bankSize)
    (fed : (t.write o env s m filter).2.2.starved = false)
    (wide : t.bankSize <
      (entryBytes t.current.delim (t.header env m filter) s (t.footer env m filter)).length) :
    (t.current.data ≠ [] ∧ (t.write o env s m filter).2.2.isCopied = true) ∨
      (t.current.data = [] ∧ (t.write o env s m filter).2.2.isCopied = false ∧
        (t.write o env s m filter).1 = t) := by
  have some : 0 < s.length := List.length_pos_of_ne_nil text
  have space : t.current.space = t.bankSize := wf.spaces _
  have never := mt (write_stored_iff wf delims env text m filter on size fed).mp (Nat.not_le.mpr wide)
  obtain ⟨o', _, ⟨off, _⟩ | ⟨_, small, _⟩ | ⟨_, fit, h⟩ | ⟨_, _, turned, _, h⟩ |
    ⟨_, _, _, _, h⟩ | ⟨_, small, stuck, h⟩⟩ := write_cases t o env s m filter
  · simp [on] at off
  · omega
  · unfold LogBuf.remain at fit
    rw [entryBytes_length] at wide
    omega
  · have data : t.current.data ≠ [] := by
      intro empty
      simp [rotate, empty] at turned
    refine Or.inl ⟨data, ?_⟩
    rw [h]
    simp only [stored]
    split <;> rfl
  · rw [h] at fed
    simp [WriteOutcome.starved] at fed
  · rw [h] at fed ⊢
    rcases rotate_wf_cases wf with ⟨empty, same⟩ | ⟨_, _, none⟩ | ⟨_, _, _, _, _, _, turned⟩
    · exact Or.inr ⟨empty, rfl, by rw [same]⟩
    · simp [none, WriteOutcome.starved] at fed
    · simp [turned] at stuck

theorem addCmd_cases (o : Owner) (req : InternalCmdReq) :
    (o.HasRoom ∧ (o.addCmd req).2 = true ∧
      (o.addCmd req).1.internalCmdQueue.items = o.internalCmdQueue.items ++ [req]) ∨
    (¬ o.HasRoom ∧ (o.addCmd req).2 = false ∧ (o.addCmd req).1 = o) := by
  by_cases room : o.HasRoom
  · exact Or.inl ⟨room, Owner.addCmd_room req room⟩
  · exact Or.inr ⟨room, by simp [Owner.addCmd_full req room]⟩

theorem write_queue (t : LogTarget) (o : Owner) (env : WriteEnv) (s : List Byte) (m : LogMeta)
    (filter : Filter) :
    ∃ added, (t.write o env s m filter).2.1.internalCmdQueue.items =
        o.internalCmdQueue.items ++ added ∧ added.length ≤ 1 ∧
      (∀ req ∈ added, req.OfWrite) ∧
      (o.HasRoom →
        added.filterMap InternalCmdReq.overflow? =
          if !t.disabled && decide (t.bankSize < s.length + GREASE_MAX_PREFIX_HEADER) then
            [.ofData s m]
          else []) := by
  unfold write
  cases off : t.disabled with
  | true => exact ⟨[], by simp⟩
  | false =>
    by_cases small : t.bankSize < s.length + GREASE_MAX_PREFIX_HEADER
    · rcases addCmd_cases o (.writeTargetOverflow t.myId (.ofData s m)) with
        ⟨_, added, items⟩ | ⟨full, unadded, same⟩
      · refine ⟨[.writeTargetOverflow t.myId (.ofData s m)], ?_⟩
        simp [small, items, InternalCmdReq.OfWrite, InternalCmdReq.overflow?]
      · refine ⟨[], ?_⟩
        simp only [small, if_true, unadded, same]
        exact ⟨by simp, by simp, by simp, fun room => absurd room full⟩
    · simp only [small, if_false, Bool.false_eq_true, Bool.not_false, decide_false, Bool.and_false]
      split
      · refine ⟨[], ?_⟩
        split <;> simp
      · split
        · rcases addCmd_cases o (.targetRotateBuffer t.myId) with
            ⟨_, added, items⟩ | ⟨_, full, _⟩
          · refine ⟨[.targetRotateBuffer t.myId], ?_⟩
            simp [added, items, InternalCmdReq.OfWrite, InternalCmdReq.overflow?]
          · exact ⟨[], by simp [full]⟩
        · exact ⟨[], by simp⟩

end LogTarget

end GreaseLog
