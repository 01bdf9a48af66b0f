import GreaseLog.Handled

/- What a target has taken and its file has not: the bytes of the writes in flight
   that have yet to take effect, of the buffers to be flushed, and of the current
   one. Only write() adds to them, and only a write that takes effect removes any. -/
namespace GreaseLog
namespace LogTarget
variable {t : LogTarget} {o : Owner} {held : List BufId}

def bytesOf (t : LogTarget) : WriteReq → List Byte
  | .buffer b _ => (t.buffers b).data
  | .overflow entry _ => entry.flatten

/-- The first writes in flight, so many of them, have taken effect. -/
def unwritten (t : LogTarget) (landed : Nat) : List Byte :=
  (t.inflight.drop landed).flatMap t.bytesOf ++
    t.writeOutBuffers.items.flatMap (fun b => (t.buffers b).data) ++ t.current.data

def copiedEntry (t : LogTarget) (env : WriteEnv) (s : List Byte) (m : LogMeta) (filter : Filter) :
    List Byte :=
  t.header env m filter ++ s ++ t.footer env m filter ++
    if s ≠ [] ∨ t.footer env m filter ≠ [] then t.current.delim else []

theorem bytesOf_other {t' : LogTarget} {req : WriteReq}
    (same : ∀ b ∈ req.buf?, (t'.buffers b).data = (t.buffers b).data) :
    t'.bytesOf req = t.bytesOf req := by
  cases req with
  | buffer b nocallback => exact same b rfl
  | overflow entry nocallback => rfl

theorem onTheWay_congr (t' : LogTarget) (landed : Nat)
    (same : ∀ b, b ∈ t.inflight.filterMap WriteReq.buf? ∨ b ∈ t.writeOutBuffers.items →
      (t'.buffers b).data = (t.buffers b).data) :
    (t.inflight.drop landed).flatMap t'.bytesOf = (t.inflight.drop landed).flatMap t.bytesOf ∧
      t.writeOutBuffers.items.flatMap (fun b => (t'.buffers b).data) =
        t.writeOutBuffers.items.flatMap (fun b => (t.buffers b).data) := by
  constructor
  · apply List.flatMap_congr
    intro req mem
    apply bytesOf_other
    intro b of
    exact same b (Or.inl (List.mem_filterMap.mpr ⟨req, List.mem_of_mem_drop mem, of⟩))
  · apply List.flatMap_congr
    intro b mem
    exact same b (Or.inr mem)

theorem unwritten_congr {t' : LogTarget} (landed : Nat) (inflight : t'.inflight = t.inflight)
    (writeOut : t'.writeOutBuffers = t.writeOutBuffers) (current : t'.currentBuffer = t.currentBuffer)
    (same : ∀ b, b ∈ t.inflight.filterMap WriteReq.buf? ∨ b ∈ t.writeOutBuffers.items ∨
      b = t.currentBuffer → (t'.buffers b).data = (t.buffers b).data) :
    t'.unwritten landed = t.unwritten landed := by
  obtain ⟨submitted, waiting⟩ := onTheWay_congr t' landed fun b place =>
    same b (or_assoc.mp (Or.inl place))
  have last : (t'.buffers t.currentBuffer).data = (t.buffers t.currentBuffer).data :=
    same _ (Or.inr (Or.inr rfl))
  simp only [unwritten, LogTarget.current, inflight, writeOut, current, submitted, waiting, last]

theorem current_elsewhere (wf : t.BankWf o held) :
    t.currentBuffer ∉ t.inflight.filterMap WriteReq.buf? ∧
      t.currentBuffer ∉ t.writeOutBuffers.items := by
  constructor
  · intro mem
    exact wf.current_apart (by simp only [List.mem_append]; tauto) rfl
  · intro mem
    exact wf.current_apart (by simp only [List.mem_append]; tauto) rfl

theorem held_elsewhere {b : BufId} (wf : t.BankWf o (b :: held)) :
    b ∉ t.inflight.filterMap WriteReq.buf? ∧ b ∉ t.writeOutBuffers.items ∧ b ≠ t.currentBuffer := by
  have once := List.nodup_iff_count_le_one.mp wf.nodup b
  simp only [locations, List.count_cons, List.count_append, beq_self_eq_true, if_true] at once
  refine ⟨?_, ?_, wf.current_apart (by simp)⟩
  · rw [← List.count_eq_zero]
    omega
  · rw [← List.count_eq_zero]
    omega

theorem store_unwritten (wf : t.BankWf o held) (env : WriteEnv) (s : List Byte) (m : LogMeta)
    (filter : Filter) (landed : Nat) :
    (t.store (t.header env m filter) s (t.footer env m filter)).unwritten landed =
      t.unwritten landed ++ t.copiedEntry env s m filter := by
  obtain ⟨notSubmitted, notWaiting⟩ := current_elsewhere wf
  let t' := t.store (t.header env m filter) s (t.footer env m filter)
  have others : ∀ b, b ≠ t.currentBuffer → (t'.buffers b).data = (t.buffers b).data := by
    intro b other
    simp only [t', store, setBuffer_other _ other]
  obtain ⟨submitted, waiting⟩ := onTheWay_congr t' landed fun b place => by
    apply others
    rintro rfl
    exact place.elim notSubmitted notWaiting
  have last : t'.current.data = t.current.data ++ t.copiedEntry env s m filter := by
    have copied : t'.current =
        t.current.copyEntry (t.header env m filter) s (t.footer env m filter) := setBuffer_same _ _
    rw [copied, copyEntry_data]
    simp only [copiedEntry, List.append_assoc]
  have unfolded : t'.unwritten landed = (t.inflight.drop landed).flatMap t'.bytesOf ++
      t.writeOutBuffers.items.flatMap (fun b => (t'.buffers b).data) ++ t'.current.data := rfl
  rw [unfolded, submitted, waiting, last, ← List.append_assoc]
  rfl

theorem rotate_unwritten (wf : t.BankWf o held) (free : t.availBuffers.items ≠ []) (landed : Nat) :
    t.rotate.1.unwritten landed = t.unwritten landed := by
  rcases rotate_wf_cases wf with ⟨_, h⟩ | ⟨_, none, _⟩ | ⟨_, next, avail, writeOut, first, out, h⟩
  · rw [h]
  · exact absurd none free
  · have cleared : (t.buffers next).data = [] := wf.availCleared next (by simp [first])
    rw [h]
    simp only [unwritten, current, out, List.flatMap_append, List.flatMap_cons, List.flatMap_nil,
      List.append_nil, cleared, List.append_assoc]
    rfl

theorem rotate_current (wf : t.BankWf o held) (free : t.availBuffers.items ≠ []) :
    t.rotate.1.current.data = [] := by
  rcases rotate_wf_cases wf with ⟨empty, h⟩ | ⟨_, none, _⟩ | ⟨_, _, _, _, _, _, h⟩
  · rw [h]
    exact empty
  · exact absurd none free
  · exact rotated_current wf (by rw [h])

theorem release_unwritten {b : BufId} (wf : t.BankWf o (b :: held)) (landed : Nat) :
    ((t.clearBuffer b).addAvail b).unwritten landed = t.unwritten landed := by
  obtain ⟨notSubmitted, notWaiting, notCurrent⟩ := held_elsewhere wf
  refine unwritten_congr landed ?_ ?_ ?_ ?_
  · rfl
  · rfl
  · rfl
  intro c place
  have other : c ≠ b := by
    rintro rfl
    tauto
  simp only [addAvail, clearBuffer, setBuffer_other _ other]

theorem returnBuffer_unwritten {b : BufId} (wf : t.BankWf o (b :: held)) (nocallback : Bool)
    (landed : Nat) : (t.returnBuffer o b nocallback).1.unwritten landed = t.unwritten landed := by
  obtain ⟨o', _, _, released | ⟨_, waiting⟩⟩ := t.returnBuffer_cases o b nocallback
  · rw [released]
    exact release_unwritten wf landed
  · rw [waiting]

theorem returnBuffer_inflight (t : LogTarget) (o : Owner) (b : BufId) (nocallback : Bool) :
    (t.returnBuffer o b nocallback).1.inflight = t.inflight := by
  obtain ⟨o', _, _, released | ⟨_, waiting⟩⟩ := t.returnBuffer_cases o b nocallback
  · rw [released]
    rfl
  · rw [waiting]

theorem writeCb_unwritten (wf : t.BankWf o []) {landed : Nat}
    (submitted : landed + 1 ≤ t.inflight.length) :
    (t.writeCb o).1.unwritten landed = t.unwritten (landed + 1) ∧
      (t.writeCb o).1.inflight = t.inflight.drop 1 := by
  unfold writeCb
  split
  · rename_i none
    rw [none] at submitted
    exact absurd submitted (Nat.not_succ_le_zero _)
  · rename_i b nocallback rest inflight
    have taken : ({ t with inflight := rest } : LogTarget).BankWf o (b :: []) :=
      takeInflight_wf wf (.of_eq inflight)
    rw [returnBuffer_inflight, returnBuffer_unwritten taken nocallback landed]
    simp only [unwritten, inflight, List.drop_succ_cons, List.drop_zero, and_true]
    rfl
  · rename_i entry nocallback rest inflight
    simp only [unwritten, inflight, List.drop_succ_cons, List.drop_zero, and_true]
    rfl

theorem callV8LogCallback_unwritten (wf : t.BankWf o []) (landed : Nat) :
    (t.callV8LogCallback o).1.unwritten landed = t.unwritten landed ∧
      (t.callV8LogCallback o).1.inflight = t.inflight := by
  rcases t.callV8LogCallback_cases o with ⟨_, h⟩ | ⟨d, rest, removed, ⟨b, rfl, h⟩ | ⟨_, h⟩⟩ <;> rw [h]
  · exact ⟨rfl, rfl⟩
  · have taken := takePending_wf wf { o with v8LogCallbacks := rest, needV8 := o.needV8 - 1 }
      (BoundedQueue.remove_some removed)
    rw [bufOf_own] at taken
    exact ⟨release_unwritten taken landed, rfl⟩
  · exact ⟨rfl, rfl⟩

theorem flushOut_submits (asynchronous : t.kind ≠ .callback) (o : Owner) (nocallbacks : Bool)
    (out : List BufId) :
    t.flushOut o nocallbacks out =
      ({ t with inflight := t.inflight ++ out.map (.buffer · nocallbacks) }, o) := by
  induction out generalizing t with
  | nil => simp [flushOut]
  | cons b rest ih =>
    rcases flush_cases t o b nocallbacks with ⟨_, h⟩ | ⟨synchronous, _⟩
    · have others := ih (t := { t with inflight := t.inflight ++ [.buffer b nocallbacks] })
        asynchronous
      rw [flushOut, h, others]
      simp [List.append_assoc]
    · exact absurd synchronous asynchronous

theorem flushAll_eq (asynchronous : t.kind ≠ .callback) (o : Owner) (doRotate nocallbacks : Bool) :
    (t.flushAll o doRotate nocallbacks).1 =
      let ready := if doRotate then t.rotate.1 else t
      { ready with
        writeOutBuffers := .empty
        inflight := ready.inflight ++ ready.writeOutBuffers.items.map (.buffer · nocallbacks) } := by
  have kind : t.rotate.1.kind ≠ .callback := by
    rw [(onlyClears_rotate t).config.kind]
    exact asynchronous
  cases doRotate with
  | true =>
    have submits := flushOut_submits (t := { t.rotate.1 with writeOutBuffers := .empty }) kind o
      nocallbacks t.rotate.1.writeOutBuffers.items
    exact congrArg Prod.fst submits
  | false =>
    have submits := flushOut_submits (t := { t with writeOutBuffers := .empty }) asynchronous o
      nocallbacks t.writeOutBuffers.items
    exact congrArg Prod.fst submits

theorem flushAll_unwritten (wf : t.BankWf o []) (asynchronous : t.kind ≠ .callback)
    (doRotate nocallbacks : Bool) (free : t.availBuffers.items ≠ []) {landed : Nat}
    (submitted : landed ≤ t.inflight.length) :
    let t' := (t.flushAll o doRotate nocallbacks).1
    t'.unwritten landed = t.unwritten landed ∧ landed ≤ t'.inflight.length ∧
      (doRotate = true → t'.unwritten t'.inflight.length = []) := by
  intro t'
  let ready := if doRotate then t.rotate.1 else t
  have inflight : ready.inflight = t.inflight := by
    simp only [ready]
    split
    · exact t.rotate_frame.1
    · rfl
  have kept : ready.unwritten landed = t.unwritten landed := by
    simp only [ready]
    split
    · exact rotate_unwritten wf free landed
    · rfl
  have flushed : t' = { ready with
      writeOutBuffers := .empty
      inflight := ready.inflight ++ ready.writeOutBuffers.items.map (.buffer · nocallbacks) } :=
    flushAll_eq asynchronous o doRotate nocallbacks
  rw [flushed]
  refine ⟨?_, ?_, ?_⟩
  · rw [← kept]
    simp only [unwritten, inflight, List.drop_append_of_le_length submitted, List.flatMap_append,
      List.flatMap_map, BoundedQueue.empty_items, List.flatMap_nil, List.append_nil]
    rfl
  · simp only [inflight, List.length_append]
    omega
  · rintro rfl
    have empty : t.rotate.1.current.data = [] := rotate_current wf free
    simp only [unwritten, List.drop_length, List.flatMap_nil, BoundedQueue.empty_items]
    exact empty

theorem write_requeues (on : t.disabled = false) {s : List Byte}
    (small : t.bankSize < s.length + GREASE_MAX_PREFIX_HEADER) (room : o.HasRoom) (env : WriteEnv)
    (m : LogMeta) (filter : Filter) :
    (t.write o env s m filter).1 = t ∧
      (t.write o env s m filter).2.1.internalCmdQueue.items =
        o.internalCmdQueue.items ++ [.writeTargetOverflow t.myId (.ofData s m)] := by
  simp [write, on, small, Owner.addCmd_room _ room]

/-- With a free buffer and room for a command, an entry that fits an empty buffer
    is buffered behind the others. -/
theorem write_buffers (wf : t.BankWf o []) (delims : ∀ b, (t.buffers b).delim = t.current.delim)
    (on : t.disabled = false) {env : WriteEnv} {s : List Byte} {m : LogMeta} {filter : Filter}
    (size : s.length + GREASE_MAX_PREFIX_HEADER ≤ t.bankSize) (free : t.availBuffers.items ≠ [])
    (room : o.HasRoom)
    (fits : (entryBytes t.current.delim (t.header env m filter) s (t.footer env m filter)).length ≤
      t.bankSize) (landed : Nat) :
    (t.write o env s m filter).1.unwritten landed =
        t.unwritten landed ++ t.copiedEntry env s m filter ∧
      (t.write o env s m filter).1.inflight = t.inflight ∧
      ∃ added, (t.write o env s m filter).2.1.internalCmdQueue.items =
          o.internalCmdQueue.items ++ added ∧ ∀ req ∈ added, req = .targetRotateBuffer t.myId := by
  have large : ¬ t.bankSize < s.length + GREASE_MAX_PREFIX_HEADER := Nat.not_lt.mpr size
  by_cases fit : s.length + (t.header env m filter).length + (t.footer env m filter).length ≤
      t.current.remain
  · simp only [write, on, large, if_false, Bool.false_eq_true, ge_iff_le]
    rw [if_pos fit]
    refine ⟨store_unwritten wf env s m filter landed, rfl, [], ?_, by simp⟩
    split <;> simp
  · have turned : t.rotate.2 = .rotated := by
      rcases rotate_wf_cases wf with ⟨empty, _⟩ | ⟨_, none, _⟩ | ⟨_, _, _, _, _, _, h⟩
      · rw [entryBytes_length] at fits
        have space : t.current.space = t.bankSize := wf.spaces _
        unfold LogBuf.remain at fit
        rw [space, empty, List.length_nil] at fit
        omega
      · exact absurd none free
      · rw [h]
    have clears := onlyClears_rotate t
    obtain ⟨header, footer⟩ := clears.config.texts
    have delim : t.rotate.1.current.delim = t.current.delim :=
      (clears.delims _).trans (delims _)
    have stored := store_unwritten (rotate_wf wf) env s m filter landed
    have copied : t.rotate.1.copiedEntry env s m filter = t.copiedEntry env s m filter := by
      simp only [copiedEntry, header, footer, delim]
    rw [header, footer, rotate_unwritten wf free landed, copied] at stored
    have inflight := t.rotate_frame.1
    simp only [write, on, large, if_false, Bool.false_eq_true, ge_iff_le]
    rw [if_neg fit]
    simp only [turned, Owner.addCmd_room _ room, if_true]
    exact ⟨stored, inflight, [.targetRotateBuffer t.myId], (Owner.addCmd_room _ room).2, by simp⟩

theorem writeOverflow_file (file : t.kind = .file) (on : t.disabled = false) (o : Owner)
    (env : WriteEnv) (log : SingleLog) (filter : Filter) :
    (t.writeOverflow o env log filter).1 = t ∧
      (t.writeOverflow o env log filter).2.2.2 = (t.overflowEntry env log filter).flatten := by
  simp [writeOverflow, writeAsyncOverflow, on, file]

end LogTarget
end GreaseLog
