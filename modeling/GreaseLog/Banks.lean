import Mathlib.Data.List.Perm.Basic
import GreaseLog.LogTarget
import GreaseLog.Lib.Runs

/- The buffers of a target's bank are never in two places, whatever the logger
   thread and the callbacks do with them. The system here is one target with its
   owner; what other targets and threads do to the owner is a step of its own. -/
namespace GreaseLog

def WriteReq.buf? : WriteReq → Option BufId
  | .buffer b _ => some b
  | .overflow _ _ => none

def WriteCBData.bufOf (id : TargetId) : WriteCBData → Option BufId
  | .buffer t b => if t = id then some b else none
  | .overflow _ _ => none

def Owner.pending (o : Owner) (id : TargetId) : List BufId :=
  o.v8LogCallbacks.items.filterMap (WriteCBData.bufOf id)

theorem pending_congr {o o' : Owner} (same : o'.v8LogCallbacks = o.v8LogCallbacks) (id : TargetId) :
    o'.pending id = o.pending id := by
  simp only [Owner.pending, same]

namespace LogTarget

/-- The buffers in use, with those that the running function holds. -/
def locations (t : LogTarget) (o : Owner) (held : List BufId) : List BufId :=
  t.currentBuffer :: (t.availBuffers.items ++ t.writeOutBuffers.items ++
    t.inflight.filterMap WriteReq.buf? ++ o.pending t.myId ++ held)

structure BankWf (t : LogTarget) (o : Owner) (held : List BufId) : Prop where
  located : (t.locations o held).Perm (List.finRange NUM_BANKS)
  availCleared : ∀ b ∈ t.availBuffers.items, (t.buffers b).data = []
  spaces : ∀ b, (t.buffers b).space = t.bankSize

end LogTarget

@[simp] theorem copyIn_space (b : LogBuf) (s : List Byte) (useDelim : Bool) :
    (b.copyIn s useDelim).space = b.space := by
  unfold LogBuf.copyIn
  split <;> rfl

@[simp] theorem copyIn_delim (b : LogBuf) (s : List Byte) (useDelim : Bool) :
    (b.copyIn s useDelim).delim = b.delim := by
  unfold LogBuf.copyIn
  split <;> rfl

theorem copyIn_data (b : LogBuf) (s : List Byte) (useDelim : Bool) :
    (b.copyIn s useDelim).data =
      b.data ++ s ++ if useDelim = true ∧ s ≠ [] then b.delim else [] := by
  unfold LogBuf.copyIn
  split
  · simp [*]
  · cases useDelim <;> simp [*]

@[simp] theorem copyEntry_space (b : LogBuf) (header s footer : List Byte) :
    (b.copyEntry header s footer).space = b.space := by
  simp only [LogBuf.copyEntry]
  split <;> simp

@[simp] theorem copyEntry_delim (b : LogBuf) (header s footer : List Byte) :
    (b.copyEntry header s footer).delim = b.delim := by
  simp only [LogBuf.copyEntry]
  split <;> simp

def entryBytes (delim header s footer : List Byte) : List Byte := header ++ s ++ footer ++ delim

theorem LogTarget.overflowEntry_flatten (t : LogTarget) (env : WriteEnv) (log : SingleLog) (filter : Filter) :
    (t.overflowEntry env log filter).flatten = entryBytes t.delim
      (t.header env log.extraMeta.m filter) log.buf.bytes (t.footer env log.extraMeta.m filter) := by
  have optional : ∀ part : List Byte, (if part.isEmpty then [] else [part]).flatten = part := by
    intro part
    cases part <;> simp
  simp only [overflowEntry, List.flatten_append, optional, entryBytes, List.flatten_cons,
    List.flatten_nil, List.append_nil]

/-- The entry is complete, unless there is neither text nor footer to carry the
    delimiter. -/
theorem copyEntry_data (b : LogBuf) (header s footer : List Byte) :
    (b.copyEntry header s footer).data =
      b.data ++ header ++ s ++ footer ++ if s ≠ [] ∨ footer ≠ [] then b.delim else [] := by
  cases footer with
  | nil => simp [LogBuf.copyEntry, copyIn_data]
  | cons c rest => simp [LogBuf.copyEntry, copyIn_data]

theorem copyEntry_entry (b : LogBuf) {header s footer : List Byte}
    (carried : s ≠ [] ∨ footer ≠ [] ∨ b.delim = []) :
    (b.copyEntry header s footer).data = b.data ++ entryBytes b.delim header s footer := by
  rw [copyEntry_data, entryBytes]
  split
  · simp [List.append_assoc]
  · have noDelim : b.delim = [] := by tauto
    simp [noDelim, List.append_assoc]

theorem inflight_count {inflight rest : List WriteReq} {w : WriteReq}
    (taken : inflight.Perm (w :: rest)) (b : BufId) :
    (inflight.filterMap WriteReq.buf?).count b =
      w.buf?.toList.count b + (rest.filterMap WriteReq.buf?).count b := by
  have first : (w :: rest).filterMap WriteReq.buf? =
      w.buf?.toList ++ rest.filterMap WriteReq.buf? := by
    cases w <;> rfl
  rw [(taken.filterMap WriteReq.buf?).count_eq b, first, List.count_append]

theorem Owner.pending_next {o : Owner} (o' : Owner) {d : WriteCBData} (id : TargetId)
    (items : o.v8LogCallbacks.items = d :: o'.v8LogCallbacks.items) :
    o.pending id = (d.bufOf id).toList ++ o'.pending id := by
  rw [Owner.pending, items, List.filterMap_cons]
  cases d.bufOf id <;> rfl

namespace LogTarget
variable {t : LogTarget} {o : Owner} {held : List BufId}

@[simp] theorem setBuffer_same (b : BufId) (buf : LogBuf) : (t.setBuffer b buf).buffers b = buf := by
  simp [setBuffer]

theorem setBuffer_other {b b' : BufId} (buf : LogBuf) (ne : b' ≠ b) :
    (t.setBuffer b buf).buffers b' = t.buffers b' := by
  simp [setBuffer, ne]

theorem BankWf.nodup (wf : t.BankWf o held) : (t.locations o held).Nodup :=
  wf.located.nodup_iff.mpr (List.nodup_finRange _)

theorem BankWf.length (wf : t.BankWf o held) : (t.locations o held).length = NUM_BANKS := by
  rw [wf.located.length_eq, List.length_finRange]

theorem BankWf.current_apart (wf : t.BankWf o held) {b : BufId}
    (mem : b ∈ t.availBuffers.items ++ t.writeOutBuffers.items ++
      t.inflight.filterMap WriteReq.buf? ++ o.pending t.myId ++ held) : b ≠ t.currentBuffer := by
  intro same
  exact (List.nodup_cons.mp wf.nodup).1 (same ▸ mem)

theorem BankWf.current_not_avail (wf : t.BankWf o held) :
    t.currentBuffer ∉ t.availBuffers.items :=
  fun mem => wf.current_apart (by simp [mem]) rfl

theorem BankWf.avail_apart (wf : t.BankWf o held) {b : BufId}
    (mem : b ∈ t.writeOutBuffers.items ++ t.inflight.filterMap WriteReq.buf? ++
      o.pending t.myId ++ held) : b ∉ t.availBuffers.items := by
  intro free
  have apart := (List.nodup_cons.mp wf.nodup).2
  simp only [List.append_assoc] at apart mem
  exact (List.nodup_append.mp apart).2.2 b free b mem rfl

theorem BankWf.writeOut_room (wf : t.BankWf o held) (free : t.availBuffers.items ≠ []) :
    t.writeOutBuffers.HasRoom := by
  have all := wf.length
  have some := List.length_pos_of_ne_nil free
  simp only [locations, List.length_cons, List.length_append] at all
  unfold BoundedQueue.HasRoom
  omega

theorem BankWf.moved {t' : LogTarget} {o' : Owner} {held' : List BufId} (wf : t.BankWf o held)
    (same : t'.buffers = t.buffers) (size : t'.bankSize = t.bankSize)
    (avail : ∀ b ∈ t'.availBuffers.items, b ∈ t.availBuffers.items)
    (counts : ∀ b, (t'.locations o' held').count b = (t.locations o held).count b) :
    t'.BankWf o' held' where
  located := (List.perm_iff_count.mpr counts).trans wf.located
  availCleared := fun b mem => by rw [same]; exact wf.availCleared b (avail b mem)
  spaces := by rw [same, size]; exact wf.spaces

theorem BankWf.pending_same (wf : t.BankWf o held) {o' : Owner}
    (same : o'.pending t.myId = o.pending t.myId) : t.BankWf o' held :=
  wf.moved rfl rfl (fun _ mem => mem) fun b => by simp only [locations, same]

theorem BankWf.setBuffer (wf : t.BankWf o held) {b : BufId} {buf : LogBuf}
    (space : buf.space = t.bankSize) (apart : b ∉ t.availBuffers.items) :
    (t.setBuffer b buf).BankWf o held where
  located := wf.located
  availCleared := by
    intro b' mem
    rw [setBuffer_other buf fun same : b' = b => apart (same ▸ mem)]
    exact wf.availCleared b' mem
  spaces := by
    intro b'
    by_cases same : b' = b
    · rw [same, setBuffer_same]
      exact space
    · rw [setBuffer_other buf same]
      exact wf.spaces b'

theorem store_wf (wf : t.BankWf o held) (header s footer : List Byte) :
    (t.store header s footer).BankWf o held :=
  wf.setBuffer (by simp [current, wf.spaces]) wf.current_not_avail

theorem clearCurrent_wf (wf : t.BankWf o held) : (t.clearBuffer t.currentBuffer).BankWf o held :=
  wf.setBuffer (by simp [LogBuf.clear, wf.spaces]) wf.current_not_avail

theorem rotate_cases (t : LogTarget) :
    (t.current.data = [] ∧ t.rotate = (t, .noData)) ∨
    (t.current.data ≠ [] ∧ t.availBuffers.items = [] ∧
      t.rotate = (t.clearBuffer t.currentBuffer, .noBuffers)) ∨
    (t.current.data ≠ [] ∧ t.availBuffers.items ≠ [] ∧ t.writeOutBuffers.HasRoom ∧
      ∃ next avail writeOut, t.availBuffers.items = next :: avail.items ∧
        writeOut.items = t.writeOutBuffers.items ++ [t.currentBuffer] ∧
        t.rotate = ({ t with
          availBuffers := avail, writeOutBuffers := writeOut, currentBuffer := next }, .rotated)) ∨
    (t.current.data ≠ [] ∧ t.availBuffers.items ≠ [] ∧ ¬ t.writeOutBuffers.HasRoom ∧
      t.rotate.2 = .writeOutFull) := by
  by_cases data : t.current.data = []
  · exact Or.inl ⟨data, by simp [rotate, data]⟩
  · have some : 0 < t.current.data.length := List.length_pos_of_ne_nil data
    cases free : t.availBuffers.items with
    | nil =>
      have none := (BoundedQueue.remove_none_iff _).mpr free
      exact Or.inr (Or.inl ⟨data, rfl, by simp [rotate, some, none]⟩)
    | cons next rest =>
      obtain ⟨avail, removed, left⟩ := BoundedQueue.remove_cons free
      rcases BoundedQueue.addIfRoom_cases t.writeOutBuffers t.currentBuffer with
        ⟨room, added, items⟩ | ⟨full, added⟩
      · refine Or.inr (Or.inr (Or.inl ⟨data, by simp, room, next, avail, _, by rw [left], items, ?_⟩))
        simp [rotate, some, removed, added]
      · exact Or.inr (Or.inr (Or.inr ⟨data, by simp, full, by simp [rotate, some, removed, added]⟩))

/-- A target whose bank is sound never finds writeOutBuffers full. -/
theorem rotate_wf_cases (wf : t.BankWf o held) :
    (t.current.data = [] ∧ t.rotate = (t, .noData)) ∨
    (t.current.data ≠ [] ∧ t.availBuffers.items = [] ∧
      t.rotate = (t.clearBuffer t.currentBuffer, .noBuffers)) ∨
    (t.current.data ≠ [] ∧ ∃ next avail writeOut, t.availBuffers.items = next :: avail.items ∧
      writeOut.items = t.writeOutBuffers.items ++ [t.currentBuffer] ∧
      t.rotate = ({ t with
        availBuffers := avail, writeOutBuffers := writeOut, currentBuffer := next }, .rotated)) := by
  rcases rotate_cases t with h | h | ⟨data, _, _, h⟩ | ⟨_, free, full, _⟩
  · exact Or.inl h
  · exact Or.inr (Or.inl h)
  · exact Or.inr (Or.inr ⟨data, h⟩)
  · exact absurd (wf.writeOut_room free) full

theorem rotate_wf (wf : t.BankWf o held) : t.rotate.1.BankWf o held := by
  rcases rotate_wf_cases wf with ⟨_, h⟩ | ⟨_, _, h⟩ | ⟨_, next, avail, writeOut, free, out, h⟩
  · rw [h]
    exact wf
  · rw [h]
    exact clearCurrent_wf wf
  · rw [h]
    refine wf.moved rfl rfl (by simp +contextual [free]) fun b => ?_
    simp only [locations, free, out, List.count_cons, List.count_append, List.count_nil]
    omega

theorem release_wf {b : BufId} (wf : t.BankWf o (b :: held)) :
    ((t.clearBuffer b).addAvail b).BankWf o held := by
  have room : t.availBuffers.HasRoom := by
    have total := wf.length
    simp only [locations, List.length_cons, List.length_append] at total
    unfold BoundedQueue.HasRoom
    omega
  have apart : b ∉ t.availBuffers.items := wf.avail_apart (by simp)
  obtain ⟨-, items⟩ := BoundedQueue.addIfRoom_room b room
  have space : (t.buffers b).clear.space = t.bankSize := wf.spaces b
  have cleared := wf.setBuffer space apart
  constructor
  · refine List.Perm.trans (List.perm_iff_count.mpr fun c => ?_) wf.located
    simp only [addAvail, clearBuffer, LogTarget.setBuffer, locations, items, List.count_cons,
      List.count_append, List.count_nil]
    omega
  · intro c mem
    simp only [addAvail, clearBuffer, LogTarget.setBuffer, items, List.mem_append,
      List.mem_singleton] at mem
    rcases mem with mem | rfl
    · exact cleared.availCleared c mem
    · simp [addAvail, clearBuffer, LogBuf.clear]
  · exact cleared.spaces

theorem returnBuffer_cases (t : LogTarget) (o : Owner) (b : BufId) (nocallback : Bool) :
    ∃ o' : Owner, o'.v8LogCallbacks = o.v8LogCallbacks ∧
      o'.internalCmdQueue = o.internalCmdQueue ∧
      (t.returnBuffer o b nocallback = ((t.clearBuffer b).addAvail b, o') ∨
        o'.v8LogCallbacks.HasRoom ∧ t.returnBuffer o b nocallback =
          (t, (o'.addCallback (.buffer t.myId b)).1.refFromV8)) := by
  let o' := if (t.buffers b).isEmpty then o else o.unrefGreaseInGrease
  have callbacks : o'.v8LogCallbacks = o.v8LogCallbacks := by
    simp only [o']
    split <;> rfl
  have commands : o'.internalCmdQueue = o.internalCmdQueue := by
    simp only [o']
    split <;> rfl
  refine ⟨o', callbacks, commands, ?_⟩
  have eq : t.returnBuffer o b nocallback =
      t.callbackOrRelease o' b (!nocallback && t.logCallbackSet && !(t.buffers b).isEmpty) := rfl
  rw [eq, callbackOrRelease]
  split
  · by_cases room : o'.v8LogCallbacks.HasRoom
    · exact Or.inr ⟨room, by simp [Owner.addCallback, BoundedQueue.addIfRoom_room _ room]⟩
    · exact Or.inl (by simp [Owner.addCallback, BoundedQueue.addIfRoom_full _ room])
  · exact Or.inl rfl

theorem returnBuffer_wf {b : BufId} (wf : t.BankWf o (b :: held)) (nocallback : Bool) :
    (t.returnBuffer o b nocallback).1.BankWf (t.returnBuffer o b nocallback).2 held := by
  obtain ⟨o', callbacks, -, released | ⟨room, waiting⟩⟩ := t.returnBuffer_cases o b nocallback
  · have same : ∀ h, t.locations o' h = t.locations o h := by
      simp only [locations, Owner.pending, callbacks, implies_true]
    rw [released]
    exact release_wf (wf.moved rfl rfl (fun _ mem => mem) fun c => by rw [same])
  · rw [waiting]
    have items := (BoundedQueue.addIfRoom_room (.buffer t.myId b) room).2
    rw [callbacks] at items
    have pended : (o'.addCallback (.buffer t.myId b)).1.refFromV8.pending t.myId =
        o.pending t.myId ++ [b] := by
      simp only [Owner.pending, Owner.addCallback, Owner.refFromV8, items, callbacks,
        List.filterMap_append]
      simp [WriteCBData.bufOf]
    refine wf.moved rfl rfl (fun _ mem => mem) fun c => ?_
    simp only [locations, pended, List.count_cons, List.count_append, List.count_nil]
    omega

theorem flush_cases (t : LogTarget) (o : Owner) (b : BufId) (nocallbacks : Bool) :
    (t.kind ≠ .callback ∧ t.flush o b nocallbacks =
      ({ t with inflight := t.inflight ++ [.buffer b nocallbacks] }, o)) ∨
    (t.kind = .callback ∧ t.flush o b nocallbacks = t.returnBuffer o b nocallbacks) := by
  unfold flush
  split <;> simp [*]

theorem submit_wf {w : WriteReq} (wf : t.BankWf o (w.buf?.toList ++ held)) :
    ({ t with inflight := t.inflight ++ [w] } : LogTarget).BankWf o held := by
  refine wf.moved rfl rfl (fun _ mem => mem) fun c => ?_
  have last : [w].filterMap WriteReq.buf? = w.buf?.toList := by
    cases w <;> rfl
  simp only [locations, List.filterMap_append, last, List.count_cons, List.count_append]
  omega

theorem takeInflight_wf (wf : t.BankWf o held) {w : WriteReq} {rest : List WriteReq}
    (taken : t.inflight.Perm (w :: rest)) :
    ({ t with inflight := rest } : LogTarget).BankWf o (w.buf?.toList ++ held) := by
  refine wf.moved rfl rfl (fun _ mem => mem) fun c => ?_
  have counts := inflight_count taken c
  simp only [locations, List.count_cons, List.count_append]
  omega

theorem takePending_wf (wf : t.BankWf o held) (o' : Owner) {d : WriteCBData}
    (items : o.v8LogCallbacks.items = d :: o'.v8LogCallbacks.items) :
    t.BankWf o' ((d.bufOf t.myId).toList ++ held) := by
  refine wf.moved rfl rfl (fun _ mem => mem) fun c => ?_
  simp only [locations, Owner.pending_next o' t.myId items, List.count_cons, List.count_append]
  omega

theorem flush_wf {b : BufId} (wf : t.BankWf o (b :: held)) (nocallbacks : Bool) :
    (t.flush o b nocallbacks).1.BankWf (t.flush o b nocallbacks).2 held := by
  rcases flush_cases t o b nocallbacks with ⟨_, h⟩ | ⟨_, h⟩
  · rw [h]
    exact submit_wf wf
  · rw [h]
    exact returnBuffer_wf wf nocallbacks

theorem flushOut_wf {out : List BufId} (wf : t.BankWf o (out ++ held)) (nocallbacks : Bool) :
    (t.flushOut o nocallbacks out).1.BankWf (t.flushOut o nocallbacks out).2 held := by
  induction out generalizing t o with
  | nil => exact wf
  | cons b rest ih => exact ih (flush_wf wf nocallbacks)

theorem takeWriteOut_wf (wf : t.BankWf o held) :
    ({ t with writeOutBuffers := .empty }).BankWf o (t.writeOutBuffers.items ++ held) := by
  refine wf.moved rfl rfl (fun _ mem => mem) fun c => ?_
  simp only [locations, BoundedQueue.empty_items, List.count_cons, List.count_append,
    List.count_nil]
  omega

theorem flushAll_wf (wf : t.BankWf o held) (doRotate nocallbacks : Bool) :
    (t.flushAll o doRotate nocallbacks).1.BankWf (t.flushAll o doRotate nocallbacks).2.1 held := by
  cases doRotate with
  | true => exact flushOut_wf (takeWriteOut_wf (rotate_wf wf)) nocallbacks
  | false => exact flushOut_wf (takeWriteOut_wf wf) nocallbacks

theorem addCallback_overflow_pending (o : Owner) (id id' : TargetId) (entry : OverflowWriteOut) :
    (o.addCallback (.overflow id entry)).1.pending id' = o.pending id' := by
  rcases BoundedQueue.addIfRoom_cases o.v8LogCallbacks (.overflow id entry) with
    ⟨_, _, items⟩ | ⟨_, added⟩
  · simp [Owner.pending, Owner.addCallback, items, WriteCBData.bufOf]
  · simp [Owner.pending, Owner.addCallback, added]

theorem returnOverflow_pending (t : LogTarget) (o : Owner) (entry : OverflowWriteOut)
    (nocallback : Bool) (id : TargetId) :
    (t.returnOverflow o entry nocallback).pending id = o.pending id := by
  unfold returnOverflow
  simp only
  split
  · exact addCallback_overflow_pending o.unrefGreaseInGrease t.myId id entry
  · rfl

theorem writeCb_wf (wf : t.BankWf o held) : (t.writeCb o).1.BankWf (t.writeCb o).2 held := by
  unfold writeCb
  split
  · exact wf
  · rename_i b nocallback rest submitted
    exact returnBuffer_wf (takeInflight_wf wf (.of_eq submitted)) nocallback
  · rename_i entry nocallback rest submitted
    have taken : ({ t with inflight := rest } : LogTarget).BankWf o held :=
      takeInflight_wf wf (.of_eq submitted)
    exact taken.pending_same (returnOverflow_pending _ o entry nocallback t.myId)

theorem callV8LogCallback_cases (t : LogTarget) (o : Owner) :
    (o.v8LogCallbacks.items = [] ∧ t.callV8LogCallback o = (t, o)) ∨
    ∃ d rest, o.v8LogCallbacks.remove = some (d, rest) ∧
      let o' : Owner := { o with v8LogCallbacks := rest, needV8 := o.needV8 - 1 }
      ((∃ b, d = .buffer t.myId b ∧ t.callV8LogCallback o = (t.finalizeV8Callback b, o')) ∨
        (d.bufOf t.myId = none ∧ t.callV8LogCallback o = (t, o'))) := by
  cases removed : o.v8LogCallbacks.remove with
  | none =>
    have empty := (BoundedQueue.remove_none_iff _).mp removed
    exact Or.inl ⟨empty, by simp [callV8LogCallback, removed]⟩
  | some p =>
    obtain ⟨d, rest⟩ := p
    refine Or.inr ⟨d, rest, rfl, ?_⟩
    cases d with
    | buffer id b =>
      by_cases ours : id = t.myId
      · exact Or.inl ⟨b, by rw [ours], by simp [callV8LogCallback, removed, ours]⟩
      · exact Or.inr ⟨if_neg ours, by simp [callV8LogCallback, removed, ours]⟩
    | overflow id entry => exact Or.inr ⟨rfl, by simp [callV8LogCallback, removed]⟩

theorem bufOf_own (t : LogTarget) (b : BufId) :
    (WriteCBData.buffer t.myId b).bufOf t.myId = some b := if_pos rfl

theorem callV8LogCallback_wf (wf : t.BankWf o held) :
    (t.callV8LogCallback o).1.BankWf (t.callV8LogCallback o).2 held := by
  rcases t.callV8LogCallback_cases o with ⟨_, h⟩ | ⟨d, rest, removed, ⟨b, rfl, h⟩ | ⟨other, h⟩⟩
  · rw [h]
    exact wf
  · have taken := takePending_wf wf { o with v8LogCallbacks := rest, needV8 := o.needV8 - 1 }
      (BoundedQueue.remove_some removed)
    rw [bufOf_own] at taken
    rw [h]
    exact release_wf taken
  · have taken := takePending_wf wf { o with v8LogCallbacks := rest, needV8 := o.needV8 - 1 }
      (BoundedQueue.remove_some removed)
    rw [other] at taken
    rw [h]
    exact taken

end LogTarget

end GreaseLog
