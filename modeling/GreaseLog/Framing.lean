import GreaseLog.BankSafety

/- Buffered output is framed and first-in first-out: a ledger of the accepted
   entries says, at every moment, what lies in the buffers and what was written. -/
namespace GreaseLog

abbrev Entry := List Byte

/-- The accepted entries in write order, the batches that rotations took from
    currentBuffer, each with whether a buffer was free, and the entries that are in it. -/
structure Ledger where
  accepted : List Entry := []
  batches : List (List Entry × Bool) := []
  current : List Entry := []

namespace Ledger

def accept (l : Ledger) (e : Entry) : Ledger :=
  { l with accepted := l.accepted ++ [e], current := l.current ++ [e] }

def rotate (l : Ledger) (free : Bool) : Ledger :=
  { l with batches := l.batches ++ [(l.current, free)], current := [] }

/-- The entries that left currentBuffer for the output: a batch without a free buffer is lost. -/
def settled (l : Ledger) : List Entry := (l.batches.filter Prod.snd).flatMap Prod.fst

/-- Each accepted entry is in one batch or in currentBuffer, in write order. -/
def Batched (l : Ledger) : Prop := l.batches.flatMap Prod.fst ++ l.current = l.accepted

theorem accept_batched {l : Ledger} (batched : l.Batched) (e : Entry) : (l.accept e).Batched := by
  unfold Batched accept
  simp only
  rw [← List.append_assoc]
  exact congrArg (· ++ [e]) batched

theorem rotate_batched {l : Ledger} (batched : l.Batched) (free : Bool) : (l.rotate free).Batched := by
  unfold Batched rotate
  simp only [List.flatMap_append, List.flatMap_cons, List.flatMap_nil, List.append_nil]
  exact batched

theorem settled_rotate (l : Ledger) :
    (l.rotate true).settled = l.settled ++ l.current ∧ (l.rotate false).settled = l.settled := by
  simp [settled, rotate]

end Ledger

def LogTarget.HasSpace (t : LogTarget) (env : WriteEnv) (s : List Byte) (m : LogMeta)
    (filter : Filter) : Prop :=
  s.length + (t.header env m filter).length + (t.footer env m filter).length ≤ t.current.remain

instance (t : LogTarget) (env : WriteEnv) (s : List Byte) (m : LogMeta) (filter : Filter) :
    Decidable (t.HasSpace env s m filter) :=
  inferInstanceAs (Decidable (_ ≤ _))

/-- What write() should make of an entry that fits an empty buffer: without space for
    it currentBuffer is rotated, and the entry is accepted if a buffer was free and the
    rotation can be announced. -/
def Ledger.write (l : Ledger) (t : LogTarget) (o : Owner) (env : WriteEnv) (s : List Byte)
    (m : LogMeta) (filter : Filter) (e : Entry) : Ledger :=
  if t.disabled then l
  else if t.HasSpace env s m filter then l.accept e
  else if t.availBuffers.items.isEmpty then l.rotate false
  else if o.HasRoom then (l.rotate true).accept e
  else l.rotate true

/-- `parts` splits each buffer into entries, `done` what the completed writes
    carried; `held` are the buffers a flush is about to submit. -/
structure Frames (t : LogTarget) (held : List BufId) (l : Ledger) (done : List Entry)
    (parts : BufId → List Entry) : Prop where
  data : ∀ b, (t.buffers b).data = (parts b).flatten
  accepted : ∀ b, ∀ e ∈ parts b, e ∈ l.accepted
  nonempty : ∀ e ∈ l.accepted, e ≠ []
  free : ∀ b ∈ t.availBuffers.items, parts b = []
  order : done ++ (t.inflight.filterMap WriteReq.buf? ++ held ++ t.writeOutBuffers.items).flatMap
    parts = l.settled
  current : parts t.currentBuffer = l.current
  synchronous : t.kind = .callback → t.inflight.filterMap WriteReq.buf? = []

namespace Frames
variable {t : LogTarget} {o : Owner} {held : List BufId} {l : Ledger} {done : List Entry}
  {parts : BufId → List Entry}

theorem flatMap_update_other {b : BufId} (parts : BufId → List Entry) (new : List Entry)
    {bs : List BufId} (apart : b ∉ bs) :
    bs.flatMap (Function.update parts b new) = bs.flatMap parts := by
  induction bs with
  | nil => rfl
  | cons c rest ih =>
    simp only [List.mem_cons, not_or] at apart
    simp [List.flatMap_cons, Ne.symm apart.1, ih apart.2]

theorem release {b : BufId} (wf : t.BankWf o (b :: held)) (frames : Frames t held l done parts) :
    Frames ((t.clearBuffer b).addAvail b) held l done (Function.update parts b []) := by
  have notCurrent : b ≠ t.currentBuffer := wf.current_apart (by simp)
  have elsewhere : b ∉ t.inflight.filterMap WriteReq.buf? ++ held ++ t.writeOutBuffers.items := by
    have once := List.nodup_iff_count_le_one.mp wf.nodup b
    rw [← List.count_eq_zero]
    simp only [LogTarget.locations, List.count_cons, List.count_append, beq_self_eq_true, if_true]
      at once ⊢
    omega
  constructor
  · intro c
    by_cases same : c = b
    · subst same
      simp [LogTarget.addAvail, LogTarget.clearBuffer, LogBuf.clear]
    · simpa [LogTarget.addAvail, LogTarget.clearBuffer, LogTarget.setBuffer, same] using
        frames.data c
  · intro c e mem
    by_cases same : c = b
    · subst same
      simp at mem
    · simp only [Function.update_of_ne same] at mem
      exact frames.accepted c e mem
  · exact frames.nonempty
  · intro c mem
    by_cases same : c = b
    · subst same
      simp
    · have old : c ∈ t.availBuffers.items := by
        have room : t.availBuffers.HasRoom := by
          have total := wf.length
          simp only [LogTarget.locations, List.length_cons, List.length_append] at total
          unfold BoundedQueue.HasRoom
          omega
        have items := (BoundedQueue.addIfRoom_room b room).2
        simp only [LogTarget.addAvail, LogTarget.clearBuffer, LogTarget.setBuffer, items,
          List.mem_append, List.mem_singleton] at mem
        exact mem.resolve_right same
      rw [Function.update_of_ne same]
      exact frames.free c old
  · have order := frames.order
    rw [← flatMap_update_other parts [] elsewhere] at order
    exact order
  · have current := frames.current
    rw [← Function.update_of_ne notCurrent.symm [] parts] at current
    exact current
  · exact frames.synchronous

theorem returnBuffer {b : BufId} (wf : t.BankWf o (b :: held)) (frames : Frames t held l done parts)
    (nocallback : Bool) :
    ∃ parts', Frames (t.returnBuffer o b nocallback).1 held l done parts' ∧
      ∀ c, c ≠ b → parts' c = parts c := by
  obtain ⟨o', callbacks, _, released | ⟨_, waiting⟩⟩ := t.returnBuffer_cases o b nocallback
  · rw [released]
    exact ⟨_, release wf frames, fun c ne => Function.update_of_ne ne _ _⟩
  · rw [waiting]
    exact ⟨parts, frames, fun _ _ => rfl⟩

def completedBy (t : LogTarget) (parts : BufId → List Entry) (out : List BufId) : List Entry :=
  if t.kind = .callback then out.flatMap parts else []

theorem returnBuffer_kind (t : LogTarget) (o : Owner) (b : BufId) (nocallback : Bool) :
    (t.returnBuffer o b nocallback).1.kind = t.kind := by
  obtain ⟨o', _, _, released | ⟨_, waiting⟩⟩ := t.returnBuffer_cases o b nocallback
  · rw [released]
    rfl
  · rw [waiting]

theorem flushOut {out : List BufId} (wf : t.BankWf o (out ++ held))
    (frames : Frames t (out ++ held) l done parts) (nocallbacks : Bool) :
    ∃ parts', Frames (t.flushOut o nocallbacks out).1 held l (done ++ completedBy t parts out) parts' := by
  induction out generalizing t o done parts with
  | nil => exact ⟨parts, by simpa [completedBy, LogTarget.flushOut] using frames⟩
  | cons b rest ih =>
    rcases LogTarget.flush_cases t o b nocallbacks with ⟨asynchronous, h⟩ | ⟨synchronous, h⟩
    · have wf' := LogTarget.flush_wf wf nocallbacks
      rw [h] at wf'
      have frames' : Frames { t with inflight := t.inflight ++ [.buffer b nocallbacks] }
          (rest ++ held) l done parts := by
        refine ⟨frames.data, frames.accepted, frames.nonempty, frames.free, ?_, frames.current,
          fun callback => absurd callback asynchronous⟩
        have order := frames.order
        simp only [List.filterMap_append, List.filterMap_cons, List.filterMap_nil, WriteReq.buf?,
          List.append_assoc, List.cons_append, List.nil_append] at order ⊢
        exact order
      obtain ⟨parts', result⟩ := ih wf' frames'
      refine ⟨parts', ?_⟩
      rw [LogTarget.flushOut, h]
      simpa [completedBy, asynchronous] using result
    · have wf' := LogTarget.flush_wf wf nocallbacks
      rw [h] at wf'
      have taken : Frames t (rest ++ held) l (done ++ parts b) parts := by
        refine ⟨frames.data, frames.accepted, frames.nonempty, frames.free, ?_, frames.current, frames.synchronous⟩
        have order := frames.order
        simp only [frames.synchronous synchronous, List.nil_append, List.cons_append,
          List.flatMap_cons, List.append_assoc] at order ⊢
        exact order
      obtain ⟨parts₁, frames₁, same⟩ := returnBuffer wf taken nocallbacks
      obtain ⟨parts', result⟩ := ih wf' frames₁
      refine ⟨parts', ?_⟩
      have apart : b ∉ rest := by
        have once := List.nodup_iff_count_le_one.mp wf.nodup b
        rw [← List.count_eq_zero]
        simp only [LogTarget.locations, List.count_cons, List.count_append, beq_self_eq_true,
          if_true] at once
        omega
      have later : rest.flatMap parts₁ = rest.flatMap parts :=
        List.flatMap_congr fun c mem => same c fun isB => apart (isB ▸ mem)
      rw [LogTarget.flushOut, h]
      simpa [completedBy, synchronous, returnBuffer_kind, later, List.append_assoc] using result

theorem setCurrent (wf : t.BankWf o held) (frames : Frames t held l done parts) {buf : LogBuf}
    {l' : Ledger} (data : buf.data = l'.current.flatten) (settled : l'.settled = l.settled)
    (old : l.accepted ⊆ l'.accepted) (more : l'.current ⊆ l'.accepted)
    (nonempty : ∀ e ∈ l'.accepted, e ≠ []) :
    Frames (t.setBuffer t.currentBuffer buf) held l' done
      (Function.update parts t.currentBuffer l'.current) := by
  have elsewhere : t.currentBuffer ∉
      t.inflight.filterMap WriteReq.buf? ++ held ++ t.writeOutBuffers.items := by
    intro mem
    refine wf.current_apart (b := t.currentBuffer) ?_ rfl
    simp only [List.mem_append] at mem ⊢
    tauto
  constructor
  · intro b
    by_cases same : b = t.currentBuffer
    · rw [same, LogTarget.setBuffer_same, Function.update_self]
      exact data
    · rw [LogTarget.setBuffer_other _ same, Function.update_of_ne same]
      exact frames.data b
  · intro b e mem
    by_cases same : b = t.currentBuffer
    · rw [same, Function.update_self] at mem
      exact more mem
    · rw [Function.update_of_ne same] at mem
      exact old (frames.accepted b e mem)
  · exact nonempty
  · intro b mem
    have same : b ≠ t.currentBuffer := fun isB => wf.current_not_avail (isB ▸ mem)
    rw [Function.update_of_ne same]
    exact frames.free b mem
  · have order := frames.order
    rw [← flatMap_update_other parts l'.current elsewhere, ← settled] at order
    exact order
  · exact Function.update_self _ _ _
  · exact frames.synchronous

theorem current_data (frames : Frames t held l done parts) :
    t.current.data = l.current.flatten ∧ (t.current.data = [] ↔ l.current = []) := by
  have data : t.current.data = l.current.flatten := by
    rw [← frames.current]
    exact frames.data _
  refine ⟨data, ?_⟩
  rw [data, List.flatten_eq_nil_iff]
  constructor
  · intro blank
    refine List.eq_nil_iff_forall_not_mem.mpr fun e mem => ?_
    have accepted : e ∈ l.accepted := by
      rw [← frames.current] at mem
      exact frames.accepted _ e mem
    exact frames.nonempty e accepted (blank e mem)
  · intro none e mem
    rw [none] at mem
    cases mem

/-- rotate() loses the entries of currentBuffer exactly if no buffer is free. -/
theorem rotate (wf : t.BankWf o held) (frames : Frames t held l done parts) :
    ∃ parts', Frames t.rotate.1 held (l.rotate (!t.availBuffers.items.isEmpty)) done parts' := by
  rcases LogTarget.rotate_wf_cases wf with ⟨noData, h⟩ | ⟨_, none, h⟩ |
    ⟨_, next, avail, writeOut, free, out, h⟩
  · have current := frames.current_data.2.mp noData
    have settled : (l.rotate (!t.availBuffers.items.isEmpty)).settled = l.settled := by
      cases (!t.availBuffers.items.isEmpty) with
      | true => rw [l.settled_rotate.1, current, List.append_nil]
      | false => exact l.settled_rotate.2
    rw [h]
    exact ⟨parts, frames.data, frames.accepted, frames.nonempty, frames.free,
      frames.order.trans settled.symm, frames.current.trans current, frames.synchronous⟩
  · rw [h, none]
    exact ⟨_, setCurrent wf frames rfl l.settled_rotate.2 (List.Subset.refl _) (List.nil_subset _)
      frames.nonempty⟩
  · rw [h, free]
    refine ⟨parts, frames.data, frames.accepted, frames.nonempty, ?_, ?_, ?_, frames.synchronous⟩
    · intro b mem
      exact frames.free b (by simp [free, mem])
    · have order := frames.order
      simp only [List.isEmpty_cons, Bool.not_false, l.settled_rotate.1, out, ← frames.current,
        ← order, List.flatMap_append, List.append_assoc, List.flatMap_cons, List.flatMap_nil,
        List.append_nil]
    · exact frames.free next (by simp [free])

theorem store {d : List Byte} (wf : t.BankWf o held) (sound : t.Sound d)
    (frames : Frames t held l done parts) {header s footer : List Byte} (text : s ≠ []) :
    ∃ parts', Frames (t.store header s footer) held (l.accept (entryBytes d header s footer)) done
      parts' := by
  have stored := LogTarget.store_current sound header footer (Or.inl text)
  have before := frames.current_data.1
  refine ⟨_, setCurrent wf frames ?_ rfl (List.subset_append_left _ _) ?_ ?_⟩
  · simp only [LogTarget.store, LogTarget.current, LogTarget.setBuffer, Function.update_self]
      at stored before ⊢
    rw [stored, before]
    simp [Ledger.accept]
  · intro e mem
    rcases List.mem_append.mp mem with mem | mem
    · rw [← frames.current] at mem
      exact List.mem_append_left _ (frames.accepted _ e mem)
    · exact List.mem_append_right _ mem
  · intro e mem
    rcases List.mem_append.mp mem with mem | mem
    · exact frames.nonempty e mem
    · rw [List.mem_singleton.mp mem, entryBytes]
      simp [text]

theorem write {d : List Byte} (wf : t.BankWf o held) (sound : t.Sound d)
    (frames : Frames t held l done parts) (env : WriteEnv) {s : List Byte} (text : s ≠ [])
    (m : LogMeta) (filter : Filter) (size : s.length + GREASE_MAX_PREFIX_HEADER ≤ t.bankSize)
    (fits : (entryBytes d (t.header env m filter) s (t.footer env m filter)).length ≤ t.bankSize) :
    ∃ parts', Frames (t.write o env s m filter).1 held
      (l.write t o env s m filter
        (entryBytes d (t.header env m filter) s (t.footer env m filter))) done parts' := by
  have turned : ∀ {free}, (!t.availBuffers.items.isEmpty) = free →
      ∃ parts', Frames t.rotate.1 held (l.rotate free) done parts' := by
    rintro free rfl
    exact rotate wf frames
  have available : t.rotate.2 = .rotated → t.availBuffers.items.isEmpty = false := by
    intro rotated
    rcases LogTarget.rotate_wf_cases wf with ⟨_, h⟩ | ⟨_, _, h⟩ | ⟨_, next, avail, _, free, _, _⟩
    · simp [h] at rotated
    · simp [h] at rotated
    · rw [free]
      rfl
  obtain ⟨o', same, ⟨off, h⟩ | ⟨_, small, _⟩ | ⟨⟨on, _⟩, space, h⟩ | ⟨⟨on, _⟩, full, outcome, room, h⟩ |
    ⟨⟨on, _⟩, full, outcome, noRoom, h⟩ | ⟨⟨on, _⟩, full, stuck, h⟩⟩ :=
      LogTarget.write_cases t o env s m filter
  · rw [h, Ledger.write, if_pos off]
    exact ⟨parts, frames⟩
  · omega
  · rw [h, Ledger.write, if_neg (by simp [on]),
      if_pos (show t.HasSpace env s m filter from space)]
    exact store wf sound frames text
  · have free := available outcome
    obtain ⟨parts₁, frames₁⟩ : ∃ parts', Frames t.rotate.1 held (l.rotate true) done parts' :=
      turned (by simp [free])
    have sound₁ := (LogTarget.onlyClears_rotate t).sound sound
    rw [h, Ledger.write, if_neg (by simp [on]),
      if_neg (show ¬ t.HasSpace env s m filter from full), if_neg (by simp [free]), if_pos room]
    exact store (LogTarget.rotate_wf wf) sound₁ frames₁ text
  · have free := available outcome
    rw [h, Ledger.write, if_neg (by simp [on]),
      if_neg (show ¬ t.HasSpace env s m filter from full), if_neg (by simp [free]), if_neg noRoom]
    exact turned (by simp [free])
  · -- The entry would have space in an empty currentBuffer, so rotate() found no buffer.
    have data : t.current.data ≠ [] := by
      intro empty
      apply full
      rw [LogTarget.entryBytes_length] at fits
      unfold LogBuf.remain
      rw [show t.current.space = t.bankSize from wf.spaces _,
        show t.current.delim = d from sound.delims _, empty, List.length_nil]
      omega
    have none : t.availBuffers.items.isEmpty = true := by
      rcases LogTarget.rotate_wf_cases wf with ⟨noData, _⟩ | ⟨_, none, _⟩ | ⟨_, _, _, _, _, _, rotated⟩
      · exact absurd noData data
      · rw [none]
        rfl
      · exact absurd (congrArg Prod.snd rotated) stuck
    rw [h, Ledger.write, if_neg (by simp [on]),
      if_neg (show ¬ t.HasSpace env s m filter from full), if_pos none]
    exact turned (by simp [none])

theorem flushAll (wf : t.BankWf o []) (frames : Frames t [] l done parts)
    (doRotate nocallbacks : Bool) :
    let ready := if doRotate then t.rotate.1 else t
    ∃ parts' more, Frames (t.flushAll o doRotate nocallbacks).1 []
        (if doRotate then l.rotate (!t.availBuffers.items.isEmpty) else l) (done ++ more) parts' ∧
      more.flatten = if t.kind = .callback then
        ready.writeOutBuffers.items.flatMap (fun b => (ready.buffers b).data) else [] := by
  intro ready
  have wfReady : ready.BankWf o [] := by
    simp only [ready]
    split
    · exact LogTarget.rotate_wf wf
    · exact wf
  obtain ⟨parts₁, frames₁⟩ : ∃ parts₁, Frames ready []
      (if doRotate then l.rotate (!t.availBuffers.items.isEmpty) else l) done parts₁ := by
    cases doRotate with
    | true => exact rotate wf frames
    | false => exact ⟨parts, frames⟩
  have kind : ready.kind = t.kind := by
    simp only [ready]
    split
    · rcases LogTarget.rotate_wf_cases wf with ⟨_, h⟩ | ⟨_, _, h⟩ | ⟨_, _, _, _, _, _, h⟩ <;> rw [h]
      rfl
    · rfl
  have taken : Frames { ready with writeOutBuffers := .empty }
      (ready.writeOutBuffers.items ++ [])
      (if doRotate then l.rotate (!t.availBuffers.items.isEmpty) else l) done parts₁ := by
    refine ⟨frames₁.data, frames₁.accepted, frames₁.nonempty, frames₁.free, ?_, frames₁.current, frames₁.synchronous⟩
    have order := frames₁.order
    simp only [List.append_nil, BoundedQueue.empty_items] at order ⊢
    exact order
  obtain ⟨parts', result⟩ := flushOut (LogTarget.takeWriteOut_wf wfReady) taken nocallbacks
  refine ⟨parts', completedBy { ready with writeOutBuffers := .empty } parts₁
    ready.writeOutBuffers.items, ?_, ?_⟩
  · cases doRotate with
    | true => exact result
    | false => exact result
  · simp only [completedBy, kind]
    split
    · rw [List.flatMap_def, List.flatten_flatten, List.map_map, List.flatMap_def]
      exact congrArg _ (List.map_congr_left fun b _ => (frames₁.data b).symm)
    · rfl

theorem writeCb (wf : t.BankWf o []) (frames : Frames t [] l done parts) :
    ∃ parts' more, Frames (t.writeCb o).1 [] l (done ++ more) parts' ∧
      more.flatten = match t.inflight with
        | .buffer b _ :: _ => (t.buffers b).data
        | _ => [] := by
  unfold LogTarget.writeCb
  split
  · rename_i none
    exact ⟨parts, [], by simpa using frames, by simp [none]⟩
  · rename_i b nocallback rest submitted
    have taken : Frames { t with inflight := rest } [] l (done ++ parts b) parts := by
      refine ⟨frames.data, frames.accepted, frames.nonempty, frames.free, ?_, frames.current, fun callback => ?_⟩
      · have order := frames.order
        simpa only [submitted, List.filterMap_cons, WriteReq.buf?, List.cons_append,
          List.flatMap_cons, List.append_assoc] using order
      · have none := frames.synchronous callback
        simp [submitted, WriteReq.buf?] at none
    have wf' : ({ t with inflight := rest } : LogTarget).BankWf o (b :: []) :=
      LogTarget.takeInflight_wf wf (.of_eq submitted)
    obtain ⟨parts', result, _⟩ := returnBuffer wf' taken nocallback
    exact ⟨parts', parts b, result, by rw [submitted]; exact (frames.data b).symm⟩
  · rename_i entry nocallback rest submitted
    refine ⟨parts, [], ?_, by simp [submitted]⟩
    refine ⟨frames.data, frames.accepted, frames.nonempty, frames.free, ?_, frames.current, fun callback => ?_⟩
    · have order := frames.order
      simpa only [submitted, List.filterMap_cons, WriteReq.buf?, List.append_nil] using order
    · have none := frames.synchronous callback
      simpa [submitted, WriteReq.buf?] using none

theorem callV8LogCallback (wf : t.BankWf o []) (frames : Frames t [] l done parts) :
    ∃ parts', Frames (t.callV8LogCallback o).1 [] l done parts' := by
  rcases t.callV8LogCallback_cases o with ⟨_, h⟩ | ⟨d, rest, removed, ⟨b, rfl, h⟩ | ⟨_, h⟩⟩ <;> rw [h]
  · exact ⟨parts, frames⟩
  · have taken := LogTarget.takePending_wf wf
      { o with v8LogCallbacks := rest, needV8 := o.needV8 - 1 } (BoundedQueue.remove_some removed)
    rw [LogTarget.bufOf_own] at taken
    exact ⟨_, release taken frames⟩
  · exact ⟨parts, frames⟩

end Frames

/-! The runs. -/

structure FramedState where
  bank : BankState
  ledger : Ledger := {}
  /-- The bytes of the completed writes. -/
  completed : List Byte := []

namespace FramedState

def entry (s : FramedState) (env : WriteEnv) (text : List Byte) (m : LogMeta) (filter : Filter) :
    Entry :=
  entryBytes s.bank.t.current.delim (s.bank.t.header env m filter) text (s.bank.t.footer env m filter)

/-- A callbackTarget is done with a buffer when flush returns. -/
def completes (s : FramedState) : BankAction → List Byte
  | .flushAll doRotate _ =>
    let ready := if doRotate then s.bank.t.rotate.1 else s.bank.t
    if s.bank.t.kind = .callback then
      ready.writeOutBuffers.items.flatMap fun b => (ready.buffers b).data
    else []
  | .writeCb =>
    match s.bank.t.inflight with
    | .buffer b _ :: _ => (s.bank.t.buffers b).data
    | _ => []
  | _ => []

def record (s : FramedState) : BankAction → Ledger
  | .write env text m filter =>
    s.ledger.write s.bank.t s.bank.o env text m filter (s.entry env text m filter)
  | .rotate => s.ledger.rotate (!s.bank.t.availBuffers.items.isEmpty)
  | .flushAll doRotate _ =>
    if doRotate then s.ledger.rotate (!s.bank.t.availBuffers.items.isEmpty) else s.ledger
  | _ => s.ledger

def apply (s : FramedState) (a : BankAction) : FramedState :=
  ⟨s.bank.apply a, s.record a, s.completed ++ s.completes a⟩

/-- Texts that write() buffers, with a header and a footer of the size they are given. -/
def Allowed (s : FramedState) : BankAction → Prop
  | .write env text m filter =>
    text ≠ [] ∧ text.length + GREASE_MAX_PREFIX_HEADER ≤ s.bank.t.bankSize ∧
      (s.bank.t.header env m filter).length + (s.bank.t.footer env m filter).length ≤
        GREASE_MAX_PREFIX_HEADER ∧
      (s.entry env text m filter).length ≤ s.bank.t.bankSize
  | .writeOverflow _ _ _ => False
  | _ => True

instance (s : FramedState) : ∀ a : BankAction, Decidable (s.Allowed a ∧ s.bank.Allowed a)
  | .write _ _ _ _ => inferInstanceAs (Decidable ((_ ∧ _ ∧ _ ≤ _ ∧ _ ≤ _) ∧ True))
  | .writeOverflow _ _ _ => inferInstanceAs (Decidable (False ∧ True))
  | .others o => inferInstanceAs (Decidable (True ∧ o.pending s.bank.t.myId = _))
  | .rotate | .flushAll _ _ | .writeCb | .callV8LogCallback | .disableWrites _ | .configure _ _ _ =>
    inferInstanceAs (Decidable (True ∧ True))

def Step (s : FramedState) (a : BankAction) (s' : FramedState) : Prop :=
  s.Allowed a ∧ s.bank.Allowed a ∧ s' = s.apply a

structure Framed (s : FramedState) (d : List Byte) : Prop where
  wf : s.bank.BankWf
  sound : s.bank.t.Sound d
  batched : s.ledger.Batched
  frames : ∃ done parts, Frames s.bank.t [] s.ledger done parts ∧ s.completed = done.flatten

theorem allowed_fits {s : FramedState} {a : BankAction} (allowed : s.Allowed a) :
    s.bank.WriteFits a := by
  cases a with
  | write env text m filter => exact Or.inr (Or.inr ⟨allowed.2.2.2, Or.inl allowed.1⟩)
  | writeOverflow | rotate | flushAll | writeCb | callV8LogCallback | disableWrites | configure
    | others => trivial

theorem apply_frames {s : FramedState} {d : List Byte} (framed : s.Framed d) {a : BankAction}
    (allowed : s.Allowed a) :
    ∃ done parts, Frames (s.apply a).bank.t [] (s.apply a).ledger done parts ∧
      (s.apply a).completed = done.flatten := by
  obtain ⟨wf, sound, _, done, parts, frames, completed⟩ := framed
  cases a with
  | write env text m filter =>
    have delim : s.bank.t.current.delim = d := sound.delims _
    have fits := allowed.2.2.2
    rw [entry, delim] at fits
    obtain ⟨parts', result⟩ := frames.write wf sound env allowed.1 m filter allowed.2.1 fits
    refine ⟨done, parts', ?_, by simpa [apply, completes] using completed⟩
    simp only [apply, record, entry, delim]
    exact result
  | writeOverflow env log filter => exact absurd allowed id
  | rotate =>
    obtain ⟨parts', result⟩ := frames.rotate wf
    exact ⟨done, parts', result, by simpa [apply, completes] using completed⟩
  | flushAll doRotate nocallbacks =>
    obtain ⟨parts', more, result, bytes⟩ := frames.flushAll wf doRotate nocallbacks
    refine ⟨done ++ more, parts', result, ?_⟩
    rw [List.flatten_append, bytes, ← completed]
    rfl
  | writeCb =>
    obtain ⟨parts', more, result, bytes⟩ := frames.writeCb wf
    refine ⟨done ++ more, parts', result, ?_⟩
    rw [List.flatten_append, bytes, ← completed]
    rfl
  | callV8LogCallback =>
    obtain ⟨parts', result⟩ := frames.callV8LogCallback wf
    exact ⟨done, parts', result, by simpa [apply, completes] using completed⟩
  | disableWrites v =>
    exact ⟨done, parts, ⟨frames.data, frames.accepted, frames.nonempty, frames.free, frames.order, frames.current,
      frames.synchronous⟩, by simpa [apply, completes] using completed⟩
  | configure formats delim logCallbackSet =>
    exact ⟨done, parts, ⟨frames.data, frames.accepted, frames.nonempty, frames.free, frames.order, frames.current,
      frames.synchronous⟩, by simpa [apply, completes] using completed⟩
  | others o => exact ⟨done, parts, frames, by simpa [apply, completes] using completed⟩

theorem record_batched {s : FramedState} (batched : s.ledger.Batched) (a : BankAction) :
    (s.record a).Batched := by
  cases a with
  | write env text m filter =>
    simp only [record, Ledger.write]
    split_ifs
    · exact batched
    · exact Ledger.accept_batched batched _
    · exact Ledger.rotate_batched batched _
    · exact Ledger.accept_batched (Ledger.rotate_batched batched _) _
    · exact Ledger.rotate_batched batched _
  | rotate => exact Ledger.rotate_batched batched _
  | flushAll doRotate nocallbacks =>
    simp only [record]
    split
    · exact Ledger.rotate_batched batched _
    · exact batched
  | writeOverflow | writeCb | callV8LogCallback | disableWrites | configure | others =>
    exact batched

theorem step_framed {s s' : FramedState} {d : List Byte} {a : BankAction} (framed : s.Framed d)
    (step : s.Step a s') : s'.Framed d := by
  obtain ⟨allowed, bankAllowed, rfl⟩ := step
  exact ⟨BankState.apply_wf framed.wf bankAllowed,
    BankState.apply_sound framed.wf framed.sound (allowed_fits allowed),
    record_batched framed.batched a, apply_frames framed allowed⟩

theorem start_framed {start : BankState} (new : start.Start) :
    ∃ d, (⟨start, {}, []⟩ : FramedState).Framed d := by
  obtain ⟨d, sound⟩ := BankState.start_sound new
  refine ⟨d, BankState.start_wf new, sound, rfl, [], fun _ => [], ?_, rfl⟩
  obtain ⟨⟨kind, bufferSize, id, delim, formats, logCallbackSet, target⟩, _⟩ := new
  constructor
  · intro b
    simp only [target]
    rfl
  · intro b e mem
    simp at mem
  · intro e mem
    cases mem
  · intro b _
    rfl
  · simp only [target]
    rfl
  · rfl
  · intro _
    simp only [target]
    rfl

/-- Every buffer holds whole accepted entries, and the completed writes, the buffers in
    flight, writeOutBuffers and currentBuffer together are the accepted entries in write
    order, less the batches that were in currentBuffer at a rotation without a free buffer. -/
theorem buffered_output_framed {start : BankState} (new : start.Start) {actions : List BankAction}
    {s : FramedState} (run : Runs.Run Step ⟨start, {}, []⟩ actions s) :
    let waiting := s.bank.t.inflight.filterMap WriteReq.buf? ++ s.bank.t.writeOutBuffers.items
    s.completed ++ waiting.flatMap (fun b => (s.bank.t.buffers b).data) ++ s.bank.t.current.data =
      (s.ledger.settled ++ s.ledger.current).flatten ∧
    (∃ (done : List Entry) (parts : BufId → List Entry), s.completed = done.flatten ∧
      (∀ b, (s.bank.t.buffers b).data = (parts b).flatten ∧ parts b ⊆ s.ledger.accepted) ∧
      done ++ waiting.flatMap parts = s.ledger.settled ∧
      parts s.bank.t.currentBuffer = s.ledger.current) ∧
    s.ledger.batches.flatMap Prod.fst ++ s.ledger.current = s.ledger.accepted ∧
    (s.bank.t.rotate.2 = .noBuffers ↔ s.ledger.current ≠ [] ∧ s.bank.t.availBuffers.items = []) ∧
    s.bank.t.rotate.2 ≠ .writeOutFull := by
  intro waiting
  obtain ⟨d, initial⟩ := start_framed new
  have framed : s.Framed d :=
    Runs.run_invariant (fun s => s.Framed d) initial (fun _ _ _ => step_framed) run
  obtain ⟨done, parts, frames, completed⟩ := framed.frames
  have order : done ++ waiting.flatMap parts = s.ledger.settled := by
    have order := frames.order
    rwa [List.append_nil] at order
  have bytes : waiting.flatMap (fun b => (s.bank.t.buffers b).data) =
      (waiting.flatMap parts).flatten := by
    rw [List.flatMap_def, List.flatMap_def, List.flatten_flatten, List.map_map]
    exact congrArg _ (List.map_congr_left fun b _ => frames.data b)
  obtain ⟨current, empty⟩ := frames.current_data
  refine ⟨?_, ⟨done, parts, completed, fun b => ⟨frames.data b, frames.accepted b⟩, order,
    frames.current⟩, framed.batched, ?_⟩
  · rw [bytes, completed, current, ← List.flatten_append, order, ← List.flatten_append]
  · rw [ne_eq, ← empty]
    rcases LogTarget.rotate_wf_cases framed.wf with ⟨noData, h⟩ | ⟨data, none, h⟩ |
      ⟨data, next, avail, _, free, _, h⟩
    · simp [h, noData]
    · simp [h, data, none]
    · simp [h, free]

/-- Two entries in the first batch and one in each of the next two: no buffer is free
    when the fourth batch is rotated. Of the rest one entry waits, one is in currentBuffer. -/
def lossyActions : List BankAction :=
  let line (c : Byte) := BankState.plainWrite [c]
  [line 97, line 98, .rotate, line 99, .rotate, line 100, .rotate, line 101, line 102, .rotate,
    line 103, .flushAll false false, .writeCb, .rotate, line 104]

def lossyRun : FramedState := lossyActions.foldl apply ⟨BankState.newBank 200 [10], {}, []⟩

theorem lossyRun_run : Runs.Run Step ⟨BankState.newBank 200 [10], {}, []⟩ lossyActions lossyRun := by
  have checked : Runs.Checked (fun s a => s.Allowed a ∧ s.bank.Allowed a) apply
      ⟨BankState.newBank 200 [10], {}, []⟩ lossyActions := by
    decide +kernel
  exact Runs.run_checked (fun s a allowed => ⟨allowed.1, allowed.2, rfl⟩) checked

theorem buffered_output_framed_lossy :
    lossyRun.completed ++
        (lossyRun.bank.t.inflight.filterMap WriteReq.buf? ++
          lossyRun.bank.t.writeOutBuffers.items).flatMap (fun b => (lossyRun.bank.t.buffers b).data) ++
        lossyRun.bank.t.current.data =
      (lossyRun.ledger.settled ++ lossyRun.ledger.current).flatten ∧
    lossyRun.completed = [97, 10, 98, 10] ∧
    lossyRun.ledger.batches = [([[97, 10], [98, 10]], true), ([[99, 10]], true), ([[100, 10]], true),
      ([[101, 10], [102, 10]], false), ([[103, 10]], true)] ∧
    lossyRun.ledger.current = [[104, 10]] :=
  ⟨(buffered_output_framed (BankState.newBank_start 200 [10]) lossyRun_run).1,
    by decide +kernel, by decide +kernel, by decide +kernel⟩

end FramedState

end GreaseLog
