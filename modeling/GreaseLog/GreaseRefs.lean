import Mathlib.Algebra.Order.BigOperators.Group.List
import Mathlib.Algebra.Order.Group.Nat
import GreaseLog.Flushing
import GreaseLog.Lib.Totals

/- The counter that keeps the logger thread alive. write() takes a reference for a
   buffer that it is about to fill and returnBuffer gives it back; in between both
   threads flush. Each step here is one that a lock makes atomic, or that touches
   only a buffer that its thread has in hand. -/
namespace GreaseLog

structure WriteEntry where
  header : List Byte
  s : List Byte
  footer : List Byte
  deriving DecidableEq

def WriteEntry.text (e : WriteEntry) : List Byte := e.header ++ e.s ++ e.footer

/-- Where the logger thread is in write() or writeOverflow(). -/
inductive WriteStage where
  /-- There is room; isEmpty() is to be asked. -/
  | testing (e : WriteEntry)
  | referring (e : WriteEntry)
  | copying (e : WriteEntry) (referred : Bool)
  | rotating (e : WriteEntry)
  /-- Rotated; the command is to be queued. -/
  | queueing (e : WriteEntry)
  /-- The reference and the copy, in one hold of writeMutex. -/
  | filling (e : WriteEntry)
  | overflowing (entry : OverflowWriteOut)
  deriving DecidableEq

/-- A pointer to a target is its position. -/
structure GreaseRefs where
  targets : List LogTarget := []
  o : Owner := {}
  writing : Option (Nat × WriteStage) := none
  flushTimer : Bool := false

inductive RefAction where
  | addTarget (kind : TargetKind) (bufferSize : Nat) (id : TargetId) (delim : List Byte)
  | configure (n : Nat) (formats : TargetFormats) (logCallbackSet : Bool)
  | disableWrites (n : Nat) (v : Bool)
  | beginWrite (n : Nat) (env : WriteEnv) (s : List Byte) (m : LogMeta) (filter : Filter)
  | beginOverflow (n : Nat) (env : WriteEnv) (log : SingleLog) (filter : Filter)
  /-- The next step of the write() or writeOverflow() that has begun. -/
  | writeOn
  /-- rotate() of a flushAll, by either thread. -/
  | rotate (n : Nat)
  /-- One turn of the loop of flushAll, by either thread. -/
  | flushNext (n : Nat) (nocallbacks : Bool)
  | flushNextSync (n : Nat)
  /-- The callback of the k-th write in flight; writes may end in any order. -/
  | writeCb (n k : Nat)
  /-- One turn of callV8LogCallbacks. -/
  | deliver
  /-- What else becomes of the command queue. -/
  | commands (queue : BoundedQueue InternalCmdReq INTERNAL_QUEUE_SIZE)

def WriteReq.isOverflow : WriteReq → Bool
  | .overflow _ _ => true
  | .buffer _ _ => false

namespace LogTarget

def flushNext (t : LogTarget) (o : Owner) (nocallbacks : Bool) : LogTarget × Owner :=
  match t.writeOutBuffers.remove with
  | none => (t, o)
  | some (b, rest) => { t with writeOutBuffers := rest }.flush o b nocallbacks

def flushNextSync (t : LogTarget) (o : Owner) : LogTarget × Owner :=
  match t.writeOutBuffers.remove with
  | none => (t, o)
  | some (b, rest) =>
    let done := { t with writeOutBuffers := rest }.flushSync o b
    (done.1, done.2.1)

def endWrite (t : LogTarget) (o : Owner) (k : Nat) : LogTarget × Owner :=
  let rest := { t with inflight := t.inflight.eraseIdx k }
  match t.inflight[k]? with
  | none => (t, o)
  | some (.buffer b nocallback) => rest.returnBuffer o b nocallback
  | some (.overflow entry nocallback) => (rest, rest.returnOverflow o entry nocallback)

/-- A buffer with data that has not been put out, so does not wait for its callback. -/
def uses (t : LogTarget) (o : Owner) (b : BufId) : Bool :=
  !(t.buffers b).isEmpty && decide (b ∉ o.pending t.myId)

def needs (t : LogTarget) (o : Owner) : Nat :=
  (List.finRange NUM_BANKS).countP (t.uses o) + t.inflight.countP WriteReq.isOverflow

def AllOut (t : LogTarget) : Prop :=
  t.current.data = [] ∧ t.writeOutBuffers.items = [] ∧ t.inflight = []

end LogTarget

namespace GreaseRefs

/-- refGreaseInGrease starts the timer when the counter leaves 0, and
    unrefGreaseInGrease stops it when the counter comes back to 0. -/
def withOwner (s : GreaseRefs) (o : Owner) : GreaseRefs :=
  { s with
    o := o
    flushTimer :=
      if s.o.needGreaseThread = 0 then s.flushTimer || 0 < o.needGreaseThread
      else s.flushTimer && 0 < o.needGreaseThread }

def put (s : GreaseRefs) (n : Nat) (r : LogTarget × Owner) : GreaseRefs :=
  { s.withOwner r.2 with targets := s.targets.set n r.1 }

def beginWrite (s : GreaseRefs) (n : Nat) (t : LogTarget) (env : WriteEnv) (text : List Byte)
    (m : LogMeta) (filter : Filter) : GreaseRefs :=
  if t.disabled then s
  else if t.bankSize < text.length + GREASE_MAX_PREFIX_HEADER then
    s.withOwner (s.o.addCmd (.writeTargetOverflow t.myId (.ofData text m))).1
  else
    let e : WriteEntry := ⟨t.header env m filter, text, t.footer env m filter⟩
    if t.current.remain ≥ text.length + e.header.length + e.footer.length then
      { s with writing := some (n, .testing e) }
    else { s with writing := some (n, .rotating e) }

def writeOn (s : GreaseRefs) (n : Nat) (t : LogTarget) : WriteStage → GreaseRefs
  | .testing e =>
    { s with writing := some (n, if t.current.isEmpty then .referring e else .copying e false) }
  | .referring e => { s.withOwner s.o.refGreaseInGrease with writing := some (n, .copying e true) }
  | .copying e _ => { s.put n (t.store e.header e.s e.footer, s.o) with writing := none }
  | .rotating e =>
    let r := t.rotate
    { s.put n (r.1, s.o) with writing := if r.2 = .rotated then some (n, .queueing e) else none }
  | .queueing e =>
    let added := s.o.addCmd (.targetRotateBuffer t.myId)
    { s.withOwner added.1 with writing := if added.2 then some (n, .filling e) else none }
  | .filling e =>
    { s.put n (t.store e.header e.s e.footer, s.o.refGreaseInGrease) with writing := none }
  | .overflowing entry =>
    let r := t.writeAsyncOverflow s.o entry false
    { s.put n (r.1, r.2.1) with writing := none }

def on (s : GreaseRefs) (n : Nat) (f : LogTarget → GreaseRefs) : GreaseRefs :=
  match s.targets[n]? with
  | none => s
  | some t => f t

def apply (s : GreaseRefs) : RefAction → GreaseRefs
  | .addTarget kind bufferSize id delim =>
    { s with targets := s.targets ++ [LogTarget.new kind bufferSize id delim] }
  | .configure n formats logCallbackSet =>
    s.on n fun t => s.put n ({ t with formats := formats, logCallbackSet := logCallbackSet }, s.o)
  | .disableWrites n v => s.on n fun t => s.put n ({ t with disabled := v }, s.o)
  | .beginWrite n env text m filter => s.on n fun t => s.beginWrite n t env text m filter
  | .beginOverflow n env log filter => s.on n fun t =>
    if t.disabled then s
    else
      { s.withOwner s.o.refGreaseInGrease with
        writing := some (n, .overflowing (t.overflowEntry env log filter)) }
  | .writeOn =>
    match s.writing with
    | none => s
    | some (n, stage) => s.on n fun t => s.writeOn n t stage
  | .rotate n => s.on n fun t => s.put n (t.rotate.1, s.o)
  | .flushNext n nocallbacks => s.on n fun t => s.put n (t.flushNext s.o nocallbacks)
  | .flushNextSync n => s.on n fun t => s.put n (t.flushNextSync s.o)
  | .writeCb n k => s.on n fun t => s.put n (t.endWrite s.o k)
  | .deliver =>
    match s.o.v8LogCallbacks.remove with
    | none => s
    | some (_, rest) =>
      { s.withOwner { s.o with v8LogCallbacks := rest, needV8 := s.o.needV8 - 1 } with
        targets := s.targets.map fun t => (t.callV8LogCallback s.o).1 }
  | .commands queue => { s with o := { s.o with internalCmdQueue := queue } }

/-- The logger thread does one thing at a time. A callback knows its target by its
    address, for which the id stands here, so a new target has an id of its own. -/
def Allowed (s : GreaseRefs) : RefAction → Prop
  | .addTarget _ _ id _ => ∀ t ∈ s.targets, t.myId ≠ id
  | .beginWrite _ _ _ _ _ | .beginOverflow _ _ _ _ | .writeCb _ _ => s.writing = none
  | _ => True

instance (s : GreaseRefs) : ∀ a, Decidable (s.Allowed a)
  | .addTarget _ _ id _ =>
    inferInstanceAs (Decidable (∀ t ∈ s.targets, t.myId ≠ id))
  | .beginWrite _ _ _ _ _ | .beginOverflow _ _ _ _ | .writeCb _ _ =>
    inferInstanceAs (Decidable (s.writing = none))
  | .configure _ _ _ | .disableWrites _ _ | .writeOn | .rotate _ | .flushNext _ _
  | .flushNextSync _ | .deliver | .commands _ => inferInstanceAs (Decidable True)

def Step (s : GreaseRefs) (a : RefAction) (s' : GreaseRefs) : Prop := s.Allowed a ∧ s' = s.apply a

structure Start (s : GreaseRefs) : Prop where
  noTargets : s.targets = []
  noCallbacks : s.o.v8LogCallbacks.items = []
  noNeed : s.o.needGreaseThread = 0 ∧ s.o.aborted = false
  idle : s.writing = none ∧ s.flushTimer = false

/-- What keeps the balance: no reference for an empty entry, and a buffer to
    rotate to. -/
def StageFits (t : LogTarget) : WriteStage → Prop
  | .testing e => t.current.data ≠ [] ∨ e.text ≠ []
  | .rotating _ => t.RotateFits
  | _ => True

/-- No rotate() comes between the question of write() and its copy to a buffer that
    has been counted. -/
def NotBetween (s : GreaseRefs) (n : Nat) : Prop :=
  match s.writing with
  | some (m, .copying _ false) => m ≠ n
  | _ => True

def InBalance (s : GreaseRefs) : RefAction → Prop
  | .writeOn =>
    match s.writing with
    | none => True
    | some (n, stage) => ∀ t ∈ s.targets[n]?, StageFits t stage
  | .rotate n => s.NotBetween n ∧ ∀ t ∈ s.targets[n]?, t.RotateFits
  | .beginOverflow n _ _ _ => ∀ t ∈ s.targets[n]?, t.disabled = true ∨ t.kind ≠ .callback
  | _ => True

instance (t : LogTarget) : Decidable t.RotateFits :=
  inferInstanceAs (Decidable (t.current.data = [] ∨ t.availBuffers.items ≠ []))

instance (t : LogTarget) : ∀ stage, Decidable (StageFits t stage)
  | .testing e => inferInstanceAs (Decidable (t.current.data ≠ [] ∨ e.text ≠ []))
  | .rotating _ => inferInstanceAs (Decidable t.RotateFits)
  | .referring _ | .copying _ _ | .queueing _ | .filling _ | .overflowing _ =>
    inferInstanceAs (Decidable True)

instance (s : GreaseRefs) (n : Nat) : Decidable (s.NotBetween n) :=
  match h : s.writing with
  | some (m, .copying e false) =>
    decidable_of_iff (m ≠ n) (by simp only [NotBetween, h])
  | none | some (_, .testing _) | some (_, .referring _) | some (_, .copying _ true)
  | some (_, .rotating _) | some (_, .queueing _) | some (_, .filling _)
  | some (_, .overflowing _) => isTrue (by simp only [NotBetween, h])

instance (s : GreaseRefs) : ∀ a, Decidable (s.InBalance a)
  | .writeOn =>
    match h : s.writing with
    | none => isTrue (by simp only [InBalance, h])
    | some (n, stage) =>
      decidable_of_iff (∀ t ∈ s.targets[n]?, StageFits t stage) (by simp only [InBalance, h])
  | .rotate n =>
    inferInstanceAs (Decidable (s.NotBetween n ∧ ∀ t ∈ s.targets[n]?, t.RotateFits))
  | .beginOverflow n _ _ _ =>
    inferInstanceAs (Decidable (∀ t ∈ s.targets[n]?, t.disabled = true ∨ t.kind ≠ .callback))
  | .addTarget _ _ _ _ | .configure _ _ _ | .disableWrites _ _ | .beginWrite _ _ _ _ _
  | .flushNext _ _ | .flushNextSync _ | .writeCb _ _ | .deliver | .commands _ =>
    inferInstanceAs (Decidable True)

def needs (s : GreaseRefs) : Nat := (s.targets.map (·.needs s.o)).sum

end GreaseRefs

/-! What one target needs. -/

namespace LogTarget
variable {t t' : LogTarget} {o o' : Owner} {held : List BufId}

theorem uses_iff (b : BufId) : t.uses o b = true ↔ (t.buffers b).data ≠ [] ∧ b ∉ o.pending t.myId := by
  simp [uses, LogBuf.isEmpty]

theorem released_unused (t : LogTarget) (o : Owner) (b : BufId) :
    ((t.clearBuffer b).addAvail b).uses o b = false := by
  rw [Bool.eq_false_iff, Ne, uses_iff]
  rintro ⟨data, _⟩
  exact data (congrArg LogBuf.data (setBuffer_same (t := t) b _))

theorem needs_change (t t' : LogTarget) (o o' : Owner) {b : BufId} (others : ∀ c, c ≠ b → t'.uses o' c = t.uses o c)
    (overflows : t'.inflight.countP WriteReq.isOverflow = t.inflight.countP WriteReq.isOverflow) :
    t'.needs o' + (t.uses o b).toNat = t.needs o + (t'.uses o' b).toNat := by
  have changed := Totals.countP_change (List.nodup_finRange NUM_BANKS) (List.mem_finRange b) others
  simp only [needs, overflows]
  omega

theorem needs_congr (same : ∀ b, t'.uses o' b = t.uses o b)
    (overflows : t'.inflight.countP WriteReq.isOverflow = t.inflight.countP WriteReq.isOverflow) :
    t'.needs o' = t.needs o := by
  have all : t'.uses o' = t.uses o := funext same
  simp only [needs, overflows, all]

theorem used_needs {b : BufId} (used : t.uses o b = true) : 0 < t.needs o := by
  have some : 0 < (List.finRange NUM_BANKS).countP (t.uses o) :=
    List.countP_pos_iff.mpr ⟨b, List.mem_finRange b, used⟩
  unfold needs
  omega

structure Refs (t : LogTarget) (o : Owner) (ahead : Nat) (r : LogTarget × Owner) : Prop where
  myId : r.1.myId = t.myId
  kind : r.1.kind = t.kind
  wf : r.1.BankWf r.2 []
  others : ∀ id, id ≠ t.myId → r.2.pending id = o.pending id
  balance : r.2.needGreaseThread + t.needs o + ahead = o.needGreaseThread + r.1.needs r.2
  alive : r.2.aborted = o.aborted

theorem Refs.of_taken {ahead : Nat} {r : LogTarget × Owner} (refs : Refs t' o ahead r)
    (myId : t'.myId = t.myId) (kind : t'.kind = t.kind) (needs : t'.needs o = t.needs o) :
    Refs t o ahead r where
  myId := refs.myId.trans myId
  kind := refs.kind.trans kind
  wf := refs.wf
  others := fun id other => refs.others id (myId ▸ other)
  balance := needs ▸ refs.balance
  alive := refs.alive

theorem returnBuffer_need (t : LogTarget) (o : Owner) (b : BufId) (nocallback : Bool) :
    let o' := (t.returnBuffer o b nocallback).2
    let o₁ := if (t.buffers b).data = [] then o else o.unrefGreaseInGrease
    o'.needGreaseThread = o₁.needGreaseThread ∧ o'.aborted = o₁.aborted := by
  intro o' o₁
  have counted : (if (t.buffers b).isEmpty then o else o.unrefGreaseInGrease) = o₁ := by
    simp only [o₁, LogBuf.isEmpty, List.isEmpty_iff]
  have returned : o' = (t.callbackOrRelease o₁ b
      (!nocallback && t.logCallbackSet && !(t.buffers b).isEmpty)).2 := by
    rw [← counted]
    rfl
  rw [returned]
  unfold callbackOrRelease
  split
  · simp only
    split
    · exact ⟨rfl, rfl⟩
    · exact ⟨rfl, rfl⟩
  · exact ⟨rfl, rfl⟩

theorem held_uses {b : BufId} (wf : t.BankWf o (b :: [])) :
    t.uses o b = decide ((t.buffers b).data ≠ []) := by
  have notPending : b ∉ o.pending t.myId := by
    have once := List.nodup_iff_count_le_one.mp wf.nodup b
    simp only [locations, List.count_cons, List.count_append, beq_self_eq_true, if_true] at once
    rw [← List.count_eq_zero]
    omega
  rw [Bool.eq_iff_iff, uses_iff, decide_eq_true_iff]
  exact and_iff_left notPending

/-- The need for the buffer is over, whether it is cleared or left to a callback. -/
theorem returnBuffer_needs (t : LogTarget) (o : Owner) (b : BufId) (nocallback : Bool) :
    (t.returnBuffer o b nocallback).1.needs (t.returnBuffer o b nocallback).2 + (t.uses o b).toNat =
      t.needs o := by
  rcases t.returnBuffer_events o b nocallback with ⟨_, _, o', items, done⟩ | ⟨_, _, o', same, done⟩
  · have pended : o'.pending t.myId = o.pending t.myId ++ [b] := by
      simp [Owner.pending, items, List.filterMap_append, WriteCBData.bufOf]
    have after : t.uses o' b = false := by
      rw [Bool.eq_false_iff, Ne, uses_iff, pended]
      simp
    have changed := needs_change t t o o' (b := b) (fun c other => by
      rw [Bool.eq_iff_iff, uses_iff, uses_iff, pended]
      simp [other]) rfl
    rw [done]
    rw [after] at changed
    exact changed
  · have after := released_unused t o' b
    have changed := needs_change t ((t.clearBuffer b).addAvail b) o o'
      (b := b) (fun c other => by
        have still : ((t.clearBuffer b).addAvail b).buffers c = t.buffers c := setBuffer_other _ other
        rw [Bool.eq_iff_iff, uses_iff, uses_iff, still, Owner.pending, Owner.pending, same]
        rfl) rfl
    rw [done]
    rw [after] at changed
    exact changed

theorem returnBuffer_current {b : BufId} (wf : t.BankWf o (b :: [])) (nocallback : Bool) :
    (t.returnBuffer o b nocallback).1.current.data = t.current.data := by
  have notCurrent := (held_elsewhere wf).2.2
  obtain ⟨_, _, _, frame⟩ := returnBuffer_frame t o b nocallback
  have current : (t.returnBuffer o b nocallback).1.currentBuffer = t.currentBuffer := by
    rcases t.returnBuffer_events o b nocallback with ⟨_, _, _, _, done⟩ | ⟨_, _, _, _, done⟩ <;>
      rw [done]
    rfl
  rw [LogTarget.current, current, frame _ (Ne.symm notCurrent)]
  rfl

theorem returnBuffer_refs {b : BufId} (wf : t.BankWf o (b :: [])) (nocallback : Bool)
    (enough : t.needs o ≤ o.needGreaseThread) :
    Refs t o 0 (t.returnBuffer o b nocallback) ∧
      (t.returnBuffer o b nocallback).1.current.data = t.current.data := by
  have wf' := returnBuffer_wf wf nocallback
  have others : ∀ id, id ≠ t.myId → (t.returnBuffer o b nocallback).2.pending id = o.pending id :=
    fun _ other => returnBuffer_others t o b nocallback other
  obtain ⟨need, alive⟩ := returnBuffer_need t o b nocallback
  have own := held_uses wf
  have given : (t.returnBuffer o b nocallback).2.needGreaseThread + (t.uses o b).toNat =
      o.needGreaseThread ∧ (t.returnBuffer o b nocallback).2.aborted = o.aborted := by
    rw [need, alive]
    by_cases data : (t.buffers b).data = []
    · have unused : t.uses o b = false := by rw [own]; simp [data]
      rw [if_pos data, unused]
      exact ⟨rfl, rfl⟩
    · have used : t.uses o b = true := by rw [own]; simp [data]
      have some : 0 < o.needGreaseThread := Nat.lt_of_lt_of_le (used_needs used) enough
      rw [if_neg data, used]
      constructor
      · exact Nat.sub_add_cancel some
      · simp [Owner.unrefGreaseInGrease, Nat.ne_of_gt some]
  have moved := returnBuffer_needs t o b nocallback
  obtain ⟨kind, id, _, _⟩ := returnBuffer_frame t o b nocallback
  refine ⟨⟨id, kind, wf', others, ?_, given.2⟩, returnBuffer_current wf nocallback⟩
  omega

theorem flush_refs {b : BufId} (wf : t.BankWf o (b :: [])) (nocallbacks : Bool)
    (enough : t.needs o ≤ o.needGreaseThread) :
    Refs t o 0 (t.flush o b nocallbacks) ∧
      (t.flush o b nocallbacks).1.current.data = t.current.data := by
  have wf' := flush_wf wf nocallbacks
  rcases t.flush_cases o b nocallbacks with ⟨_, h⟩ | ⟨_, h⟩
  · rw [h] at wf' ⊢
    refine ⟨⟨rfl, rfl, wf', fun _ _ => rfl, ?_, rfl⟩, rfl⟩
    have same : ({ t with inflight := t.inflight ++ [.buffer b nocallbacks] } : LogTarget).needs o =
        t.needs o :=
      needs_congr (fun _ => rfl) (by simp [WriteReq.isOverflow])
    rw [same]
    rfl
  · rw [h]
    exact returnBuffer_refs wf nocallbacks enough

theorem takeOut_wf (wf : t.BankWf o []) {b : BufId} {rest : BoundedQueue BufId (NUM_BANKS - 1)}
    (taken : t.writeOutBuffers.items = b :: rest.items) :
    ({ t with writeOutBuffers := rest }).BankWf o (b :: []) := by
  refine wf.moved rfl rfl (fun _ mem => mem) fun c => ?_
  simp only [locations, taken, List.count_cons, List.count_append, List.count_nil]
  omega

theorem returnBuffer_apart (t : LogTarget) (o : Owner) (b : BufId) (nocallback : Bool)
    (out : BoundedQueue BufId (NUM_BANKS - 1)) :
    { t with writeOutBuffers := out }.returnBuffer o b nocallback =
      ({ (t.returnBuffer o b nocallback).1 with writeOutBuffers := out },
        (t.returnBuffer o b nocallback).2) := by
  simp only [returnBuffer, callbackOrRelease]
  cases !nocallback && t.logCallbackSet && !(t.buffers b).isEmpty with
  | false => rfl
  | true =>
    simp only [if_true]
    cases ((if (t.buffers b).isEmpty then o else o.unrefGreaseInGrease).addCallback
      (.buffer t.myId b)).2 <;> rfl

theorem flush_apart (t : LogTarget) (o : Owner) (b : BufId) (nocallbacks : Bool)
    (out : BoundedQueue BufId (NUM_BANKS - 1)) :
    { t with writeOutBuffers := out }.flush o b nocallbacks =
      ({ (t.flush o b nocallbacks).1 with writeOutBuffers := out }, (t.flush o b nocallbacks).2) := by
  unfold flush
  simp only
  split
  · rfl
  · rfl
  · exact returnBuffer_apart t o b nocallbacks out

theorem flushAll_in_steps (nocallbacks : Bool) {out : List BufId} {t : LogTarget} {o : Owner}
    (items : t.writeOutBuffers.items = out) :
    (fun r : LogTarget × Owner => r.1.flushNext r.2 nocallbacks)^[out.length] (t, o) =
      { t with writeOutBuffers := .empty }.flushOut o nocallbacks out := by
  induction out generalizing t o with
  | nil =>
    have empty : t.writeOutBuffers = .empty := BoundedQueue.ext items
    rw [← empty]
    rfl
  | cons b rest ih =>
    cases removed : t.writeOutBuffers.remove with
    | none => simp [BoundedQueue.remove_none_iff, items] at removed
    | some p =>
      obtain ⟨c, queue⟩ := p
      have same := BoundedQueue.remove_some removed
      rw [items] at same
      obtain ⟨rfl, rfl⟩ := List.cons.inj same
      have next : t.flushNext o nocallbacks =
          ({ (t.flush o b nocallbacks).1 with writeOutBuffers := queue },
            (t.flush o b nocallbacks).2) := by
        simp only [flushNext, removed, flush_apart]
      simp only [List.length_cons, Function.iterate_succ_apply, next, ih, flushOut, flush_apart]

theorem refs_idle (wf : t.BankWf o []) : Refs t o 0 (t, o) :=
  ⟨rfl, rfl, wf, fun _ _ => rfl, rfl, rfl⟩

theorem flushNext_refs (wf : t.BankWf o []) (nocallbacks : Bool)
    (enough : t.needs o ≤ o.needGreaseThread) :
    Refs t o 0 (t.flushNext o nocallbacks) ∧
      (t.flushNext o nocallbacks).1.current.data = t.current.data := by
  unfold flushNext
  split
  · exact ⟨refs_idle wf, rfl⟩
  · rename_i b rest removed
    have taken := takeOut_wf wf (BoundedQueue.remove_some removed)
    obtain ⟨refs, current⟩ := flush_refs taken nocallbacks enough
    exact ⟨refs.of_taken rfl rfl rfl, current⟩

theorem flushNextSync_refs (wf : t.BankWf o []) (enough : t.needs o ≤ o.needGreaseThread) :
    Refs t o 0 (t.flushNextSync o) ∧ (t.flushNextSync o).1.current.data = t.current.data := by
  unfold flushNextSync
  split
  · exact ⟨refs_idle wf, rfl⟩
  · rename_i b rest removed
    have taken := takeOut_wf wf (BoundedQueue.remove_some removed)
    obtain ⟨refs, current⟩ := returnBuffer_refs taken true enough
    exact ⟨refs.of_taken rfl rfl rfl, current⟩

theorem returnOverflow_need (t : LogTarget) (o : Owner) (entry : OverflowWriteOut)
    (nocallback : Bool) :
    (t.returnOverflow o entry nocallback).needGreaseThread = o.needGreaseThread - 1 ∧
      (t.returnOverflow o entry nocallback).aborted = (o.aborted || o.needGreaseThread == 0) := by
  unfold returnOverflow
  simp only
  split <;> exact ⟨rfl, rfl⟩

theorem returnOverflow_wf (wf : t.BankWf o held) (entry : OverflowWriteOut) (nocallback : Bool) :
    t.BankWf (t.returnOverflow o entry nocallback) held :=
  wf.pending_same (returnOverflow_pending t o entry nocallback t.myId)

theorem uses_returnOverflow (t : LogTarget) (o : Owner) (entry : OverflowWriteOut) (nocallback : Bool)
    (b : BufId) : t.uses (t.returnOverflow o entry nocallback) b = t.uses o b := by
  simp only [uses, returnOverflow_pending]

theorem endWrite_refs (wf : t.BankWf o []) (k : Nat) (enough : t.needs o ≤ o.needGreaseThread) :
    Refs t o 0 (t.endWrite o k) ∧ (t.endWrite o k).1.current.data = t.current.data := by
  unfold endWrite
  split
  · exact ⟨refs_idle wf, rfl⟩
  · rename_i b nocallback at_k
    have perm := Totals.perm_eraseIdx at_k
    have taken : ({ t with inflight := t.inflight.eraseIdx k } : LogTarget).BankWf o (b :: []) :=
      takeInflight_wf wf perm
    have overflows := perm.countP_eq WriteReq.isOverflow
    simp only [List.countP_cons, WriteReq.isOverflow] at overflows
    have same : ({ t with inflight := t.inflight.eraseIdx k } : LogTarget).needs o = t.needs o :=
      needs_congr (fun _ => rfl) overflows.symm
    obtain ⟨refs, current⟩ := returnBuffer_refs taken nocallback (by rw [same]; exact enough)
    exact ⟨refs.of_taken rfl rfl same, current⟩
  · rename_i entry nocallback at_k
    have perm := Totals.perm_eraseIdx at_k
    let rest : LogTarget := { t with inflight := t.inflight.eraseIdx k }
    have taken : rest.BankWf o [] := takeInflight_wf wf perm
    have overflows := perm.countP_eq WriteReq.isOverflow
    simp only [List.countP_cons, WriteReq.isOverflow, if_true] at overflows
    obtain ⟨need, alive⟩ := returnOverflow_need rest o entry nocallback
    have some : 0 < o.needGreaseThread := by
      unfold needs at enough
      omega
    refine ⟨⟨rfl, rfl, returnOverflow_wf taken entry nocallback,
      fun id _ => returnOverflow_pending rest o entry nocallback id, ?_, ?_⟩, rfl⟩
    · have fewer : rest.needs (rest.returnOverflow o entry nocallback) + 1 = t.needs o := by
        have all : rest.uses (rest.returnOverflow o entry nocallback) = t.uses o :=
          funext fun b => uses_returnOverflow rest o entry nocallback b
        simp only [needs, all, rest]
        omega
      have balance : (rest.returnOverflow o entry nocallback).needGreaseThread + t.needs o =
          o.needGreaseThread + rest.needs (rest.returnOverflow o entry nocallback) := by omega
      exact balance
    · rw [alive]
      simp [Nat.ne_of_gt some]

theorem writeAsyncOverflow_refs (wf : t.BankWf o []) (kind : t.kind ≠ .callback)
    (entry : OverflowWriteOut) (enough : t.needs o + 1 ≤ o.needGreaseThread) :
    Refs t o 1 ((t.writeAsyncOverflow o entry false).1, (t.writeAsyncOverflow o entry false).2.1) := by
  unfold writeAsyncOverflow
  split
  · refine ⟨rfl, rfl, submit_wf (w := .overflow entry false) wf, fun _ _ => rfl, ?_, rfl⟩
    · have more : ({ t with inflight := t.inflight ++ [.overflow entry false] } : LogTarget).needs o =
          t.needs o + 1 := by
        have all : ({ t with inflight := t.inflight ++ [.overflow entry false] } : LogTarget).uses o =
            t.uses o := rfl
        simp only [needs, all, List.countP_append, List.countP_singleton, WriteReq.isOverflow, if_true]
        omega
      have balance : o.needGreaseThread + t.needs o + 1 = o.needGreaseThread +
          ({ t with inflight := t.inflight ++ [.overflow entry false] } : LogTarget).needs o := by omega
      exact balance
  · obtain ⟨need, alive⟩ := returnOverflow_need t o entry false
    refine ⟨rfl, rfl, returnOverflow_wf wf entry false,
      fun id _ => returnOverflow_pending t o entry false id, ?_, ?_⟩
    · have same : t.needs (t.returnOverflow o entry false) = t.needs o :=
        needs_congr (uses_returnOverflow t o entry false) rfl
      rw [need, same]
      omega
    · rw [alive]
      simp [Nat.ne_of_gt (show 0 < o.needGreaseThread by omega)]
  · contradiction

theorem rotate_refs (wf : t.BankWf o []) (fits : t.RotateFits) : Refs t o 0 (t.rotate.1, o) := by
  have wf' := rotate_wf wf
  rcases rotate_wf_cases wf with ⟨_, h⟩ | ⟨data, none, _⟩ | ⟨_, next, avail, writeOut, _, _, h⟩
  · rw [h]
    exact refs_idle wf
  · rcases fits with empty | free
    · exact absurd empty data
    · exact absurd none free
  · rw [h] at wf' ⊢
    exact ⟨rfl, rfl, wf', fun _ _ => rfl, rfl, rfl⟩

theorem rotate_empty (empty : t.current.data = []) : t.rotate.1 = t := by
  simp [rotate, empty]

theorem store_needs (wf : t.BankWf o []) (e : WriteEntry) :
    (t.store e.header e.s e.footer).needs o =
      t.needs o + if t.current.data = [] ∧ e.text ≠ [] then 1 else 0 := by
  have notPending : t.currentBuffer ∉ o.pending t.myId := fun mem =>
    wf.current_apart (by simp [mem]) rfl
  have copied : ((t.store e.header e.s e.footer).buffers t.currentBuffer).data = t.current.data ++
      e.header ++ e.s ++ e.footer ++ if e.s ≠ [] ∨ e.footer ≠ [] then t.current.delim else [] := by
    rw [store, setBuffer_same, copyEntry_data]
  have changed := needs_change t (t.store e.header e.s e.footer) o o
    (b := t.currentBuffer) (fun c other => by
      have still : (t.store e.header e.s e.footer).buffers c = t.buffers c := setBuffer_other _ other
      simp only [uses, still]
      rfl) rfl
  have before : t.uses o t.currentBuffer = decide (t.current.data ≠ []) := by
    rw [Bool.eq_iff_iff, uses_iff, decide_eq_true_iff]
    exact and_iff_left notPending
  have after : (t.store e.header e.s e.footer).uses o t.currentBuffer =
      decide (t.current.data ≠ [] ∨ e.text ≠ []) := by
    rw [Bool.eq_iff_iff, uses_iff, decide_eq_true_iff, copied]
    constructor
    · rintro ⟨data, _⟩
      by_contra none
      simp only [WriteEntry.text, ne_eq, not_or, Decidable.not_not, List.append_eq_nil_iff] at none
      obtain ⟨empty, ⟨header, text⟩, footer⟩ := none
      exact data (by simp [empty, header, text, footer])
    · intro some
      refine ⟨fun none => ?_, notPending⟩
      simp only [List.append_eq_nil_iff] at none
      obtain ⟨⟨⟨⟨empty, header⟩, text⟩, footer⟩, _⟩ := none
      exact some.elim (· empty) (· (by simp [WriteEntry.text, header, text, footer]))
  rw [before, after] at changed
  by_cases empty : t.current.data = []
  · by_cases text : e.text = []
    · simpa [empty, text] using changed
    · simpa [empty, text] using changed
  · simpa [empty] using changed

theorem deliver_refs (wf : t.BankWf o []) {d : WriteCBData}
    {rest : BoundedQueue WriteCBData V8_LOG_CALLBACK_QUEUE_SIZE}
    (removed : o.v8LogCallbacks.remove = some (d, rest)) :
    let o' := { o with v8LogCallbacks := rest, needV8 := o.needV8 - 1 }
    (t.callV8LogCallback o).1.BankWf o' [] ∧ (t.callV8LogCallback o).1.needs o' = t.needs o ∧
      (t.callV8LogCallback o).1.myId = t.myId ∧ (t.callV8LogCallback o).1.kind = t.kind ∧
      (t.callV8LogCallback o).1.current.data = t.current.data := by
  intro o'
  have wf' := callV8LogCallback_wf wf
  have next := Owner.pending_next o' t.myId (BoundedQueue.remove_some removed)
  rcases t.callV8LogCallback_cases o with ⟨empty, _⟩ | ⟨d', rest', removed', called⟩
  · rw [(BoundedQueue.remove_none_iff _).mpr empty] at removed
    cases removed
  obtain ⟨rfl, rfl⟩ := Prod.mk.inj (Option.some.inj (removed.symm.trans removed'))
  rcases called with ⟨b, rfl, called⟩ | ⟨none, called⟩
  · have waiting : o.pending t.myId = b :: o'.pending t.myId := by
      rw [next, bufOf_own]
      rfl
    have notCurrent : b ≠ t.currentBuffer := wf.current_apart (by simp [waiting])
    have before : t.uses o b = false := by
      rw [Bool.eq_false_iff, Ne, uses_iff, waiting]
      simp
    have after : (t.finalizeV8Callback b).uses o' b = false := released_unused t o' b
    have changed := needs_change t (t.finalizeV8Callback b) o o' (b := b)
      (fun c other => by
        have still : (t.finalizeV8Callback b).buffers c = t.buffers c := setBuffer_other _ other
        rw [Bool.eq_iff_iff, uses_iff, uses_iff, still, waiting, List.mem_cons, not_or]
        exact and_congr_right fun _ => (and_iff_right other).symm) rfl
    rw [called] at wf' ⊢
    rw [before, after] at changed
    refine ⟨wf', changed, rfl, rfl, ?_⟩
    exact congrArg LogBuf.data (setBuffer_other _ (Ne.symm notCurrent))
  · have waiting : o.pending t.myId = o'.pending t.myId := by
      rw [next, none]
      rfl
    rw [called] at wf' ⊢
    refine ⟨wf', needs_congr (fun b => ?_) rfl, rfl, rfl, rfl⟩
    simp only [uses, waiting]

theorem allOut_needs (wf : t.BankWf o []) (out : t.AllOut) : t.needs o = 0 := by
  obtain ⟨current, writeOut, inflight⟩ := out
  have none : (List.finRange NUM_BANKS).countP (t.uses o) = 0 := by
    rw [List.countP_eq_zero]
    intro b _ used
    obtain ⟨data, notPending⟩ := (uses_iff b).mp used
    have located := wf.located.mem_iff.mpr (List.mem_finRange b)
    simp only [locations, writeOut, inflight, List.filterMap_nil, List.append_nil, List.mem_cons,
      List.mem_append] at located
    rcases located with rfl | free | pending
    · exact data current
    · exact data (wf.availCleared b free)
    · exact notPending pending
  rw [needs, none, inflight]
  rfl

end LogTarget

/-! The balance of all targets. -/

def WriteStage.ahead : WriteStage → Nat
  | .copying _ true | .overflowing _ => 1
  | _ => 0

def WriteStage.Finds (t : LogTarget) : WriteStage → Prop
  | .testing _ => True
  | .referring e | .copying e true | .queueing e | .filling e => t.current.data = [] ∧ e.text ≠ []
  | .copying _ false => t.current.data ≠ []
  | .rotating e => e.text ≠ []
  | .overflowing _ => t.kind ≠ .callback

theorem WriteStage.Finds.same {t t' : LogTarget} {stage : WriteStage} (finds : stage.Finds t)
    (current : t'.current.data = t.current.data) (kind : t'.kind = t.kind) : stage.Finds t' := by
  unfold Finds at *
  rw [current, kind]
  exact finds

namespace GreaseRefs
open LogTarget
variable {s start : GreaseRefs} {t : LogTarget} {extra n : Nat} {r : LogTarget × Owner}

structure Core (s : GreaseRefs) (extra : Nat) : Prop where
  wf : ∀ t ∈ s.targets, t.BankWf s.o []
  ids : (s.targets.map LogTarget.myId).Nodup
  strangers : ∀ id, (∀ t ∈ s.targets, t.myId ≠ id) → s.o.pending id = []
  need : s.o.needGreaseThread = s.needs + extra
  alive : s.o.aborted = false
  timer : s.flushTimer = true ↔ 0 < s.o.needGreaseThread

def ahead (s : GreaseRefs) : Nat :=
  match s.writing with
  | none => 0
  | some (_, stage) => stage.ahead

structure Balance (s : GreaseRefs) : Prop where
  core : s.Core s.ahead
  finds : ∀ n stage, s.writing = some (n, stage) → ∃ t, s.targets[n]? = some t ∧ stage.Finds t

theorem Core.writing (core : s.Core extra) (w : Option (Nat × WriteStage)) :
    ({ s with writing := w }).Core extra :=
  ⟨core.wf, core.ids, core.strangers, core.need, core.alive, core.timer⟩

theorem Core.enough (core : s.Core extra) (at_n : s.targets[n]? = some t) :
    t.needs s.o + extra ≤ s.o.needGreaseThread := by
  have member : t.needs s.o ∈ s.targets.map (·.needs s.o) :=
    List.mem_map_of_mem (List.mem_of_getElem? at_n)
  have le := List.le_sum_of_mem member
  rw [core.need]
  unfold needs
  omega

theorem withOwner_timer (timer : s.flushTimer = true ↔ 0 < s.o.needGreaseThread) (o : Owner) :
    (s.withOwner o).flushTimer = true ↔ 0 < o.needGreaseThread := by
  unfold withOwner
  simp only
  split
  · next none =>
    have off : s.flushTimer = false := by
      rw [Bool.eq_false_iff, Ne, timer]
      omega
    simp [off]
  · next some =>
    have on : s.flushTimer = true := timer.mpr (Nat.pos_of_ne_zero some)
    simp [on]

theorem Core.withOwner (core : s.Core extra) {o : Owner} (taken : Nat)
    (pending : ∀ id, o.pending id = s.o.pending id)
    (need : o.needGreaseThread = s.o.needGreaseThread + taken) (alive : o.aborted = s.o.aborted) :
    (s.withOwner o).Core (extra + taken) where
  wf := fun t member => (core.wf t member).pending_same (pending t.myId)
  ids := core.ids
  strangers := fun id none => (pending id).trans (core.strangers id none)
  need := by
    have same : (s.withOwner o).needs = s.needs := by
      refine congrArg List.sum (List.map_congr_left fun t _ => needs_congr (fun b => ?_) rfl)
      simp only [uses, GreaseRefs.withOwner, pending]
    have total := core.need
    rw [same]
    simp only [GreaseRefs.withOwner]
    omega
  alive := alive.trans core.alive
  timer := withOwner_timer core.timer o

theorem Core.put {settled : Nat} (core : s.Core (extra + settled)) (at_n : s.targets[n]? = some t)
    (refs : Refs t s.o settled r) : (s.put n r).Core extra := by
  have apart : ∀ k u, k ≠ n → s.targets[k]? = some u → u.myId ≠ t.myId := by
    intro k u other at_k same
    have first : (s.targets.map LogTarget.myId)[k]? = some t.myId := by
      rw [List.getElem?_map, at_k, Option.map_some, same]
    have second : (s.targets.map LogTarget.myId)[n]? = some t.myId := by
      rw [List.getElem?_map, at_n, Option.map_some]
    have bound := (List.getElem?_eq_some_iff.mp first).1
    exact other ((List.getElem?_inj bound core.ids).mp (first.trans second.symm))
  have frame : ∀ k u, k ≠ n → s.targets[k]? = some u → r.2.pending u.myId = s.o.pending u.myId :=
    fun k u other at_k => refs.others _ (apart k u other at_k)
  have total : (s.put n r).needs + t.needs s.o = s.needs + r.1.needs r.2 := by
    refine Totals.sum_set at_n (fun k u other at_k => needs_congr (fun b => ?_) rfl) r.1
    simp only [uses, GreaseRefs.put, GreaseRefs.withOwner, frame k u other at_k]
  constructor
  · intro u member
    obtain ⟨k, at_k⟩ := List.mem_iff_getElem?.mp member
    have at_k' : (s.targets.set n r.1)[k]? = some u := at_k
    by_cases same : k = n
    · subst same
      have bound := (List.getElem?_eq_some_iff.mp at_n).1
      rw [List.getElem?_set_self bound] at at_k'
      obtain rfl := Option.some.inj at_k'
      exact refs.wf
    · rw [List.getElem?_set_ne (Ne.symm same)] at at_k'
      exact (core.wf u (List.mem_of_getElem? at_k')).pending_same (frame k u same at_k')
  · have same : (s.put n r).targets.map LogTarget.myId = s.targets.map LogTarget.myId := by
      have set : (s.put n r).targets = s.targets.set n r.1 := rfl
      obtain ⟨bound, is⟩ := List.getElem?_eq_some_iff.mp at_n
      have bound' : n < (s.targets.map LogTarget.myId).length := by rwa [List.length_map]
      have own : (s.targets.map LogTarget.myId)[n] = t.myId := by rw [List.getElem_map, is]
      rw [set, List.map_set, refs.myId, ← own, List.set_getElem_self]
    rw [same]
    exact core.ids
  · intro id none
    have bound := (List.getElem?_eq_some_iff.mp at_n).1
    have own : t.myId ≠ id := by
      rw [← refs.myId]
      exact none r.1 (List.mem_of_getElem? (List.getElem?_set_self bound))
    rw [show (s.put n r).o = r.2 from rfl, refs.others id (Ne.symm own)]
    refine core.strangers id fun u member => ?_
    obtain ⟨k, at_k⟩ := List.mem_iff_getElem?.mp member
    by_cases same : k = n
    · subst same
      obtain rfl : t = u := Option.some.inj (at_n.symm.trans at_k)
      exact own
    · exact none u (List.mem_of_getElem? ((List.getElem?_set_ne (Ne.symm same)).trans at_k))
  · have need := core.need
    have balance := refs.balance
    have owner : (s.put n r).o = r.2 := rfl
    rw [owner]
    omega
  · exact refs.alive.trans core.alive
  · exact withOwner_timer core.timer r.2

theorem put_balance (balance : s.Balance) (at_n : s.targets[n]? = some t)
    (refs : Refs t s.o 0 r)
    (keeps : ∀ stage, s.writing = some (n, stage) → stage.Finds t → stage.Finds r.1) :
    (s.put n r).Balance := by
  refine ⟨balance.core.put at_n refs, fun m stage place => ?_⟩
  obtain ⟨u, at_m, finds⟩ := balance.finds m stage place
  have targets : (s.put n r).targets = s.targets.set n r.1 := rfl
  rw [targets]
  by_cases same : m = n
  · subst same
    obtain rfl : t = u := Option.some.inj (at_n.symm.trans at_m)
    have bound := (List.getElem?_eq_some_iff.mp at_n).1
    exact ⟨r.1, List.getElem?_set_self bound, keeps stage place finds⟩
  · exact ⟨u, (List.getElem?_set_ne (Ne.symm same)).trans at_m, finds⟩

theorem put_balance_current (balance : s.Balance) (at_n : s.targets[n]? = some t)
    (refs : Refs t s.o 0 r) (current : r.1.current.data = t.current.data) : (s.put n r).Balance :=
  put_balance balance at_n refs fun _ _ finds => finds.same current refs.kind

theorem Balance.idle_core (balance : s.Balance) (idle : s.writing = none) : s.Core 0 := by
  have core := balance.core
  rwa [ahead, idle] at core

theorem balance_at {stage : WriteStage} (core : s.Core stage.ahead) (at_n : s.targets[n]? = some t)
    (finds : stage.Finds t) : ({ s with writing := some (n, stage) }).Balance := by
  refine ⟨core.writing _, ?_⟩
  rintro m stage' place
  obtain ⟨rfl, rfl⟩ := Prod.mk.inj (Option.some.inj place)
  exact ⟨t, at_n, finds⟩

theorem balance_idle (core : s.Core 0) : ({ s with writing := none }).Balance :=
  ⟨core.writing none, fun _ _ place => by cases place⟩

theorem balance_of_idle (core : s.Core 0) (idle : s.writing = none) : s.Balance := by
  have same : { s with writing := none } = s := by rw [← idle]
  exact same ▸ balance_idle core

theorem beginWrite_balance (balance : s.Balance) (idle : s.writing = none)
    (at_n : s.targets[n]? = some t) (env : WriteEnv) (text : List Byte) (m : LogMeta)
    (filter : Filter) : (s.beginWrite n t env text m filter).Balance := by
  have core := balance.idle_core idle
  unfold beginWrite
  split
  · exact balance
  · split
    · have moved := core.withOwner (o := (s.o.addCmd (.writeTargetOverflow t.myId (.ofData text m))).1)
        0 (fun _ => rfl) rfl rfl
      exact balance_of_idle moved idle
    · simp only
      split
      · exact balance_at core at_n trivial
      · next short =>
        refine balance_at core at_n fun none => short ?_
        simp only [WriteEntry.text, List.append_eq_nil_iff] at none
        obtain ⟨⟨header, text⟩, footer⟩ := none
        simp [header, text, footer]

theorem store_refs (wf : t.BankWf s.o []) (e : WriteEntry) :
    Refs t s.o (if t.current.data = [] ∧ e.text ≠ [] then 1 else 0)
      (t.store e.header e.s e.footer, s.o) where
  myId := rfl
  kind := rfl
  wf := store_wf wf _ _ _
  others := fun _ _ => rfl
  balance := by rw [store_needs wf e, Nat.add_assoc]
  alive := rfl

theorem writeOn_balance {stage : WriteStage} (balance : s.Balance)
    (place : s.writing = some (n, stage)) (at_n : s.targets[n]? = some t) (fits : StageFits t stage) :
    (s.writeOn n t stage).Balance := by
  have core : s.Core stage.ahead := by
    have core := balance.core
    rwa [ahead, place] at core
  have finds : stage.Finds t := by
    obtain ⟨u, at_u, finds⟩ := balance.finds n stage place
    obtain rfl : t = u := Option.some.inj (at_n.symm.trans at_u)
    exact finds
  have wf := core.wf t (List.mem_of_getElem? at_n)
  cases stage with
  | testing e =>
    by_cases empty : t.current.data = []
    · have asked : t.current.isEmpty = true := by simp [LogBuf.isEmpty, empty]
      simp only [writeOn, asked, if_true]
      exact balance_at core at_n ⟨empty, fits.resolve_left (fun some => some empty)⟩
    · have asked : t.current.isEmpty = false := by simp [LogBuf.isEmpty, empty]
      simp only [writeOn, asked, Bool.false_eq_true, if_false]
      exact balance_at core at_n empty
  | referring e =>
    have taken := core.withOwner (o := s.o.refGreaseInGrease) 1 (fun _ => rfl) rfl rfl
    exact balance_at taken at_n finds
  | copying e referred =>
    have refs := store_refs wf e
    cases referred with
    | true =>
      have both : t.current.data = [] ∧ e.text ≠ [] := finds
      rw [if_pos both] at refs
      have core' : s.Core (0 + 1) := core
      exact balance_idle (core'.put at_n refs)
    | false =>
      have not : ¬(t.current.data = [] ∧ e.text ≠ []) := fun both => finds both.1
      rw [if_neg not] at refs
      exact balance_idle (core.put at_n refs)
  | rotating e =>
    have refs := rotate_refs wf fits
    have core' : (s.put n (t.rotate.1, s.o)).Core 0 := core.put at_n refs
    have bound := (List.getElem?_eq_some_iff.mp at_n).1
    simp only [writeOn]
    split
    · next turned =>
      exact balance_at core' (List.getElem?_set_self bound) ⟨rotated_current wf turned, finds⟩
    · exact balance_idle core'
  | queueing e =>
    have core' := core.withOwner (o := (s.o.addCmd (.targetRotateBuffer t.myId)).1) 0
      (fun _ => rfl) rfl rfl
    simp only [writeOn]
    split
    · exact balance_at core' at_n finds
    · exact balance_idle core'
  | filling e =>
    have refs := store_refs wf e
    have both : t.current.data = [] ∧ e.text ≠ [] := finds
    rw [if_pos both] at refs
    have filled : Refs t s.o 0 (t.store e.header e.s e.footer, s.o.refGreaseInGrease) := by
      refine ⟨rfl, rfl, refs.wf.pending_same rfl, fun _ _ => rfl, ?_, rfl⟩
      have counts : (t.store e.header e.s e.footer).needs s.o.refGreaseInGrease =
          (t.store e.header e.s e.footer).needs s.o := rfl
      have given := refs.balance
      have more : s.o.refGreaseInGrease.needGreaseThread = s.o.needGreaseThread + 1 := rfl
      simp only [counts, more] at given ⊢
      omega
    exact balance_idle (core.put at_n filled)
  | overflowing entry =>
    have core' : s.Core (0 + 1) := core
    exact balance_idle (core'.put at_n
      (writeAsyncOverflow_refs wf finds entry (core.enough at_n)))

theorem rotate_balance (balance : s.Balance) (at_n : s.targets[n]? = some t)
    (between : s.NotBetween n) (fits : t.RotateFits) : (s.put n (t.rotate.1, s.o)).Balance := by
  have wf := balance.core.wf t (List.mem_of_getElem? at_n)
  have kind : t.rotate.1.kind = t.kind := (onlyClears_rotate t).config.kind
  refine put_balance balance at_n (rotate_refs wf fits) fun stage place finds => ?_
  have stays : t.current.data = [] → stage.Finds t.rotate.1 := by
    intro empty
    rw [rotate_empty empty]
    exact finds
  cases stage with
  | testing e => trivial
  | referring e => exact stays finds.1
  | copying e referred =>
    cases referred with
    | true => exact stays finds.1
    | false =>
      rw [NotBetween, place] at between
      exact absurd rfl between
  | rotating e => exact finds
  | queueing e => exact stays finds.1
  | filling e => exact stays finds.1
  | overflowing entry =>
    intro is
    exact finds (kind.symm.trans is)

theorem addTarget_balance (balance : s.Balance) (kind : TargetKind) (bufferSize : Nat) (id : TargetId)
    (delim : List Byte) (own : ∀ t ∈ s.targets, t.myId ≠ id) :
    (s.apply (.addTarget kind bufferSize id delim)).Balance := by
  have core := balance.core
  have noCallbacks := core.strangers id own
  have wf : (LogTarget.new kind bufferSize id delim).BankWf s.o [] :=
    BankState.start_wf (s := ⟨LogTarget.new kind bufferSize id delim, s.o⟩)
      ⟨⟨kind, bufferSize, id, delim, {}, false, rfl⟩, noCallbacks⟩
  have none : (LogTarget.new kind bufferSize id delim).needs s.o = 0 :=
    allOut_needs wf ⟨rfl, rfl, rfl⟩
  refine ⟨⟨?_, ?_, ?_, ?_, core.alive, core.timer⟩, ?_⟩
  · intro t member
    rcases List.mem_append.mp member with old | new
    · exact core.wf t old
    · obtain rfl := List.mem_singleton.mp new
      exact wf
  · simp only [apply, List.map_append, List.map_cons, List.map_nil]
    refine List.nodup_append.mpr ⟨core.ids, List.nodup_singleton _, ?_⟩
    intro a mem b new same
    obtain ⟨t, member, rfl⟩ := List.mem_map.mp mem
    obtain rfl := List.mem_singleton.mp new
    exact own t member same
  · intro id' others
    exact core.strangers id' fun t member => others t (List.mem_append_left _ member)
  · have total := core.need
    have sum : (s.apply (.addTarget kind bufferSize id delim)).needs = s.needs := by
      simp only [apply, needs, List.map_append, List.map_cons, List.map_nil, List.sum_append,
        List.sum_cons, List.sum_nil, none, Nat.add_zero]
    rw [sum]
    exact total
  · intro n stage place
    obtain ⟨t, at_n, finds⟩ := balance.finds n stage place
    have bound := (List.getElem?_eq_some_iff.mp at_n).1
    exact ⟨t, (List.getElem?_append_left bound).trans at_n, finds⟩

theorem deliver_balance (balance : s.Balance) : (s.apply .deliver).Balance := by
  have core := balance.core
  simp only [apply]
  split
  · exact balance
  · rename_i d rest removed
    have items := BoundedQueue.remove_some removed
    have each := fun t member => deliver_refs (core.wf t member) removed
    refine ⟨⟨?_, ?_, ?_, ?_, core.alive, withOwner_timer core.timer _⟩, ?_⟩
    · intro u member
      obtain ⟨t, old, rfl⟩ := List.mem_map.mp member
      exact (each t old).1
    · have same : (s.targets.map fun t => (t.callV8LogCallback s.o).1).map LogTarget.myId =
          s.targets.map LogTarget.myId := by
        rw [List.map_map]
        exact List.map_congr_left fun t member => (each t member).2.2.1
      rw [same]
      exact core.ids
    · intro id none
      have before := core.strangers id fun t member => by
        rw [← (each t member).2.2.1]
        exact none _ (List.mem_map_of_mem member)
      simp only [Owner.pending, items, List.filterMap_eq_nil_iff] at before
      simp only [Owner.pending, GreaseRefs.withOwner, List.filterMap_eq_nil_iff]
      exact fun a mem => before a (List.mem_cons_of_mem d mem)
    · have total := core.need
      unfold needs at total ⊢
      rw [List.map_map]
      refine total.trans (congrArg (· + _) (congrArg List.sum (List.map_congr_left ?_)))
      exact fun t member => (each t member).2.1.symm
    · intro n stage place
      obtain ⟨t, at_n, finds⟩ := balance.finds n stage place
      have mem := List.mem_of_getElem? at_n
      refine ⟨(t.callV8LogCallback s.o).1, ?_, finds.same (each t mem).2.2.2.2 (each t mem).2.2.2.1⟩
      rw [List.getElem?_map, at_n]
      rfl

theorem set_balance (balance : s.Balance) (at_n : s.targets[n]? = some t) {t' : LogTarget}
    (is : ∃ formats logCallbackSet disabled,
      t' = { t with formats := formats, logCallbackSet := logCallbackSet, disabled := disabled }) :
    (s.put n (t', s.o)).Balance := by
  obtain ⟨formats, logCallbackSet, disabled, rfl⟩ := is
  have wf := balance.core.wf t (List.mem_of_getElem? at_n)
  exact put_balance_current balance at_n
    ⟨rfl, rfl, ⟨wf.located, wf.availCleared, wf.spaces⟩, fun _ _ => rfl, rfl, rfl⟩ rfl

theorem on_balance (balance : s.Balance) {f : LogTarget → GreaseRefs}
    (each : ∀ t, s.targets[n]? = some t → (f t).Balance) : (s.on n f).Balance := by
  unfold on
  split
  · exact balance
  · next t at_n => exact each t at_n

/-- write() with nothing in between is the write of the target. -/
theorem write_in_steps (idle : s.writing = none) (at_n : s.targets[n]? = some t) (env : WriteEnv)
    (text : List Byte) (m : LogMeta) (filter : Filter) :
    ∃ k, ∃ s' : GreaseRefs,
      s' = (List.replicate k .writeOn).foldl apply (s.apply (.beginWrite n env text m filter)) ∧
      s'.writing = none ∧ s'.targets = s.targets.set n (t.write s.o env text m filter).1 ∧
      s'.o = (t.write s.o env text m filter).2.1 := by
  obtain ⟨bound, is⟩ := List.getElem?_eq_some_iff.mp at_n
  have unchanged : s.targets = s.targets.set n t := by rw [← is, List.set_getElem_self]
  have there : ∀ u, (s.targets.set n u)[n]? = some u := fun _ => List.getElem?_set_self bound
  have begun : s.apply (.beginWrite n env text m filter) = s.beginWrite n t env text m filter := by
    simp only [apply, on, at_n]
  rw [begun]
  by_cases off : t.disabled = true
  · refine ⟨0, _, rfl, ?_⟩
    simp [beginWrite, LogTarget.write, off, idle, ← unchanged]
  by_cases large : t.bankSize < text.length + GREASE_MAX_PREFIX_HEADER
  · refine ⟨0, _, rfl, ?_⟩
    simp [beginWrite, LogTarget.write, off, large, idle, withOwner, ← unchanged]
  by_cases room : t.current.remain ≥ text.length + (t.header env m filter).length +
      (t.footer env m filter).length
  · by_cases empty : t.current.isEmpty = true
    · refine ⟨3, _, rfl, ?_⟩
      simp [beginWrite, LogTarget.write, off, large, room, apply, on, writeOn, withOwner, put, at_n,
        empty, List.replicate]
    · refine ⟨2, _, rfl, ?_⟩
      simp [beginWrite, LogTarget.write, off, large, room, apply, on, writeOn, withOwner, put, at_n,
        empty, List.replicate]
  · by_cases turned : t.rotate.2 = .rotated
    · have myId : t.rotate.1.myId = t.myId := (onlyClears_rotate t).config.myId
      by_cases queued : s.o.HasRoom
      · refine ⟨3, _, rfl, ?_⟩
        simp [myId, beginWrite, LogTarget.write, off, large, room, apply, on, writeOn, withOwner, put, at_n,
          turned, Owner.addCmd_room _ queued, List.replicate, there]
      · refine ⟨2, _, rfl, ?_⟩
        simp [beginWrite, LogTarget.write, off, large, room, apply, on, writeOn, withOwner, put, at_n,
          turned, Owner.addCmd_full _ queued, List.replicate, there]
    · refine ⟨1, _, rfl, ?_⟩
      simp [beginWrite, LogTarget.write, off, large, room, apply, on, writeOn, withOwner, put, at_n,
        turned, List.replicate]

theorem apply_balance (balance : s.Balance) {a : RefAction} (allowed : s.Allowed a)
    (fits : s.InBalance a) : (s.apply a).Balance := by
  have core := balance.core
  have enough : ∀ {n : Nat} {t : LogTarget}, s.targets[n]? = some t →
      t.needs s.o ≤ s.o.needGreaseThread := fun at_n => Nat.le_of_add_right_le (core.enough at_n)
  have wf : ∀ {n : Nat} {t : LogTarget}, s.targets[n]? = some t → t.BankWf s.o [] := fun at_n =>
    core.wf _ (List.mem_of_getElem? at_n)
  cases a with
  | addTarget kind bufferSize id delim =>
    exact addTarget_balance balance kind bufferSize id delim allowed
  | configure n formats logCallbackSet =>
    exact on_balance balance fun t at_n =>
      set_balance balance at_n ⟨formats, logCallbackSet, t.disabled, rfl⟩
  | disableWrites n v =>
    exact on_balance balance fun t at_n =>
      set_balance balance at_n ⟨t.formats, t.logCallbackSet, v, rfl⟩
  | beginWrite n env text m filter =>
    exact on_balance balance fun t at_n =>
      beginWrite_balance balance allowed at_n env text m filter
  | beginOverflow n env log filter =>
    refine on_balance balance fun t at_n => ?_
    split
    · exact balance
    · next enabled =>
      have kind := (fits t at_n).resolve_left enabled
      have taken := (balance.idle_core allowed).withOwner (o := s.o.refGreaseInGrease) 1
        (fun _ => rfl) rfl rfl
      exact balance_at taken at_n kind
  | writeOn =>
    simp only [apply]
    split
    · exact balance
    · next n stage place =>
      simp only [InBalance, place] at fits
      exact on_balance balance fun t at_n => writeOn_balance balance place at_n (fits t at_n)
  | rotate n =>
    exact on_balance balance fun t at_n => rotate_balance balance at_n fits.1 (fits.2 t at_n)
  | flushNext n nocallbacks =>
    refine on_balance balance fun t at_n => ?_
    obtain ⟨refs, current⟩ := flushNext_refs (wf at_n) nocallbacks (enough at_n)
    exact put_balance_current balance at_n refs current
  | flushNextSync n =>
    refine on_balance balance fun t at_n => ?_
    obtain ⟨refs, current⟩ := flushNextSync_refs (wf at_n) (enough at_n)
    exact put_balance_current balance at_n refs current
  | writeCb n k =>
    refine on_balance balance fun t at_n => ?_
    obtain ⟨refs, current⟩ := endWrite_refs (wf at_n) k (enough at_n)
    exact put_balance_current balance at_n refs current
  | deliver => exact deliver_balance balance
  | commands queue =>
    have wf' : ∀ t ∈ s.targets, t.BankWf { s.o with internalCmdQueue := queue } [] :=
      fun t member => (core.wf t member).pending_same rfl
    exact ⟨⟨wf', core.ids, core.strangers, core.need, core.alive, core.timer⟩, balance.finds⟩

theorem start_balance (fresh : s.Start) : s.Balance := by
  obtain ⟨targets, callbacks, ⟨need, alive⟩, writing, timer⟩ := fresh
  refine ⟨⟨?_, ?_, ?_, ?_, alive, ?_⟩, ?_⟩
  · intro t member
    rw [targets] at member
    cases member
  · rw [targets]
    exact List.nodup_nil
  · intro id _
    rw [Owner.pending, callbacks]
    rfl
  · simp [need, needs, targets, ahead, writing]
  · simp [timer, need]
  · intro n stage place
    rw [writing] at place
    cases place

theorem run_balance {actions : List RefAction} (fresh : start.Start)
    (run : Runs.Run (Runs.Guard InBalance Step) start actions s) : s.Balance :=
  Runs.run_invariant Balance (start_balance fresh)
    (fun _ _ _ balance step => by
      obtain ⟨fits, allowed, rfl⟩ := step
      exact apply_balance balance allowed fits) run

/-- Between the operations of the logger thread the counter is the number of buffers
    and overflow writes that need it, and the assertion in unrefGreaseInGrease holds. -/
theorem needGreaseThread_counts {actions : List RefAction} (fresh : start.Start)
    (run : Runs.Run (Runs.Guard InBalance Step) start actions s) :
    s.o.aborted = false ∧ (s.writing = none → s.o.needGreaseThread = s.needs ∧
      ((∀ t ∈ s.targets, t.AllOut) → s.o.needGreaseThread = 0 ∧ s.flushTimer = false)) := by
  have balance := run_balance fresh run
  refine ⟨balance.core.alive, fun idle => ?_⟩
  have core := balance.idle_core idle
  refine ⟨core.need, fun out => ?_⟩
  have none : s.needs = 0 := by
    refine List.sum_eq_zero fun n member => ?_
    obtain ⟨t, mem, rfl⟩ := List.mem_map.mp member
    exact allOut_needs (core.wf t mem) (out t mem)
  have zero : s.o.needGreaseThread = 0 := by rw [core.need, none]
  refine ⟨zero, ?_⟩
  rw [Bool.eq_false_iff, Ne, core.timer]
  omega

theorem step_apply (s : GreaseRefs) (a : RefAction) (allowed : s.Allowed a) : s.Step a (s.apply a) :=
  ⟨allowed, rfl⟩

theorem fits_run {actions : List RefAction}
    (checked : Runs.Checked (fun s a => s.InBalance a ∧ s.Allowed a) apply start actions) :
    Runs.Run (Runs.Guard InBalance Step) start actions (actions.foldl apply start) :=
  Runs.run_checked (fun s a allowed => ⟨allowed.1, step_apply s a allowed.2⟩) checked

def writeFirst (n : Nat) (text : List Byte) : List RefAction :=
  [.beginWrite n plainEnv text noMetaData {}, .writeOn, .writeOn, .writeOn]

def addFile (bufferSize : Nat) (logCallbackSet : Bool) : List RefAction :=
  [.addTarget .file bufferSize 1 [10], .configure 0 {} logCallbackSet]

def oneEntry (logCallbackSet : Bool) : List RefAction :=
  addFile 4096 logCallbackSet ++ writeFirst 0 [97] ++ [.rotate 0, .flushNext 0 false, .writeCb 0 0]

theorem needGreaseThread_of_oneEntry :
    ∃ s : GreaseRefs, s.writing = none ∧ (∀ t ∈ s.targets, t.AllOut) ∧ s.o.aborted = false ∧
      s.o.needGreaseThread = 0 ∧ s.flushTimer = false := by
  have fresh : ({} : GreaseRefs).Start := ⟨rfl, rfl, ⟨rfl, rfl⟩, rfl, rfl⟩
  have run : Runs.Run (Runs.Guard InBalance Step) {} (oneEntry false) ((oneEntry false).foldl apply {}) :=
    fits_run (by decide +kernel)
  have idle : ((oneEntry false).foldl apply {}).writing = none := by decide +kernel
  have out : ∀ t ∈ ((oneEntry false).foldl apply {}).targets, t.AllOut := by
    unfold LogTarget.AllOut
    decide +kernel
  obtain ⟨alive, counts⟩ := needGreaseThread_counts fresh run
  exact ⟨_, idle, out, alive, (counts idle).2 out⟩

end GreaseRefs

def LogTarget.filled (t : LogTarget) : Nat :=
  (List.finRange NUM_BANKS).countP (fun b => !(t.buffers b).isEmpty) +
    t.inflight.countP WriteReq.isOverflow

namespace GreaseRefs

def fullBank : List RefAction :=
  addFile 4096 false ++ (List.replicate 4 (writeFirst 0 [97] ++ [.rotate 0])).flatten

/-- Flush on the node thread takes the buffer that write() has found to have data. -/
def flushBetween : List RefAction :=
  addFile 4096 false ++ writeFirst 0 [97] ++
    [.beginWrite 0 plainEnv [98] noMetaData {}, .writeOn, .rotate 0, .flushNext 0 false, .writeOn,
      .rotate 0, .flushNext 0 false, .writeCb 0 0, .writeCb 0 0]

def callbackOverflow : List RefAction :=
  [.addTarget .callback 4096 1 [10],
    .beginOverflow 0 plainEnv (.ofData (List.replicate 5000 97) noMetaData) {}, .writeOn]

/-- A buffer that waits for its callback has been given up; and four ways to lose
    count: no buffer to rotate to, an empty entry, an overflow write of a
    callbackTarget, and a flush between the question and the copy. -/
theorem needGreaseThread_miscounts :
    ∃ start : GreaseRefs, start.Start ∧
    (∃ s, Runs.Run Step start (oneEntry true) s ∧ s.writing = none ∧
      (s.targets.map LogTarget.filled).sum = 1 ∧ s.o.needGreaseThread = 0) ∧
    (∃ s, Runs.Run Step start fullBank s ∧ s.writing = none ∧
      (s.targets.map LogTarget.filled).sum = 3 ∧ s.o.needGreaseThread = 4) ∧
    (∃ s, Runs.Run Step start (addFile 4096 false ++ writeFirst 0 []) s ∧ s.writing = none ∧
      (s.targets.map LogTarget.filled).sum = 0 ∧ s.o.needGreaseThread = 1) ∧
    (∃ s, Runs.Run Step start callbackOverflow s ∧ s.writing = none ∧
      (s.targets.map LogTarget.filled).sum = 0 ∧ s.o.needGreaseThread = 1) ∧
    (∃ s, Runs.Run Step start flushBetween s ∧ s.writing = none ∧ s.o.aborted = true) := by
  have ran : ∀ actions, Runs.Checked Allowed apply {} actions →
      Runs.Run Step {} actions (actions.foldl apply {}) :=
    fun _ => Runs.run_checked step_apply
  refine ⟨{}, ⟨rfl, rfl, ⟨rfl, rfl⟩, rfl, rfl⟩, ?_, ?_, ?_, ?_, ?_⟩
  · exact ⟨_, ran _ (by decide +kernel), by decide +kernel, by decide +kernel, by decide +kernel⟩
  · exact ⟨_, ran _ (by decide +kernel), by decide +kernel, by decide +kernel, by decide +kernel⟩
  · exact ⟨_, ran _ (by decide +kernel), by decide +kernel, by decide +kernel, by decide +kernel⟩
  · exact ⟨_, ran _ (by decide +kernel), by decide +kernel, by decide +kernel, by decide +kernel⟩
  · exact ⟨_, ran _ (by decide +kernel), by decide +kernel, by decide +kernel⟩

end GreaseRefs

end GreaseLog
