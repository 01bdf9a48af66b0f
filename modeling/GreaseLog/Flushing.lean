import GreaseLog.Lib.HeldLocks
import GreaseLog.Unwritten

/- What flushAll and flushAllSync do to the buffers of a target, in the order in
   which the logger thread does it: the mutexes of the buffers it takes, what it
   gives to a write or to the callback, and what it clears. -/
namespace GreaseLog

inductive BufAct where
  /-- Given to an asynchronous write, which reads it until its callback runs. -/
  | submit (b : BufId)
  /-- Written out: at once, or by the end of its asynchronous write. -/
  | write (b : BufId)
  | callback (b : BufId)
  | clear (b : BufId)
  deriving DecidableEq

abbrev BufEvent : Type := HeldLocks.Event BufId BufAct

def clearEvents (b : BufId) : List BufEvent := [.lock b, .act (.clear b), .unlock b]

def isEmptyEvents (b : BufId) : List BufEvent := [.lock b, .unlock b]

namespace LogTarget

def rotateEvents (t : LogTarget) : List BufEvent :=
  match t.rotate.2 with
  | .rotated | .noData => []
  | .noBuffers | .writeOutFull => clearEvents t.currentBuffer

/-- returnBuffer, where sync is whether it calls the callback itself. -/
def returnEvents (t : LogTarget) (o : Owner) (b : BufId) (sync nocallback : Bool) : List BufEvent :=
  isEmptyEvents b ++
    if !nocallback && t.logCallbackSet && !(t.buffers b).isEmpty then
      if sync then .act (.callback b) :: clearEvents b
      else if o.v8LogCallbacks.HasRoom then [] else clearEvents b
    else clearEvents b

def flushEvents (t : LogTarget) (o : Owner) (b : BufId) (nocallbacks : Bool) : List BufEvent :=
  match t.kind with
  | .tty | .file => [.lock b, .act (.submit b), .unlock b]
  | .callback => t.returnEvents o b false nocallbacks

def flushOutEvents (t : LogTarget) (o : Owner) (nocallbacks : Bool) : List BufId → List BufEvent
  | [] => []
  | b :: rest =>
    let done := t.flush o b nocallbacks
    t.flushEvents o b nocallbacks ++ done.1.flushOutEvents done.2 nocallbacks rest

def flushAllEvents (t : LogTarget) (o : Owner) (nocallbacks : Bool) : List BufEvent :=
  let r := t.rotate.1
  t.rotateEvents ++ { r with writeOutBuffers := .empty }.flushOutEvents o nocallbacks r.writeOutBuffers.items

/-- A ttyTarget holds the mutex of the buffer while it gives it back. -/
def flushSyncEvents (t : LogTarget) (o : Owner) (b : BufId) (nocallbacks : Bool) : List BufEvent :=
  match t.kind with
  | .tty => .lock b :: (t.returnEvents o b true nocallbacks ++ [.act (.write b), .unlock b])
  | .file => [.lock b, .act (.write b), .unlock b] ++ t.returnEvents o b true nocallbacks
  | .callback => t.returnEvents o b true nocallbacks

def flushOutSyncEvents (t : LogTarget) (o : Owner) (nocallbacks : Bool) : List BufId → List BufEvent
  | [] => []
  | b :: rest =>
    let done := t.flushSync o b
    t.flushSyncEvents o b nocallbacks ++ done.1.flushOutSyncEvents done.2.1 nocallbacks rest

def flushAllSyncEvents (t : LogTarget) (o : Owner) (nocallbacks : Bool) : List BufEvent :=
  let r := t.rotate.1
  t.rotateEvents ++
    { r with writeOutBuffers := .empty }.flushOutSyncEvents o nocallbacks r.writeOutBuffers.items

def writeCbEvents (t : LogTarget) (o : Owner) : List BufEvent :=
  match t.inflight with
  | .buffer b nocallback :: rest =>
    .act (.write b) :: { t with inflight := rest }.returnEvents o b false nocallback
  | _ => []

def callbackEvents (t : LogTarget) (o : Owner) : List BufEvent :=
  match o.v8LogCallbacks.items with
  | .buffer id b :: _ => if id = t.myId then .act (.callback b) :: clearEvents b else []
  | _ => []

def writeCbsEvents : Nat → LogTarget → Owner → List BufEvent
  | 0, _, _ => []
  | n + 1, t, o => t.writeCbEvents o ++ writeCbsEvents n (t.writeCb o).1 (t.writeCb o).2

def callbacksEvents : Nat → LogTarget → Owner → List BufEvent
  | 0, _, _ => []
  | n + 1, t, o =>
    t.callbackEvents o ++ callbacksEvents n (t.callV8LogCallback o).1 (t.callV8LogCallback o).2

/-- All writes in flight end; a callbackTarget has its pending callbacks called. -/
def completionEvents (t : LogTarget) (o : Owner) : List BufEvent :=
  match t.kind with
  | .tty | .file => writeCbsEvents t.inflight.length t o
  | .callback => callbacksEvents o.v8LogCallbacks.items.length t o

end LogTarget

/-! What the output gets. -/

abbrev BufMem : Type := BufId → LogBuf

def BufAct.perform (mem : BufMem) : BufAct → BufMem
  | .clear b => Function.update mem b (mem b).clear
  | _ => mem

/-- The output of a callbackTarget is its callback. -/
def BufAct.output (kind : TargetKind) (mem : BufMem) : BufAct → List Byte
  | .write b => if kind = .callback then [] else (mem b).data
  | .callback b => if kind = .callback then (mem b).data else []
  | _ => []

def replay (mem : BufMem) (events : List BufEvent) : BufMem :=
  (HeldLocks.acts events).foldl BufAct.perform mem

def handedActs (kind : TargetKind) : BufMem → List BufAct → List Byte
  | _, [] => []
  | mem, a :: rest => a.output kind mem ++ handedActs kind (a.perform mem) rest

def handed (kind : TargetKind) (mem : BufMem) (events : List BufEvent) : List Byte :=
  handedActs kind mem (HeldLocks.acts events)

def bytesIn (mem : BufMem) (bs : List BufId) : List Byte := bs.flatMap fun b => (mem b).data

def filledOf (mem : BufMem) (bs : List BufId) : List BufId := bs.filter fun b => !(mem b).isEmpty

namespace LogTarget

def ahead (t : LogTarget) (o : Owner) : List BufId :=
  match t.kind with
  | .tty | .file => t.inflight.filterMap WriteReq.buf?
  | .callback => o.pending t.myId

def waiting (t : LogTarget) : List BufId := t.writeOutBuffers.items ++ [t.currentBuffer]

def RotateFits (t : LogTarget) : Prop := t.current.data = [] ∨ t.availBuffers.items ≠ []

def CallbacksFit (t : LogTarget) (o : Owner) (nocallbacks : Bool) (out : List BufId) : Prop :=
  filledOf t.buffers out = [] ∨ t.logCallbackSet = true ∧ nocallbacks = false ∧
    o.v8LogCallbacks.items.length + (filledOf t.buffers out).length ≤ V8_LOG_CALLBACK_QUEUE_SIZE

end LogTarget

namespace BankState

/-- flushAll(true), with the end of the writes it submits, hands out all that
    waits, in order, and takes no mutex that it holds. -/
def FlushKeeps (s : BankState) (nocallbacks : Bool) : Prop :=
  let flushed := s.t.flushAll s.o true nocallbacks
  let events := s.t.flushAllEvents s.o nocallbacks ++ flushed.1.completionEvents flushed.2.1
  handed s.t.kind s.t.buffers events = bytesIn s.t.buffers (s.t.ahead s.o ++ s.t.waiting) ∧
    HeldLocks.after [] events ≠ none

/-- The same of flushAllSync(true), which leaves nothing to be completed. -/
def FlushSyncKeeps (s : BankState) (nocallbacks : Bool) : Prop :=
  let events := s.t.flushAllSyncEvents s.o nocallbacks
  handed s.t.kind s.t.buffers events = bytesIn s.t.buffers s.t.waiting ∧
    HeldLocks.after [] events ≠ none

def FlushFits (s : BankState) (nocallbacks : Bool) : Prop :=
  s.t.RotateFits ∧ (s.t.kind = .callback → s.t.CallbacksFit s.o nocallbacks s.t.waiting)

def FlushSyncFits (s : BankState) (nocallbacks : Bool) : Prop :=
  match s.t.kind with
  | .tty => s.t.writeOutBuffers.items = [] ∧ s.t.current.data = []
  | .file => s.t.RotateFits
  | .callback => s.t.RotateFits ∧
      (filledOf s.t.buffers s.t.waiting = [] ∨ s.t.logCallbackSet = true ∧ nocallbacks = false)

end BankState

variable {kind : TargetKind} {mem : BufMem} {t : LogTarget} {o : Owner} {held : List BufId} {c : BufId}

theorem handedActs_append (kind : TargetKind) (mem : BufMem) (first second : List BufAct) :
    handedActs kind mem (first ++ second) =
      handedActs kind mem first ++ handedActs kind (first.foldl BufAct.perform mem) second := by
  induction first generalizing mem with
  | nil => rfl
  | cons a rest ih =>
    simp only [List.cons_append, handedActs, ih, List.foldl_cons, List.append_assoc]

theorem handed_append (kind : TargetKind) (mem : BufMem) (first second : List BufEvent) :
    handed kind mem (first ++ second) =
      handed kind mem first ++ handed kind (replay mem first) second := by
  simp only [handed, replay, HeldLocks.acts_append, handedActs_append]

theorem replay_append (mem : BufMem) (first second : List BufEvent) :
    replay mem (first ++ second) = replay (replay mem first) second := by
  simp only [replay, HeldLocks.acts_append, List.foldl_append]

theorem bytesIn_append (mem : BufMem) (first second : List BufId) :
    bytesIn mem (first ++ second) = bytesIn mem first ++ bytesIn mem second := List.flatMap_append

theorem bytesIn_congr {mem' : BufMem} {bs : List BufId} (same : ∀ b ∈ bs, mem' b = mem b) :
    bytesIn mem' bs = bytesIn mem bs :=
  List.flatMap_congr fun b in_bs => by rw [same b in_bs]

structure Silent (kind : TargetKind) (mem mem' : BufMem) (events : List BufEvent) : Prop where
  handed : handed kind mem events = []
  replay : replay mem events = mem'
  locks : HeldLocks.Balanced events

theorem Silent.append {mem' mem'' : BufMem} {first second : List BufEvent}
    (one : Silent kind mem mem' first) (other : Silent kind mem' mem'' second) :
    Silent kind mem mem'' (first ++ second) where
  handed := by rw [handed_append, one.handed, one.replay, other.handed, List.append_nil]
  replay := by rw [replay_append, one.replay, other.replay]
  locks := one.locks.append other.locks

theorem silent_nil : Silent kind mem mem [] := ⟨rfl, rfl, HeldLocks.balanced_nil⟩

theorem silent_isEmpty (b : BufId) : Silent kind mem mem (isEmptyEvents b) :=
  ⟨rfl, rfl, HeldLocks.balanced_touch b⟩

theorem silent_submit (b : BufId) : Silent kind mem mem [.lock b, .act (.submit b), .unlock b] :=
  ⟨rfl, rfl, HeldLocks.balanced_lock b _⟩

theorem silent_clear (b : BufId) :
    Silent kind mem (Function.update mem b (mem b).clear) (clearEvents b) :=
  ⟨rfl, rfl, HeldLocks.balanced_lock b _⟩

namespace LogTarget

theorem returnBuffer_events (t : LogTarget) (o : Owner) (b : BufId) (nocallback : Bool) :
    let accepts := t.logCallbackSet = true ∧ nocallback = false ∧ (t.buffers b).data ≠ [] ∧
      o.v8LogCallbacks.HasRoom
    (accepts ∧ t.returnEvents o b false nocallback = isEmptyEvents b ∧
      ∃ o' : Owner, o'.v8LogCallbacks.items = o.v8LogCallbacks.items ++ [.buffer t.myId b] ∧
        t.returnBuffer o b nocallback = (t, o')) ∨
    (¬ accepts ∧ t.returnEvents o b false nocallback = isEmptyEvents b ++ clearEvents b ∧
      ∃ o' : Owner, o'.v8LogCallbacks = o.v8LogCallbacks ∧
        t.returnBuffer o b nocallback = ((t.clearBuffer b).addAvail b, o')) := by
  intro accepts
  let o₁ := if (t.buffers b).isEmpty then o else o.unrefGreaseInGrease
  have callbacks : o₁.v8LogCallbacks = o.v8LogCallbacks := by
    simp only [o₁]
    split <;> rfl
  have returned : t.returnBuffer o b nocallback =
      t.callbackOrRelease o₁ b (!nocallback && t.logCallbackSet && !(t.buffers b).isEmpty) := rfl
  rw [returned, callbackOrRelease, returnEvents]
  by_cases wanted : (!nocallback && t.logCallbackSet && !(t.buffers b).isEmpty) = true
  · have parts := wanted
    simp only [Bool.and_eq_true, Bool.not_eq_true', LogBuf.isEmpty, List.isEmpty_eq_false_iff] at parts
    obtain ⟨⟨calls, set⟩, data⟩ := parts
    rw [if_pos wanted, if_pos wanted]
    by_cases room : o.v8LogCallbacks.HasRoom
    · have room' : o₁.v8LogCallbacks.HasRoom := by rwa [callbacks]
      refine Or.inl ⟨⟨set, calls, data, room⟩, ?_, (o₁.addCallback (.buffer t.myId b)).1.refFromV8, ?_, ?_⟩
      · simp [room]
      · have items := (BoundedQueue.addIfRoom_room (.buffer t.myId b) room').2
        rw [callbacks] at items
        simp only [Owner.refFromV8, Owner.addCallback, callbacks, items]
      · simp [Owner.addCallback, BoundedQueue.addIfRoom_room _ room']
    · have full : ¬ o₁.v8LogCallbacks.HasRoom := by rwa [callbacks]
      refine Or.inr ⟨fun all => room all.2.2.2, ?_, o₁, callbacks, ?_⟩
      · simp [room]
      · simp [Owner.addCallback, BoundedQueue.addIfRoom_full _ full]
  · rw [if_neg wanted, if_neg wanted]
    refine Or.inr ⟨?_, rfl, o₁, callbacks, rfl⟩
    rintro ⟨set, calls, data, -⟩
    apply wanted
    simp [set, calls, LogBuf.isEmpty, data]

theorem returnBuffer_silent (kind : TargetKind) (t : LogTarget) (o : Owner) (b : BufId) (nocallback : Bool) :
    Silent kind t.buffers (t.returnBuffer o b nocallback).1.buffers
      (t.returnEvents o b false nocallback) := by
  rcases t.returnBuffer_events o b nocallback with ⟨_, events, o', _, done⟩ | ⟨_, events, o', _, done⟩
  · rw [events, done]
    exact silent_isEmpty b
  · rw [events, done]
    exact (silent_isEmpty b).append (silent_clear b)

theorem returnBuffer_frame (t : LogTarget) (o : Owner) (b : BufId) (nocallback : Bool) :
    let t' := (t.returnBuffer o b nocallback).1
    t'.kind = t.kind ∧ t'.myId = t.myId ∧ t'.logCallbackSet = t.logCallbackSet ∧
      ∀ c, c ≠ b → t'.buffers c = t.buffers c := by
  rcases t.returnBuffer_events o b nocallback with ⟨_, _, o', _, done⟩ | ⟨_, _, o', _, done⟩
  · rw [done]
    exact ⟨rfl, rfl, rfl, fun _ _ => rfl⟩
  · rw [done]
    exact ⟨rfl, rfl, rfl, fun c other => setBuffer_other _ other⟩

theorem writeCbs_handed (asynchronous : t.kind ≠ .callback) (wf : t.BankWf o []) {n : Nat}
    (all : t.inflight.length = n) :
    handed t.kind t.buffers (writeCbsEvents n t o) =
        bytesIn t.buffers (t.inflight.filterMap WriteReq.buf?) ∧
      HeldLocks.Balanced (writeCbsEvents n t o) := by
  induction n generalizing t o with
  | zero =>
    rw [List.eq_nil_of_length_eq_zero all]
    exact ⟨rfl, HeldLocks.balanced_nil⟩
  | succ n ih =>
    cases inflight : t.inflight with
    | nil =>
      rw [inflight] at all
      cases all
    | cons req rest =>
      have left : rest.length = n := by
        rw [inflight] at all
        exact Nat.succ.inj all
      cases req with
      | buffer b nocallback =>
        let t₁ : LogTarget := { t with inflight := rest }
        have taken : t₁.BankWf o (b :: []) := takeInflight_wf wf (.of_eq inflight)
        have ended : t.writeCb o = t₁.returnBuffer o b nocallback := by simp only [writeCb, inflight, t₁]
        have events : t.writeCbEvents o = .act (.write b) :: t₁.returnEvents o b false nocallback := by
          simp only [writeCbEvents, inflight, t₁]
        have silent := returnBuffer_silent t.kind t₁ o b nocallback
        obtain ⟨kind, _, _, frame⟩ := returnBuffer_frame t₁ o b nocallback
        have still := returnBuffer_inflight t₁ o b nocallback
        have wf' := returnBuffer_wf taken nocallback
        have apart := (held_elsewhere taken).1
        obtain ⟨others, locks⟩ := ih (by rw [kind]; exact asynchronous) wf' (by rw [still]; exact left)
        rw [still, kind] at others
        rw [writeCbsEvents, events, ended, handed_append]
        have first : handed t.kind t.buffers (.act (.write b) :: t₁.returnEvents o b false nocallback) =
            (t.buffers b).data ++ handed t.kind t.buffers (t₁.returnEvents o b false nocallback) := by
          have output : BufAct.output t.kind t.buffers (.write b) = (t.buffers b).data :=
            if_neg asynchronous
          rw [← output]
          rfl
        have then' : replay t.buffers (.act (.write b) :: t₁.returnEvents o b false nocallback) =
            (t₁.returnBuffer o b nocallback).1.buffers := silent.replay
        refine ⟨?_, (HeldLocks.balanced_act _ silent.locks).append locks⟩
        rw [first, silent.handed, then', others, List.append_nil]
        refine congrArg ((t.buffers b).data ++ ·) (bytesIn_congr fun c mem => frame c ?_)
        rintro rfl
        exact apart mem
      | overflow entry nocallback =>
        have ended : (t.writeCb o).1 = { t with inflight := rest } := by simp only [writeCb, inflight]
        have events : t.writeCbEvents o = [] := by simp only [writeCbEvents, inflight]
        obtain ⟨others, locks⟩ := ih (t := (t.writeCb o).1) (o := (t.writeCb o).2)
          (by rw [ended]; exact asynchronous) (writeCb_wf wf) (by rw [ended]; exact left)
        rw [writeCbsEvents, events, List.nil_append]
        rw [ended] at others locks ⊢
        exact ⟨others, locks⟩

theorem callbacks_handed (synchronous : t.kind = .callback) (wf : t.BankWf o []) {n : Nat}
    (all : o.v8LogCallbacks.items.length = n) :
    handed t.kind t.buffers (callbacksEvents n t o) = bytesIn t.buffers (o.pending t.myId) ∧
      HeldLocks.Balanced (callbacksEvents n t o) := by
  induction n generalizing t o with
  | zero =>
    rw [Owner.pending, List.eq_nil_of_length_eq_zero all]
    exact ⟨rfl, HeldLocks.balanced_nil⟩
  | succ n ih =>
    cases pending : o.v8LogCallbacks.items with
    | nil =>
      rw [pending] at all
      cases all
    | cons d rest =>
      obtain ⟨queue, removed, items⟩ := BoundedQueue.remove_cons pending
      have left : queue.items.length = n := by
        rw [pending] at all
        rw [items]
        exact Nat.succ.inj all
      let o₁ : Owner := { o with v8LogCallbacks := queue, needV8 := o.needV8 - 1 }
      have next := Owner.pending_next o₁ t.myId (BoundedQueue.remove_some removed)
      rcases t.callV8LogCallback_cases o with ⟨empty, _⟩ | ⟨d', queue', removed', called⟩
      · rw [pending] at empty
        cases empty
      obtain ⟨rfl, rfl⟩ := Prod.mk.inj (Option.some.inj (removed.symm.trans removed'))
      rcases called with ⟨b, rfl, called⟩ | ⟨other, called⟩
      · have events : t.callbackEvents o = .act (.callback b) :: clearEvents b := by
          simp [callbackEvents, pending]
        have waiting : o.pending t.myId = b :: o₁.pending t.myId := by
          rw [next, bufOf_own]
          rfl
        have wf' := callV8LogCallback_wf wf
        obtain ⟨others, locks⟩ := ih (t := (t.callV8LogCallback o).1) (o := (t.callV8LogCallback o).2)
          (by rw [called]; exact synchronous) wf' (by rw [called]; exact left)
        have apart : b ∉ o₁.pending t.myId := by
          have once := List.nodup_iff_count_le_one.mp wf.nodup b
          simp only [locations, waiting, List.count_cons, List.count_append, beq_self_eq_true,
            if_true] at once
          rw [← List.count_eq_zero]
          omega
        rw [callbacksEvents, events, handed_append, waiting]
        have first : handed t.kind t.buffers (.act (.callback b) :: clearEvents b) =
            (t.buffers b).data := by
          have output : BufAct.output t.kind t.buffers (.callback b) = (t.buffers b).data :=
            if_pos synchronous
          rw [← output]
          exact List.append_nil _
        rw [called] at others locks ⊢
        refine ⟨?_, (HeldLocks.balanced_act _ (HeldLocks.balanced_lock b _)).append locks⟩
        have cleared : replay t.buffers (.act (.callback b) :: clearEvents b) =
            (t.finalizeV8Callback b).buffers := rfl
        rw [first, cleared]
        refine congrArg ((t.buffers b).data ++ ·) (Eq.trans others (bytesIn_congr fun c mem => ?_))
        refine setBuffer_other _ ?_
        rintro rfl
        exact apart mem
      · have events : t.callbackEvents o = [] := by
          cases d with
          | buffer id b =>
            have apart : id ≠ t.myId := by simpa [WriteCBData.bufOf] using other
            simp [callbackEvents, pending, apart]
          | overflow id entry => simp [callbackEvents, pending]
        have waiting : o.pending t.myId = o₁.pending t.myId := by
          rw [next, other]
          rfl
        have wf' := callV8LogCallback_wf wf
        rw [called] at wf'
        rw [callbacksEvents, events, List.nil_append, called, waiting]
        exact ih synchronous wf' left

theorem flushOut_silent (kind : TargetKind) (asynchronous : t.kind ≠ .callback) (o : Owner) (nocallbacks : Bool)
    (out : List BufId) :
    Silent kind t.buffers t.buffers (t.flushOutEvents o nocallbacks out) := by
  induction out generalizing t o with
  | nil => exact silent_nil
  | cons b rest ih =>
    have submits : t.flushEvents o b nocallbacks = [.lock b, .act (.submit b), .unlock b] := by
      unfold flushEvents
      split
      · rfl
      · rfl
      · contradiction
    rcases flush_cases t o b nocallbacks with ⟨_, h⟩ | ⟨synchronous, _⟩
    · rw [flushOutEvents, submits, h]
      exact (silent_submit b).append (ih (t := { t with
        inflight := t.inflight ++ [.buffer b nocallbacks] }) asynchronous o)
    · exact absurd synchronous asynchronous

theorem filledOf_congr {mem' : BufMem} {bs : List BufId} (same : ∀ b ∈ bs, mem' b = mem b) :
    filledOf mem' bs = filledOf mem bs :=
  List.filter_congr fun b in_bs => by rw [same b in_bs]

theorem filledOf_cons (mem : BufMem) (b : BufId) (bs : List BufId) :
    (((mem b).data = [] ∧ filledOf mem (b :: bs) = filledOf mem bs) ∨
      ((mem b).data ≠ [] ∧ filledOf mem (b :: bs) = b :: filledOf mem bs)) := by
  by_cases data : (mem b).data = []
  · exact Or.inl ⟨data, by simp [filledOf, LogBuf.isEmpty, data]⟩
  · exact Or.inr ⟨data, by simp [filledOf, LogBuf.isEmpty, data]⟩

theorem bytesIn_length_le {kept bs : List BufId} (sub : kept.Sublist bs) (mem : BufMem) :
    (bytesIn mem kept).length ≤ (bytesIn mem bs).length := (sub.flatMap _).length_le

theorem kept_accepted {b : BufId} {kept rest : List BufId} {n : Nat} {set calls : Prop}
    (data : (mem b).data ≠ []) (isSet : set) (isCalled : calls) (room : n < V8_LOG_CALLBACK_QUEUE_SIZE)
    (bytes : bytesIn mem kept = bytesIn mem rest ↔ filledOf mem rest = [] ∨
      set ∧ calls ∧ n + 1 + (filledOf mem rest).length ≤ V8_LOG_CALLBACK_QUEUE_SIZE) :
    bytesIn mem (b :: kept) = bytesIn mem (b :: rest) ↔ filledOf mem (b :: rest) = [] ∨
      set ∧ calls ∧ n + (filledOf mem (b :: rest)).length ≤ V8_LOG_CALLBACK_QUEUE_SIZE := by
  rcases filledOf_cons mem b rest with ⟨none, _⟩ | ⟨_, cons⟩
  · exact absurd none data
  · have cancel : bytesIn mem (b :: kept) = bytesIn mem (b :: rest) ↔
        bytesIn mem kept = bytesIn mem rest := List.append_cancel_left_eq _ _ _ |>.to_iff
    rw [cancel, bytes, cons, List.length_cons]
    constructor
    · rintro (none | ⟨_, _, fits⟩)
      · rw [none, List.length_nil]
        exact Or.inr ⟨isSet, isCalled, by omega⟩
      · exact Or.inr ⟨isSet, isCalled, by omega⟩
    · rintro (none | ⟨_, _, fits⟩)
      · cases none
      · exact Or.inr ⟨isSet, isCalled, by omega⟩

theorem kept_refused {b : BufId} {kept rest : List BufId} {n : Nat} {set calls : Prop}
    (sub : kept.Sublist rest)
    (refused : ¬ (set ∧ calls ∧ (mem b).data ≠ [] ∧ n < V8_LOG_CALLBACK_QUEUE_SIZE))
    (bytes : bytesIn mem kept = bytesIn mem rest ↔ filledOf mem rest = [] ∨
      set ∧ calls ∧ n + (filledOf mem rest).length ≤ V8_LOG_CALLBACK_QUEUE_SIZE) :
    bytesIn mem kept = bytesIn mem (b :: rest) ↔ filledOf mem (b :: rest) = [] ∨
      set ∧ calls ∧ n + (filledOf mem (b :: rest)).length ≤ V8_LOG_CALLBACK_QUEUE_SIZE := by
  rcases filledOf_cons mem b rest with ⟨none, skip⟩ | ⟨data, cons⟩
  · have skipped : bytesIn mem (b :: rest) = bytesIn mem rest := by
      rw [bytesIn, List.flatMap_cons, none]
      rfl
    rw [skipped, skip]
    exact bytes
  · have shorter : (bytesIn mem kept).length < (bytesIn mem (b :: rest)).length := by
      have le := bytesIn_length_le sub mem
      have some := List.length_pos_of_ne_nil data
      simp only [bytesIn, List.flatMap_cons, List.length_append] at le ⊢
      omega
    refine iff_of_false (fun equal => absurd (congrArg List.length equal) (by omega)) ?_
    rw [cons, List.length_cons]
    rintro (none | ⟨isSet, isCalled, fits⟩)
    · cases none
    · exact refused ⟨isSet, isCalled, data, by omega⟩

/-- The loop of flushAll for a callbackTarget: what is refused is lost. -/
theorem flushOut_callbacks (kind : TargetKind) (synchronous : t.kind = .callback) {out : List BufId}
    (wf : t.BankWf o (out ++ held)) (nocallbacks : Bool) :
    let done := t.flushOut o nocallbacks out
    Silent kind t.buffers done.1.buffers (t.flushOutEvents o nocallbacks out) ∧
      done.1.kind = t.kind ∧ done.1.myId = t.myId ∧
      (∀ b, b ∉ out → done.1.buffers b = t.buffers b) ∧
      ∃ kept, done.2.pending t.myId = o.pending t.myId ++ kept ∧ kept.Sublist out ∧
        (∀ b ∈ kept, done.1.buffers b = t.buffers b) ∧
        (bytesIn t.buffers kept = bytesIn t.buffers out ↔
          filledOf t.buffers out = [] ∨ t.logCallbackSet = true ∧ nocallbacks = false ∧
            o.v8LogCallbacks.items.length + (filledOf t.buffers out).length ≤
              V8_LOG_CALLBACK_QUEUE_SIZE) := by
  induction out generalizing t o with
  | nil =>
    intro done
    exact ⟨silent_nil, rfl, rfl, fun _ _ => rfl, [], (List.append_nil _).symm, List.Sublist.refl _,
      fun _ _ => rfl, iff_of_true rfl (Or.inl rfl)⟩
  | cons b rest ih =>
    have flushed : t.flush o b nocallbacks = t.returnBuffer o b nocallbacks := by
      simp only [flush, synchronous]
    have events : t.flushEvents o b nocallbacks = t.returnEvents o b false nocallbacks := by
      simp only [flushEvents, synchronous]
    have apart : b ∉ rest := by
      have once := List.nodup_iff_count_le_one.mp wf.nodup b
      simp only [locations, List.cons_append, List.count_cons, List.count_append,
        beq_self_eq_true, if_true] at once
      rw [← List.count_eq_zero]
      omega
    have frame := returnBuffer_frame t o b nocallbacks
    have silent := returnBuffer_silent kind t o b nocallbacks
    have wf' := returnBuffer_wf wf nocallbacks
    rw [flushOutEvents, flushOut, events, flushed]
    rcases t.returnBuffer_events o b nocallbacks with
      ⟨⟨set, calls, data, room⟩, _, o', items, done⟩ | ⟨refused, _, o', same, done⟩
    · rw [done] at frame silent wf' ⊢
      obtain ⟨others, kind', id', outside, kept, pending, sub, still, bytes⟩ := ih synchronous wf'
      have pended : o'.pending t.myId = o.pending t.myId ++ [b] := by
        simp [Owner.pending, items, List.filterMap_append, WriteCBData.bufOf]
      refine ⟨silent.append others, kind', id', ?_, b :: kept, ?_, sub.cons_cons b, ?_, ?_⟩
      · intro c out
        exact outside c fun mem => out (List.mem_cons_of_mem _ mem)
      · rw [pending, pended, List.append_assoc]
        rfl
      · intro c mem
        rcases List.mem_cons.mp mem with rfl | mem
        · exact outside c apart
        · exact still c mem
      · rw [items, List.length_append, List.length_singleton] at bytes
        exact kept_accepted data set calls room bytes
    · rw [done] at frame silent wf' ⊢
      obtain ⟨others, kind', id', outside, kept, pending, sub, still, bytes⟩ :=
        ih (t := (t.clearBuffer b).addAvail b) (o := o') synchronous wf'
      have away : ∀ c ∈ rest, ((t.clearBuffer b).addAvail b).buffers c = t.buffers c := by
        intro c mem
        refine frame.2.2.2 c ?_
        rintro rfl
        exact apart mem
      have pended : o'.pending t.myId = o.pending t.myId := by simp only [Owner.pending, same]
      refine ⟨silent.append others, kind', id', ?_, kept, ?_, sub.cons b, ?_, ?_⟩
      · intro c out
        rw [List.mem_cons, not_or] at out
        exact (outside c out.2).trans (frame.2.2.2 c out.1)
      · rw [← pended]
        exact pending
      · intro c mem
        exact (still c mem).trans (away c (sub.subset mem))
      · rw [bytesIn_congr away, bytesIn_congr fun c mem => away c (sub.subset mem),
          filledOf_congr away, same] at bytes
        exact kept_refused sub refused bytes

theorem rotate_flush_cases (kind : TargetKind) (wf : t.BankWf o []) :
    (t.RotateFits ∧ Silent kind t.buffers t.buffers t.rotateEvents ∧ t.rotate.1.buffers = t.buffers ∧
      bytesIn t.buffers t.rotate.1.writeOutBuffers.items = bytesIn t.buffers t.waiting ∧
      filledOf t.buffers t.rotate.1.writeOutBuffers.items = filledOf t.buffers t.waiting) ∨
    (¬ t.RotateFits ∧
      Silent kind t.buffers (t.clearBuffer t.currentBuffer).buffers t.rotateEvents ∧
      t.rotate.1 = t.clearBuffer t.currentBuffer) := by
  rcases rotate_wf_cases wf with ⟨none, h⟩ | ⟨data, full, h⟩ | ⟨_, next, avail, writeOut, first, out, h⟩
  · have empty : (t.buffers t.currentBuffer).data = [] := none
    refine Or.inl ⟨Or.inl none, ?_, by rw [h], ?_, ?_⟩
    · rw [rotateEvents, h]
      exact silent_nil
    · rw [h, waiting, bytesIn_append]
      simp [bytesIn, empty]
    · rw [h, waiting]
      simp [filledOf, LogBuf.isEmpty, empty]
  · refine Or.inr ⟨?_, ?_, by rw [h]⟩
    · rintro (none | free)
      · exact data none
      · exact free full
    · rw [rotateEvents, h]
      exact silent_clear _
  · refine Or.inl ⟨Or.inr (by simp [first]), ?_, by rw [h], ?_, ?_⟩
    · rw [rotateEvents, h]
      exact silent_nil
    · rw [h, waiting, out]
    · rw [h, waiting, out]

theorem rotate_silent (wf : t.BankWf o []) :
    Silent kind t.buffers t.rotate.1.buffers t.rotateEvents := by
  rcases rotate_flush_cases kind wf with ⟨_, silent, same, _⟩ | ⟨_, silent, cleared⟩
  · rw [same]
    exact silent
  · rw [cleared]
    exact silent

theorem flushOut_replay {out : List BufId} (wf : t.BankWf o (out ++ held)) (nocallbacks : Bool) :
    replay t.buffers (t.flushOutEvents o nocallbacks out) =
      (t.flushOut o nocallbacks out).1.buffers := by
  by_cases synchronous : t.kind = .callback
  · exact (flushOut_callbacks t.kind synchronous wf nocallbacks).1.replay
  · rw [flushOut_submits synchronous]
    exact (flushOut_silent t.kind synchronous o nocallbacks out).replay

theorem rotate_same (wf : t.BankWf o []) {b : BufId}
    (moving : b ∈ t.ahead o ∨ b ∈ t.rotate.1.writeOutBuffers.items) :
    t.rotate.1.buffers b = t.buffers b := by
  rcases rotate_flush_cases t.kind wf with ⟨_, _, same, _⟩ | ⟨_, _, cleared⟩
  · rw [same]
  · rw [cleared] at moving ⊢
    refine setBuffer_other _ (wf.current_apart ?_)
    rcases moving with ahead | waits
    · unfold LogTarget.ahead at ahead
      split at ahead <;> simp only [List.mem_append] <;> tauto
    · have waits' : b ∈ t.writeOutBuffers.items := waits
      simp only [List.mem_append]
      tauto

theorem completionEvents_written (asynchronous : t.kind ≠ .callback) (o : Owner) :
    t.completionEvents o = writeCbsEvents t.inflight.length t o := by
  unfold completionEvents
  split
  · rfl
  · rfl
  · contradiction

/-- What the loop of flushAll hands out: what was ahead, and of what it flushes all
    that it writes, or that finds room for its callback. -/
theorem flushOut_handed {out : List BufId} (wf : t.BankWf o out) (nocallbacks : Bool) :
    let done := t.flushOut o nocallbacks out
    let events := t.flushOutEvents o nocallbacks out ++ done.1.completionEvents done.2
    HeldLocks.Balanced events ∧ ∃ kept, kept.Sublist out ∧
      handed t.kind t.buffers events = bytesIn t.buffers (t.ahead o ++ kept) ∧
      (bytesIn t.buffers kept = bytesIn t.buffers out ↔
        t.kind = .callback → t.CallbacksFit o nocallbacks out) := by
  intro done events
  have wf' : t.BankWf o (out ++ []) := by rwa [List.append_nil]
  have doneWf : done.1.BankWf done.2 [] :=
    flushOut_wf wf' nocallbacks
  by_cases synchronous : t.kind = .callback
  · have flushed := flushOut_callbacks t.kind synchronous wf' nocallbacks
    obtain ⟨silent, kind, id, outside, kept, pending, sub, still, bytes⟩ := flushed
    have completes : done.1.completionEvents done.2 =
        callbacksEvents done.2.v8LogCallbacks.items.length done.1 done.2 := by
      rw [completionEvents, show done.1.kind = .callback from kind.trans synchronous]
    obtain ⟨called, locks⟩ := callbacks_handed (kind.trans synchronous) doneWf rfl
    have ahead : t.ahead o = o.pending t.myId := by rw [LogTarget.ahead, synchronous]
    have same : bytesIn done.1.buffers (o.pending t.myId ++ kept) =
        bytesIn t.buffers (o.pending t.myId ++ kept) := by
      refine bytesIn_congr fun b mem => ?_
      rcases List.mem_append.mp mem with mem | mem
      · refine outside b fun out' => ?_
        have once := List.nodup_iff_count_le_one.mp wf.nodup b
        have here := List.count_pos_iff.mpr mem
        have there := List.count_pos_iff.mpr out'
        simp only [locations, List.count_cons, List.count_append] at once
        omega
      · exact still b mem
    simp only [events, completes]
    refine ⟨silent.locks.append locks, kept, sub, ?_, ?_⟩
    · rw [handed_append, silent.handed, silent.replay, List.nil_append, ← kind]
      rw [called, id, pending, ahead, same]
    · rw [bytes]
      exact ⟨fun fits _ => fits, fun fits => fits synchronous⟩
  · obtain ⟨t', submits, kind, buffers, inflight⟩ : ∃ t' : LogTarget,
        t.flushOut o nocallbacks out = (t', o) ∧ t'.kind = t.kind ∧ t'.buffers = t.buffers ∧
          t'.inflight = t.inflight ++ out.map (.buffer · nocallbacks) :=
      ⟨_, flushOut_submits synchronous o nocallbacks out, rfl, rfl, rfl⟩
    have asynchronous : t'.kind ≠ .callback := by rwa [kind]
    have silent := flushOut_silent t.kind synchronous o nocallbacks out
    have ahead : t.ahead o = t.inflight.filterMap WriteReq.buf? := by
      unfold LogTarget.ahead
      split
      · rfl
      · rfl
      · contradiction
    simp only [done, submits] at doneWf
    obtain ⟨written, locks⟩ := writeCbs_handed asynchronous doneWf rfl
    have submitted : t'.inflight.filterMap WriteReq.buf? = t.ahead o ++ out := by
      rw [inflight, ahead, List.filterMap_append, List.filterMap_map]
      exact congrArg (_ ++ ·) (List.filterMap_some)
    simp only [events, done, submits, completionEvents_written asynchronous]
    refine ⟨silent.locks.append locks, out, List.Sublist.refl _, ?_, ?_⟩
    · rw [handed_append, silent.handed, silent.replay, List.nil_append, ← kind, ← buffers, written,
        submitted]
    · exact iff_of_true rfl fun is => absurd is synchronous

theorem flushAll_handed (wf : t.BankWf o []) (nocallbacks : Bool) :
    let r := t.rotate.1
    let flushed := t.flushAll o true nocallbacks
    let events := t.flushAllEvents o nocallbacks ++ flushed.1.completionEvents flushed.2.1
    HeldLocks.Balanced events ∧ ∃ kept, kept.Sublist r.writeOutBuffers.items ∧
      handed t.kind t.buffers events = bytesIn t.buffers (t.ahead o) ++ bytesIn t.buffers kept ∧
      (bytesIn t.buffers kept = bytesIn t.buffers r.writeOutBuffers.items ↔
        t.kind = .callback → r.CallbacksFit o nocallbacks r.writeOutBuffers.items) := by
  intro r flushed events
  let ready : LogTarget := { r with writeOutBuffers := .empty }
  have kind : ready.kind = t.kind := (onlyClears_rotate t).config.kind
  have id : r.myId = t.myId := (onlyClears_rotate t).config.myId
  have turned : Silent t.kind t.buffers ready.buffers t.rotateEvents := rotate_silent wf
  have ahead : ready.ahead o = t.ahead o := by
    simp only [LogTarget.ahead, kind, show ready.inflight = t.inflight from t.rotate_frame.1,
      show ready.myId = t.myId from id]
  have readyWf : ready.BankWf o r.writeOutBuffers.items := by
    have taken := takeWriteOut_wf (rotate_wf wf)
    rwa [List.append_nil] at taken
  obtain ⟨locks, kept, sub, sent, fits⟩ := flushOut_handed readyWf nocallbacks
  have same : ∀ b ∈ t.ahead o ++ r.writeOutBuffers.items, ready.buffers b = t.buffers b := by
    intro b mem
    exact rotate_same wf (List.mem_append.mp mem)
  have trace : events = t.rotateEvents ++ (ready.flushOutEvents o nocallbacks r.writeOutBuffers.items ++
      flushed.1.completionEvents flushed.2.1) := List.append_assoc _ _ _
  rw [trace]
  refine ⟨turned.locks.append locks, kept, sub, ?_, ?_⟩
  · rw [handed_append, turned.handed, turned.replay, List.nil_append, ← kind, ← bytesIn_append]
    refine Eq.trans sent ?_
    rw [ahead]
    refine bytesIn_congr fun b mem => same b ?_
    rw [List.mem_append] at mem ⊢
    exact mem.imp_right (sub.subset ·)
  · rw [kind, bytesIn_congr fun b mem => same b (List.mem_append_right _ (sub.subset mem)),
      bytesIn_congr fun b mem => same b (List.mem_append_right _ mem)] at fits
    exact fits

theorem cleared_bytes {kept out : List BufId} (sub : kept.Sublist out) (data : (mem c).data ≠ [])
    (sent : List Byte) : sent ++ bytesIn mem kept ≠ sent ++ bytesIn mem (out ++ [c]) := by
  intro equal
  have fewer := bytesIn_length_le sub mem
  have some := List.length_pos_of_ne_nil data
  have lengths := congrArg List.length (List.append_cancel_left equal)
  simp only [bytesIn, List.flatMap_append, List.flatMap_cons, List.flatMap_nil, List.append_nil,
    List.length_append] at lengths fewer
  omega

theorem bytesIn_nil_iff (mem : BufMem) (bs : List BufId) :
    bytesIn mem bs = [] ↔ filledOf mem bs = [] := by
  simp only [bytesIn, filledOf, List.flatMap_eq_nil_iff, List.filter_eq_nil_iff, LogBuf.isEmpty,
    Bool.not_eq_true', Bool.not_eq_false, List.isEmpty_iff]

theorem returnEvents_sync (kind : TargetKind) (t : LogTarget) (o : Owner) (b : BufId) (nocallback : Bool) :
    let events := t.returnEvents o b true nocallback
    HeldLocks.Balanced events ∧ replay t.buffers events = (t.clearBuffer b).buffers ∧
      handed kind t.buffers events =
        if kind = .callback ∧ t.logCallbackSet = true ∧ nocallback = false then (t.buffers b).data
        else [] := by
  intro events
  by_cases wanted : (!nocallback && t.logCallbackSet && !(t.buffers b).isEmpty) = true
  · have trace : events = isEmptyEvents b ++ (.act (.callback b) :: clearEvents b) := by
      simp only [events, returnEvents, if_pos wanted, if_true]
    have parts := wanted
    simp only [Bool.and_eq_true, Bool.not_eq_true'] at parts
    obtain ⟨⟨calls, set⟩, _⟩ := parts
    have output : handed kind t.buffers events =
        BufAct.output kind t.buffers (.callback b) := by
      rw [trace]
      exact List.append_nil _
    rw [output, trace]
    refine ⟨(HeldLocks.balanced_touch b).append
      (HeldLocks.balanced_act _ (HeldLocks.balanced_lock b _)), rfl, ?_⟩
    simp only [BufAct.output, set, calls, and_true]
  · have trace : events = isEmptyEvents b ++ clearEvents b := by
      simp only [events, returnEvents, if_neg wanted]
    have silent : Silent kind t.buffers _ (isEmptyEvents b ++ _) :=
      (silent_isEmpty b).append (silent_clear b)
    rw [trace, silent.handed]
    refine ⟨silent.locks, silent.replay, ?_⟩
    split
    · next called =>
      have empty : (t.buffers b).data = [] := by
        by_contra data
        exact wanted (by simp [called, LogBuf.isEmpty, data])
      rw [empty]
    · rfl

theorem flushSync_replay (t : LogTarget) (o : Owner) (b : BufId) (nocallbacks : Bool) :
    replay t.buffers (t.flushSyncEvents o b nocallbacks) = (t.flushSync o b).1.buffers := by
  obtain ⟨_, cleared, _⟩ := returnEvents_sync t.kind t o b nocallbacks
  have locked : ∀ (mem : BufMem) (e : BufEvent) (rest : List BufEvent),
      replay mem (e :: rest) = replay (replay mem [e]) rest :=
    fun mem e rest => replay_append mem [e] rest
  cases kind : t.kind with
  | tty =>
    simp only [flushSyncEvents, kind]
    rw [locked, replay_append]
    exact congrArg (replay · [.act (.write b), .unlock b]) cleared
  | file =>
    simp only [flushSyncEvents, kind]
    rw [replay_append]
    exact cleared
  | callback =>
    simp only [flushSyncEvents, kind]
    exact cleared

theorem flushOutSync_replay (t : LogTarget) (o : Owner) (nocallbacks : Bool) (out : List BufId) :
    replay t.buffers (t.flushOutSyncEvents o nocallbacks out) = (t.flushOutSync o out).1.buffers := by
  induction out generalizing t o with
  | nil => rfl
  | cons b rest ih =>
    rw [flushOutSyncEvents, replay_append, flushSync_replay]
    exact ih _ _

theorem flushSync_events (untangled : t.kind ≠ .tty) (o : Owner) (b : BufId) (nocallbacks : Bool) :
    let events := t.flushSyncEvents o b nocallbacks
    HeldLocks.Balanced events ∧ handed t.kind t.buffers events =
        if t.kind = .file ∨ t.logCallbackSet = true ∧ nocallbacks = false then (t.buffers b).data
        else [] := by
  intro events
  obtain ⟨locks, _, called⟩ := returnEvents_sync t.kind t o b nocallbacks
  cases kind : t.kind with
  | tty => exact absurd kind untangled
  | file =>
    have trace : events = [.lock b, .act (.write b), .unlock b] ++ t.returnEvents o b true nocallbacks := by
      simp only [events, flushSyncEvents, kind]
    rw [trace, handed_append]
    refine ⟨(HeldLocks.balanced_lock b _).append locks, ?_⟩
    rw [kind] at called
    have written : handed .file t.buffers [.lock b, .act (.write b), .unlock b] = (t.buffers b).data :=
      List.append_nil _
    have same : replay t.buffers [.lock b, .act (.write b), .unlock b] = t.buffers := rfl
    rw [written, same, called]
    simp
  | callback =>
    have trace : events = t.returnEvents o b true nocallbacks := by
      simp only [events, flushSyncEvents, kind]
    rw [kind] at called
    rw [trace, called]
    exact ⟨locks, by simp⟩

theorem flushOutSync_events (untangled : t.kind ≠ .tty) (o : Owner) (nocallbacks : Bool)
    {out : List BufId} (apart : out.Nodup) :
    let events := t.flushOutSyncEvents o nocallbacks out
    HeldLocks.Balanced events ∧ handed t.kind t.buffers events =
      if t.kind = .file ∨ t.logCallbackSet = true ∧ nocallbacks = false then bytesIn t.buffers out
      else [] := by
  induction out generalizing t o with
  | nil =>
    intro events
    exact ⟨HeldLocks.balanced_nil, (ite_self _).symm⟩
  | cons b rest ih =>
    intro events
    obtain ⟨notIn, apart'⟩ := List.nodup_cons.mp apart
    obtain ⟨locks, first⟩ := flushSync_events untangled o b nocallbacks
    obtain ⟨locks', others⟩ := ih (t := (t.flushSync o b).1) untangled (t.flushSync o b).2.1 apart'
    have trace : events = t.flushSyncEvents o b nocallbacks ++
        (t.flushSync o b).1.flushOutSyncEvents (t.flushSync o b).2.1 nocallbacks rest := rfl
    have same : bytesIn (t.flushSync o b).1.buffers rest = bytesIn t.buffers rest := by
      refine bytesIn_congr fun c mem => setBuffer_other _ ?_
      rintro rfl
      exact notIn mem
    rw [same] at others
    have rest' : handed t.kind (t.flushSync o b).1.buffers
        ((t.flushSync o b).1.flushOutSyncEvents (t.flushSync o b).2.1 nocallbacks rest) =
        if t.kind = .file ∨ t.logCallbackSet = true ∧ nocallbacks = false then bytesIn t.buffers rest
        else [] := others
    rw [trace, handed_append, first, flushSync_replay, rest']
    refine ⟨locks.append locks', ?_⟩
    split
    · rfl
    · rfl

theorem flushOutSync_tty (tty : t.kind = .tty) (o : Owner) (nocallbacks : Bool) (b : BufId)
    (rest : List BufId) :
    HeldLocks.after [] (t.flushOutSyncEvents o nocallbacks (b :: rest)) = none := by
  simp only [flushOutSyncEvents, flushSyncEvents, tty, returnEvents, isEmptyEvents,
    List.cons_append, HeldLocks.after, List.not_mem_nil, if_false]
  exact if_pos (List.mem_singleton_self b)

end LogTarget

namespace BankState
variable {s start : BankState}

theorem flushKeeps_iff (wf : s.BankWf) (nocallbacks : Bool) :
    s.FlushKeeps nocallbacks ↔ s.FlushFits nocallbacks := by
  obtain ⟨locks, kept, sub, sent, fits⟩ := LogTarget.flushAll_handed wf nocallbacks
  have free : HeldLocks.after [] (s.t.flushAllEvents s.o nocallbacks ++
      (s.t.flushAll s.o true nocallbacks).1.completionEvents (s.t.flushAll s.o true nocallbacks).2.1) ≠
        none := by
    rw [locks]
    simp
  have keeps : s.FlushKeeps nocallbacks ↔ bytesIn s.t.buffers (s.t.ahead s.o) ++
      bytesIn s.t.buffers kept =
        bytesIn s.t.buffers (s.t.ahead s.o) ++ bytesIn s.t.buffers s.t.waiting := by
    rw [← sent, ← bytesIn_append]
    exact and_iff_left free
  rw [keeps]
  rcases LogTarget.rotate_flush_cases s.t.kind wf with
    ⟨room, _, same, bytes, filled⟩ | ⟨lost, _, cleared⟩
  · have set : s.t.rotate.1.logCallbackSet = s.t.logCallbackSet := s.t.rotate_frame.2
    rw [bytes, LogTarget.CallbacksFit, same, filled, set] at fits
    rw [List.append_cancel_left_eq, fits]
    exact ⟨fun all => ⟨room, all⟩, fun all => all.2⟩
  · have data : s.t.current.data ≠ [] := fun none => lost (Or.inl none)
    rw [cleared] at sub
    exact iff_of_false (LogTarget.cleared_bytes sub data _) fun all => lost all.1

/-- A ttyTarget gets through its flush only where there is nothing to put out. -/
theorem flushSyncKeeps_tty (wf : s.BankWf) (tty : s.t.kind = .tty) (nocallbacks : Bool) :
    s.FlushSyncKeeps nocallbacks ↔ s.t.writeOutBuffers.items = [] ∧ s.t.current.data = [] := by
  have turned : Silent s.t.kind s.t.buffers s.t.rotate.1.buffers s.t.rotateEvents :=
    LogTarget.rotate_silent wf
  have kind : s.t.rotate.1.kind = s.t.kind := (LogTarget.onlyClears_rotate s.t).config.kind
  constructor
  · rintro ⟨sent, unlocked⟩
    have none : s.t.rotate.1.writeOutBuffers.items = [] := by
      by_contra some
      obtain ⟨b, rest, cons⟩ := List.exists_cons_of_ne_nil some
      have tangled := LogTarget.flushOutSync_tty (t := { s.t.rotate.1 with writeOutBuffers := .empty })
        (kind.trans tty) s.o nocallbacks b rest
      rw [← cons] at tangled
      apply unlocked
      rw [LogTarget.flushAllSyncEvents, HeldLocks.after_append, turned.locks]
      exact tangled
    have nothing : bytesIn s.t.buffers s.t.waiting = [] := by
      rw [← sent, LogTarget.flushAllSyncEvents, handed_append, turned.handed, none]
      rfl
    rw [LogTarget.waiting, bytesIn_append, List.append_eq_nil_iff] at nothing
    have empty : s.t.current.data = [] := by
      have last := nothing.2
      rwa [bytesIn, List.flatMap_cons, List.flatMap_nil, List.append_nil] at last
    rcases LogTarget.rotate_wf_cases wf with ⟨_, h⟩ | ⟨data, _⟩ | ⟨data, _⟩
    · refine ⟨?_, empty⟩
      rw [← none]
      exact (congrArg (fun r => r.1.writeOutBuffers.items) h).symm
    · exact absurd empty data
    · exact absurd empty data
  · rintro ⟨none, empty⟩
    have idle : s.t.rotate = (s.t, .noData) := by simp [LogTarget.rotate, empty]
    have trace : s.t.flushAllSyncEvents s.o nocallbacks = [] := by
      rw [LogTarget.flushAllSyncEvents, LogTarget.rotateEvents, idle]
      simp only [none]
      rfl
    refine ⟨?_, by rw [trace]; simp [HeldLocks.after]⟩
    have empty' : (s.t.buffers s.t.currentBuffer).data = [] := empty
    rw [trace, LogTarget.waiting, none, List.nil_append, bytesIn, List.flatMap_cons, empty']
    rfl

/-- The other targets put out all that rotate() leaves to be flushed, or nothing. -/
theorem flushAllSync_handed (wf : s.BankWf) (untangled : s.t.kind ≠ .tty) (nocallbacks : Bool) :
    HeldLocks.Balanced (s.t.flushAllSyncEvents s.o nocallbacks) ∧
      handed s.t.kind s.t.buffers (s.t.flushAllSyncEvents s.o nocallbacks) =
        if s.t.kind = .file ∨ s.t.logCallbackSet = true ∧ nocallbacks = false then
          bytesIn s.t.buffers s.t.rotate.1.writeOutBuffers.items else [] := by
  let r := s.t.rotate.1
  let ready : LogTarget := { r with writeOutBuffers := .empty }
  let out := r.writeOutBuffers.items
  have kind : r.kind = s.t.kind := (LogTarget.onlyClears_rotate s.t).config.kind
  have set : r.logCallbackSet = s.t.logCallbackSet := s.t.rotate_frame.2
  have nodup : out.Nodup := by
    have all := (LogTarget.rotate_wf wf).nodup
    simp only [LogTarget.locations, List.append_assoc] at all
    exact (List.nodup_append.mp (List.nodup_append.mp (List.nodup_cons.mp all).2).2.1).1
  have turned : Silent s.t.kind s.t.buffers r.buffers s.t.rotateEvents := LogTarget.rotate_silent wf
  have same : bytesIn r.buffers out = bytesIn s.t.buffers out :=
    bytesIn_congr fun b mem => LogTarget.rotate_same wf (Or.inr mem)
  have untangled' : ready.kind ≠ .tty := fun tty => untangled (kind.symm.trans tty)
  obtain ⟨locks, sent⟩ := LogTarget.flushOutSync_events untangled' s.o nocallbacks nodup
  have sent' : handed s.t.kind r.buffers (ready.flushOutSyncEvents s.o nocallbacks out) =
      if r.kind = .file ∨ r.logCallbackSet = true ∧ nocallbacks = false then
        bytesIn r.buffers out else [] := by
    rw [← kind]
    exact sent
  rw [kind, set, same] at sent'
  refine ⟨turned.locks.append locks, ?_⟩
  rw [LogTarget.flushAllSyncEvents, handed_append, turned.handed, turned.replay, List.nil_append]
  exact sent'

theorem flushSyncKeeps_iff (wf : s.BankWf) (nocallbacks : Bool) :
    s.FlushSyncKeeps nocallbacks ↔ s.FlushSyncFits nocallbacks := by
  let out := s.t.rotate.1.writeOutBuffers.items
  by_cases tty : s.t.kind = .tty
  · have fits : s.FlushSyncFits nocallbacks ↔
        s.t.writeOutBuffers.items = [] ∧ s.t.current.data = [] := by rw [FlushSyncFits, tty]
    rw [fits]
    exact flushSyncKeeps_tty wf tty nocallbacks
  · obtain ⟨locks, sent⟩ := flushAllSync_handed wf tty nocallbacks
    have free : HeldLocks.after [] (s.t.flushAllSyncEvents s.o nocallbacks) ≠ none := by
      rw [locks]
      simp
    have keeps : s.FlushSyncKeeps nocallbacks ↔
        (if s.t.kind = .file ∨ s.t.logCallbackSet = true ∧ nocallbacks = false then
          bytesIn s.t.buffers out else []) = bytesIn s.t.buffers s.t.waiting := by
      rw [← sent]
      exact and_iff_left free
    have fits : s.FlushSyncFits nocallbacks ↔ s.t.RotateFits ∧
        (filledOf s.t.buffers s.t.waiting = [] ∨
          s.t.kind = .file ∨ s.t.logCallbackSet = true ∧ nocallbacks = false) := by
      unfold FlushSyncFits
      split <;> simp_all
    rw [keeps, fits]
    rcases LogTarget.rotate_flush_cases s.t.kind wf with
      ⟨room, _, _, bytes, _⟩ | ⟨lost, _, cleared⟩
    · rw [show bytesIn s.t.buffers out = bytesIn s.t.buffers s.t.waiting from bytes]
      split
      · next called => exact iff_of_true rfl ⟨room, Or.inr called⟩
      · next refused =>
        rw [eq_comm, LogTarget.bytesIn_nil_iff]
        exact ⟨fun none => ⟨room, Or.inl none⟩, fun all => all.2.resolve_right refused⟩
    · have data : s.t.current.data ≠ [] := fun none => lost (Or.inl none)
      have waits : out = s.t.writeOutBuffers.items := congrArg (·.writeOutBuffers.items) cleared
      refine iff_of_false (fun equal => ?_) fun all => lost all.1
      split at equal
      · exact LogTarget.cleared_bytes (waits ▸ List.Sublist.refl out) data [] equal
      · exact LogTarget.cleared_bytes (List.nil_sublist _) data [] equal

theorem flushEvents_replay (wf : s.BankWf) (nocallbacks : Bool) :
    replay s.t.buffers (s.t.flushAllEvents s.o nocallbacks) =
        (s.t.flushAll s.o true nocallbacks).1.buffers ∧
      replay s.t.buffers (s.t.flushAllSyncEvents s.o nocallbacks) =
        (s.t.flushAllSync s.o true).1.buffers := by
  have turned : Silent s.t.kind s.t.buffers s.t.rotate.1.buffers s.t.rotateEvents :=
    LogTarget.rotate_silent wf
  have readyWf := LogTarget.takeWriteOut_wf (LogTarget.rotate_wf wf)
  constructor
  · rw [LogTarget.flushAllEvents, replay_append, turned.replay]
    exact LogTarget.flushOut_replay readyWf nocallbacks
  · rw [LogTarget.flushAllSyncEvents, replay_append, turned.replay]
    exact LogTarget.flushOutSync_replay { s.t.rotate.1 with writeOutBuffers := .empty } s.o
      nocallbacks s.t.rotate.1.writeOutBuffers.items

/-- A flush keeps all data exactly where it finds a buffer to rotate to, and for a
    callbackTarget room for the callbacks; flushAllSync of a ttyTarget only where
    there is nothing to flush. -/
theorem flush_keeps_iff {actions : List BankAction} (new : start.Start)
    (run : Runs.Run Step start actions s) (nocallbacks : Bool) :
    (s.FlushKeeps nocallbacks ↔ s.FlushFits nocallbacks) ∧
      (s.FlushSyncKeeps nocallbacks ↔ s.FlushSyncFits nocallbacks) :=
  ⟨flushKeeps_iff (run_wf new run) nocallbacks, flushSyncKeeps_iff (run_wf new run) nocallbacks⟩

theorem flush_keeps_iff_line :
    let s := (newBank 200 [10]).apply (plainWrite [97])
    (s.FlushKeeps false ↔ s.FlushFits false) ∧ (s.FlushSyncKeeps false ↔ s.FlushSyncFits false) :=
  flush_keeps_iff (newBank_start 200 [10])
    (Runs.run_one (step_apply _ (plainWrite [97]) trivial)) false

def newTty (bufferSize : Nat) : BankState := ⟨LogTarget.new .tty bufferSize 1 [10], {}⟩

def fourWrites : List BankAction := List.replicate 4 (plainWrite (List.replicate 150 97))

/-- With every other buffer waiting, flushAll clears the last entry of a file; and
    flushAllSync of a ttyTarget with one line waits for itself. -/
theorem flush_loses_last_buffer :
    (∃ actions s, Runs.Run Step (newBank 300 [10]) actions s ∧ ¬ s.FlushKeeps false) ∧
    (∃ actions s, (newTty 200).Start ∧ Runs.Run Step (newTty 200) actions s ∧
      ¬ s.FlushSyncKeeps false) := by
  constructor
  · have checked : Runs.Checked Allowed apply (newBank 300 [10]) fourWrites :=
      ⟨trivial, trivial, trivial, trivial, trivial⟩
    have run : Runs.Run Step (newBank 300 [10]) fourWrites (fourWrites.foldl apply (newBank 300 [10])) :=
      Runs.run_checked (fun s a allowed => step_apply s a allowed) checked
    refine ⟨_, _, run, ?_⟩
    rw [flushKeeps_iff (run_wf (newBank_start 300 [10]) run)]
    rintro ⟨room, _⟩
    unfold LogTarget.RotateFits at room
    revert room
    decide +kernel
  · have new : (newTty 200).Start := ⟨⟨.tty, 200, 1, [10], {}, false, rfl⟩, rfl⟩
    have run : Runs.Run Step (newTty 200) [plainWrite [97]] ((newTty 200).apply (plainWrite [97])) :=
      Runs.run_one (step_apply _ (plainWrite [97]) trivial)
    refine ⟨_, _, new, run, ?_⟩
    rw [flushSyncKeeps_iff (run_wf new run)]
    rintro ⟨_, empty⟩
    revert empty
    decide +kernel

end BankState

end GreaseLog
