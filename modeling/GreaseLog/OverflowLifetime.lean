import GreaseLog.Lib.Runs
import GreaseLog.LogTarget

/- The life of one overflow message: who holds its singleLog, and who releases it.
   Other messages matter only through the room they leave in the queues, which is
   an input of the steps here. -/
namespace GreaseLog.OverflowLifetime

def NOT_REFED : Int := -2

/-- A singleLog: its count, how often it was deleted, and the calls made on it. -/
structure RefLog where
  refCnt : Int
  deletes : Nat
  incRefs : Nat
  decRefs : Nat
  deriving DecidableEq, Repr

namespace RefLog

def new : RefLog := { refCnt := NOT_REFED, deletes := 0, incRefs := 0, decRefs := 0 }

def incRef (l : RefLog) : RefLog :=
  { l with
    incRefs := l.incRefs + 1
    refCnt := if l.refCnt ≠ NOT_REFED then l.refCnt + 1 else l.refCnt }

def decRef (l : RefLog) : RefLog :=
  let l := { l with decRefs := l.decRefs + 1 }
  if l.refCnt ≠ NOT_REFED then
    let l := { l with refCnt := l.refCnt - 1 }
    if l.refCnt < 1 then { l with deletes := l.deletes + 1 } else l
  else l

end RefLog

structure Target where
  kind : TargetKind
  disabled : Bool
  logCallbackSet : Bool
  deriving DecidableEq

/-- The target destroys what writeOverflow() hands it, sooner or later. -/
def Target.Returns (t : Target) : Prop := t.disabled = false ∧ (t.kind = .callback → t.logCallbackSet = true)

inductive Origin where
  | log
  | write
  deriving DecidableEq, Repr

inductive Request where
  | queued
  | handled
  | dropped
  deriving DecidableEq, Repr

/-- The call of decRef() that the handler has still to make. -/
def Request.pending : Request → Nat
  | .queued => 1
  | _ => 0

/-- The reference that making the message stands for, unless the request is dropped. -/
def Request.made : Request → Nat
  | .dropped => 0
  | _ => 1

structure Lifetime where
  log : RefLog
  request : Request
  /-- The targets of those that uv_write() has not written yet. -/
  writing : List Target
  /-- The number of those in v8LogCallbacks. -/
  callbacks : Nat
  /-- The number of those that are left to nobody. -/
  abandoned : Nat
  /-- A delete came while the message was held or its request pending. -/
  early : Bool
  deriving DecidableEq

namespace Lifetime

/-- `room` says whether internalCmdQueue took the request. -/
def post (origin : Origin) (room : Bool) : Lifetime :=
  let s : Lifetime :=
    { log := .new, request := .queued, writing := [], callbacks := 0, abandoned := 0, early := false }
  if room then s
  else
    match origin with
    | .log => { s with request := .dropped }
    -- delete B
    | .write => { s with request := .dropped, log := { s.log with deletes := s.log.deletes + 1 } }

def held (s : Lifetime) : Nat := s.writing.length + s.callbacks + s.abandoned

/-- l->decRef(), when whoever calls it has let go of the message. -/
def decRef (s : Lifetime) : Lifetime :=
  let log := s.log.decRef
  { s with
    log := log
    early := s.early ||
      (decide (log.deletes ≠ s.log.deletes) && (decide (s.held ≠ 0) || s.request == .queued)) }

/-- returnBuffer() with an entry that is no longer held elsewhere; without `room`
    in v8LogCallbacks the entry goes with the writeCBData. -/
def returnBuffer (s : Lifetime) (t : Target) (room : Bool) : Lifetime :=
  if t.logCallbackSet then
    if room then { s with callbacks := s.callbacks + 1 } else s.decRef
  else s.decRef

def writeAsyncOverflow (s : Lifetime) (t : Target) (room : Bool) : Lifetime :=
  match t.kind with
  | .tty => { s with writing := s.writing ++ [t] }
  | .file => s.returnBuffer t room
  | .callback =>
    if t.logCallbackSet then
      if room then { s with callbacks := s.callbacks + 1 } else s.decRef
    else { s with abandoned := s.abandoned + 1 }

def writeOverflow (s : Lifetime) (t : Target) (room : Bool) : Lifetime :=
  if t.disabled then s else s.writeAsyncOverflow t room

inductive Action where
  /-- The handler emits the message to a target. -/
  | emit (t : Target) (room : Bool)
  /-- The handler is done with the message. -/
  | done
  /-- The callback of the i-th write under way; writes may end in any order. -/
  | writeCb (i : Nat) (room : Bool)
  /-- One turn of callV8LogCallbacks. -/
  | deliver
  deriving DecidableEq

def apply (s : Lifetime) : Action → Lifetime
  | .emit t room =>
    if s.request = .queued then ({ s with log := s.log.incRef }).writeOverflow t room else s
  | .done => if s.request = .queued then ({ s with request := .handled }).decRef else s
  | .writeCb i room =>
    match s.writing[i]? with
    | some t => ({ s with writing := s.writing.eraseIdx i }).returnBuffer t room
    | none => s
  | .deliver => if 0 < s.callbacks then ({ s with callbacks := s.callbacks - 1 }).decRef else s

def run (origin : Origin) (room : Bool) (actions : List Action) : Lifetime :=
  actions.foldl apply (post origin room)

/-- The request is handled or dropped, and every write and callback has ended. -/
def Finished (s : Lifetime) : Prop := s.request ≠ .queued ∧ s.writing = [] ∧ s.callbacks = 0

instance (s : Lifetime) : Decidable s.Finished :=
  inferInstanceAs (Decidable (s.request ≠ .queued ∧ s.writing = [] ∧ s.callbacks = 0))

/-- The last decRef() of the handler answers no incRef() but the making of the message. -/
structure Balanced (s : Lifetime) : Prop where
  released : s.log.deletes = 1
  late : s.early = false
  matched : s.log.decRefs = s.log.incRefs + s.request.made

variable {s : Lifetime}

structure Uncounted (deletes : Nat) (s : Lifetime) : Prop where
  refCnt : s.log.refCnt = NOT_REFED
  deletes : s.log.deletes = deletes
  late : s.early = false

theorem Uncounted.decRef {n : Nat} (uncounted : s.Uncounted n) : s.decRef.Uncounted n := by
  obtain ⟨refCnt, deletes, late⟩ := uncounted
  have log : s.log.decRef = { s.log with decRefs := s.log.decRefs + 1 } := by
    simp [RefLog.decRef, refCnt]
  constructor
  · simp only [Lifetime.decRef, log, refCnt]
  · simp only [Lifetime.decRef, log, deletes]
  · simp [Lifetime.decRef, log, late]

theorem Uncounted.incRef {n : Nat} (uncounted : s.Uncounted n) :
    ({ s with log := s.log.incRef }).Uncounted n := by
  obtain ⟨refCnt, deletes, late⟩ := uncounted
  exact ⟨by simp [RefLog.incRef, refCnt], deletes, late⟩

theorem Uncounted.returnBuffer {n : Nat} (uncounted : s.Uncounted n) (t : Target) (room : Bool) :
    (s.returnBuffer t room).Uncounted n := by
  unfold Lifetime.returnBuffer
  split
  · split
    · exact ⟨uncounted.refCnt, uncounted.deletes, uncounted.late⟩
    · exact uncounted.decRef
  · exact uncounted.decRef

theorem Uncounted.writeOverflow {n : Nat} (uncounted : s.Uncounted n) (t : Target) (room : Bool) :
    (s.writeOverflow t room).Uncounted n := by
  unfold Lifetime.writeOverflow writeAsyncOverflow
  split
  · exact uncounted
  · cases t.kind with
    | tty => exact ⟨uncounted.refCnt, uncounted.deletes, uncounted.late⟩
    | file => exact uncounted.returnBuffer t room
    | callback =>
      simp only
      split
      · split
        · exact ⟨uncounted.refCnt, uncounted.deletes, uncounted.late⟩
        · exact uncounted.decRef
      · exact ⟨uncounted.refCnt, uncounted.deletes, uncounted.late⟩

theorem Uncounted.apply {n : Nat} (uncounted : s.Uncounted n) (a : Action) :
    (s.apply a).Uncounted n := by
  cases a with
  | emit t room =>
    rw [Lifetime.apply]
    split
    · exact uncounted.incRef.writeOverflow t room
    · exact uncounted
  | done =>
    rw [Lifetime.apply]
    split
    · exact Uncounted.decRef ⟨uncounted.refCnt, uncounted.deletes, uncounted.late⟩
    · exact uncounted
  | writeCb i room =>
    rw [Lifetime.apply]
    split
    · have gone : ({ s with writing := s.writing.eraseIdx i }).Uncounted n :=
        ⟨uncounted.refCnt, uncounted.deletes, uncounted.late⟩
      exact gone.returnBuffer _ room
    · exact uncounted
  | deliver =>
    rw [Lifetime.apply]
    split
    · exact Uncounted.decRef ⟨uncounted.refCnt, uncounted.deletes, uncounted.late⟩
    · exact uncounted

theorem run_uncounted (origin : Origin) (room : Bool) (actions : List Action) :
    (run origin room actions).Uncounted (if origin = .write ∧ room = false then 1 else 0) := by
  have start : (post origin room).Uncounted (if origin = .write ∧ room = false then 1 else 0) := by
    cases origin <;> cases room <;> exact ⟨rfl, rfl, rfl⟩
  unfold run
  generalize post origin room = s at start
  induction actions generalizing s with
  | nil => exact start
  | cons a rest ih => exact ih (s.apply a) (start.apply a)

/-- A dropped message is held by nobody, and nothing happens to it any more. -/
theorem run_dropped (origin : Origin) (actions : List Action) :
    run origin false actions = post origin false := by
  unfold run
  induction actions with
  | nil => rfl
  | cons a rest ih =>
    have idle : (post origin false).apply a = post origin false := by
      cases origin <;> cases a <;> rfl
    rw [List.foldl_cons, idle]
    exact ih

/-- A message is released only where it is dropped by write(): everywhere else it
    is never released, since new singleLog(...) does not count its references. -/
theorem balanced_iff (origin : Origin) (room : Bool) (actions : List Action)
    (finished : (run origin room actions).Finished) :
    (run origin room actions).Balanced ↔ origin = .write ∧ room = false := by
  have uncounted := run_uncounted origin room actions
  constructor
  · intro balanced
    by_contra other
    rw [if_neg other] at uncounted
    have never := uncounted.deletes.symm.trans balanced.released
    cases never
  · rintro ⟨rfl, rfl⟩
    refine ⟨uncounted.deletes, uncounted.late, ?_⟩
    rw [run_dropped]
    rfl

def twoTargets : List Action :=
  [.emit ⟨.tty, false, false⟩ true, .emit ⟨.callback, false, true⟩ true, .done, .deliver,
    .writeCb 0 true]

theorem balanced_iff_dropped :
    (run .write false twoTargets).Balanced ∧ ¬ (run .write true twoTargets).Balanced ∧
      ¬ (run .log false twoTargets).Balanced := by
  have dropped := balanced_iff .write false twoTargets (by decide)
  have handled := balanced_iff .write true twoTargets (by decide)
  have lost := balanced_iff .log false twoTargets (by decide)
  refine ⟨dropped.mpr ⟨rfl, rfl⟩, ?_, ?_⟩
  · intro balanced
    cases (handled.mp balanced).2
  · intro balanced
    cases (lost.mp balanced).1

/-- A message that one target writes out is never released. -/
theorem handled_never_released :
    (run .log true [.emit ⟨.file, false, false⟩ true, .done]).Finished ∧
      ¬ (run .log true [.emit ⟨.file, false, false⟩ true, .done]).Balanced := by
  refine ⟨by decide, ?_⟩
  intro balanced
  have never : (run .log true [.emit ⟨.file, false, false⟩ true, .done]).log.deletes = 0 := by decide
  have once := balanced.released
  rw [never] at once
  cases once

def Returns (s : Lifetime) : Action → Prop
  | .emit t _ => s.request = .queued → t.Returns
  | _ => True

/-- The calls of decRef() so far and those that are still to come: one for each
    write and each callback, and that of the handler. -/
def paid (s : Lifetime) : Nat :=
  s.log.decRefs + s.writing.length + s.callbacks + s.request.pending

def due (s : Lifetime) : Nat := s.log.incRefs + s.request.made

structure Pays (s t : Lifetime) (calls : Nat) : Prop where
  paid : t.paid = s.paid + calls
  due : t.due = s.due

theorem pays_decRef (s : Lifetime) : s.Pays s.decRef 1 := by
  have log : s.log.decRef.decRefs = s.log.decRefs + 1 ∧ s.log.decRef.incRefs = s.log.incRefs := by
    unfold RefLog.decRef
    simp only
    split
    · split <;> exact ⟨rfl, rfl⟩
    · exact ⟨rfl, rfl⟩
  obtain ⟨decRefs, incRefs⟩ := log
  have counted : s.decRef.log = s.log.decRef := rfl
  constructor
  · have same : s.decRef.writing = s.writing ∧ s.decRef.callbacks = s.callbacks ∧
        s.decRef.request = s.request := ⟨rfl, rfl, rfl⟩
    simp only [Lifetime.paid, counted, decRefs, same]
    omega
  · have same : s.decRef.request = s.request := rfl
    simp only [Lifetime.due, counted, incRefs, same]

theorem pays_callback (s : Lifetime) : s.Pays { s with callbacks := s.callbacks + 1 } 1 := by
  refine ⟨?_, rfl⟩
  simp only [Lifetime.paid]
  omega

theorem pays_returnBuffer (s : Lifetime) (t : Target) (room : Bool) :
    s.Pays (s.returnBuffer t room) 1 := by
  unfold returnBuffer
  split
  · split
    · exact pays_callback s
    · exact pays_decRef s
  · exact pays_decRef s

theorem pays_writeOverflow (s : Lifetime) (t : Target) (room : Bool) :
    (t.Returns → s.Pays (s.writeOverflow t room) 1) ∧
      (¬ t.Returns → s.Pays (s.writeOverflow t room) 0) := by
  have nothing : s.Pays s 0 := ⟨rfl, rfl⟩
  have left : s.Pays { s with abandoned := s.abandoned + 1 } 0 := ⟨rfl, rfl⟩
  have written : s.Pays { s with writing := s.writing ++ [t] } 1 := by
    refine ⟨?_, rfl⟩
    simp only [Lifetime.paid, List.length_append, List.length_singleton]
    omega
  obtain ⟨kind, disabled, logCallbackSet⟩ := t
  cases disabled with
  | true => exact ⟨fun returns => absurd returns.1 (by simp), fun _ => nothing⟩
  | false =>
    cases kind with
    | tty => exact ⟨fun _ => written, fun not => absurd ⟨rfl, fun other => nomatch other⟩ not⟩
    | file =>
      exact ⟨fun _ => pays_returnBuffer s _ room,
        fun not => absurd ⟨rfl, fun other => nomatch other⟩ not⟩
    | callback =>
      cases logCallbackSet with
      | true =>
        have back : s.Pays (s.writeOverflow ⟨.callback, false, true⟩ room) 1 := by
          cases room
          · exact pays_decRef s
          · exact pays_callback s
        exact ⟨fun _ => back, fun not => absurd ⟨rfl, fun _ => rfl⟩ not⟩
      | false => exact ⟨fun returns => absurd (returns.2 rfl) (by simp), fun _ => left⟩

theorem Pays.even {s t : Lifetime} (pays : s.Pays t 0) (bounded : s.paid ≤ s.due) {kept : Prop} (keeps : kept) :
    t.paid ≤ t.due ∧ (t.paid = t.due ↔ s.paid = s.due ∧ kept) := by
  rw [pays.paid, pays.due, and_iff_left keeps]
  exact ⟨bounded, Iff.rfl⟩

theorem Pays.passed {s t u : Lifetime} (pays : t.Pays u 1) (gone : s.paid = t.paid + 1)
    (same : t.due = s.due) : s.Pays u 0 :=
  ⟨by rw [pays.paid, gone], pays.due.trans same⟩

/-- No step makes more calls of decRef() than are due, and a reference that a step
    leaves behind is left for ever. -/
theorem apply_pays (s : Lifetime) (a : Action) (bounded : s.paid ≤ s.due) :
    (s.apply a).paid ≤ (s.apply a).due ∧
      ((s.apply a).paid = (s.apply a).due ↔ s.paid = s.due ∧ s.Returns a) := by
  have stays : s.Pays s 0 := ⟨rfl, rfl⟩
  cases a with
  | emit t room =>
    rw [apply, Returns]
    split
    · next queued =>
      have counted : ({ s with log := s.log.incRef } : Lifetime).due = s.due + 1 := by
        simp only [due, RefLog.incRef]
        omega
      have unpaid : ({ s with log := s.log.incRef } : Lifetime).paid = s.paid := rfl
      obtain ⟨returned, kept⟩ := pays_writeOverflow { s with log := s.log.incRef } t room
      by_cases returns : t.Returns
      · have pays := returned returns
        have keeps : s.request = .queued → t.Returns := fun _ => returns
        rw [pays.paid, pays.due, counted, unpaid, and_iff_left keeps]
        omega
      · have pays := kept returns
        have loses : ¬ (s.request = .queued → t.Returns) := fun all => returns (all queued)
        rw [pays.paid, pays.due, counted, unpaid]
        exact ⟨by omega, iff_of_false (by omega) (fun both => loses both.2)⟩
    · next other => exact stays.even bounded (fun queued => absurd queued other)
  | done =>
    rw [apply]
    split
    · next queued =>
      have pays : s.Pays ({ s with request := .handled } : Lifetime).decRef 0 := by
        refine (pays_decRef { s with request := .handled }).passed ?_ ?_
        · simp only [paid, queued, Request.pending]
        · simp only [due, queued, Request.made]
      exact pays.even bounded trivial
    · exact stays.even bounded trivial
  | writeCb i room =>
    rw [apply]
    split
    · next t there =>
      have inside : i < s.writing.length := (List.getElem?_eq_some_iff.mp there).1
      have pays : s.Pays (({ s with writing := s.writing.eraseIdx i } : Lifetime).returnBuffer t room) 0 := by
        refine (pays_returnBuffer { s with writing := s.writing.eraseIdx i } t room).passed ?_ rfl
        simp only [paid, List.length_eraseIdx_of_lt inside]
        omega
      exact pays.even bounded trivial
    · exact stays.even bounded trivial
  | deliver =>
    rw [apply]
    split
    · next waiting =>
      have pays : s.Pays ({ s with callbacks := s.callbacks - 1 } : Lifetime).decRef 0 := by
        refine (pays_decRef { s with callbacks := s.callbacks - 1 }).passed ?_ rfl
        simp only [paid]
        omega
      exact pays.even bounded trivial
    · exact stays.even bounded trivial

/-- At the end, each incRef() has had its decRef() exactly if no target that took
    the message was disabled, or is a callback target without its callback. -/
theorem calls_matched_iff (origin : Origin) (room : Bool) (actions : List Action)
    (finished : (run origin room actions).Finished) :
    (run origin room actions).log.decRefs =
        (run origin room actions).log.incRefs + (run origin room actions).request.made ↔
      Runs.Checked Returns apply (post origin room) actions := by
  have start : (post origin room).paid = (post origin room).due := by
    cases origin <;> cases room <;> rfl
  have each : ∀ s a t, s.paid ≤ s.due → t = apply s a →
      t.paid ≤ t.due ∧ (t.paid = t.due ↔ s.paid = s.due ∧ s.Returns a) := by
    rintro s a t bounded rfl
    exact apply_pays s a bounded
  have steps : Runs.Run (fun s a t => t = apply s a) (post origin room) actions (run origin room actions) :=
    Runs.run_apply apply actions (post origin room)
  obtain ⟨_, iff⟩ := Runs.kept_iff_checked (fun _ _ _ step => step) (fun s => s.paid ≤ s.due)
    (fun s => s.paid = s.due) (Nat.le_of_eq start) start each steps
  obtain ⟨ended, noWrites, noCallbacks⟩ := finished
  rw [← iff]
  have nothing : (run origin room actions).request.pending = 0 := by
    cases request : (run origin room actions).request with
    | queued => exact absurd request ended
    | handled => rfl
    | dropped => rfl
  rw [paid, due, noWrites, noCallbacks, nothing]
  rfl

def ofTarget (t : LogTarget) : Target := ⟨t.kind, t.disabled, t.logCallbackSet⟩

theorem addCallback_length (o : Owner) (d : WriteCBData) (s : Lifetime) :
    (o.addCallback d).1.v8LogCallbacks.items.length + s.callbacks =
      o.v8LogCallbacks.items.length +
        (if decide o.v8LogCallbacks.HasRoom then { s with callbacks := s.callbacks + 1 } else s.decRef).callbacks := by
  rcases BoundedQueue.addIfRoom_cases o.v8LogCallbacks d with ⟨room, _, items⟩ | ⟨full, same⟩
  · simp only [Owner.addCallback, items, List.length_append, List.length_singleton, room, decide_true, ↓reduceIte]
    omega
  · simp only [Owner.addCallback, same, full, decide_false, Bool.false_eq_true, ↓reduceIte]
    rfl

theorem returnBuffer_writing (s : Lifetime) (t : Target) (room : Bool) :
    (s.returnBuffer t room).writing = s.writing := by
  unfold returnBuffer
  split
  · split <;> rfl
  · rfl

theorem returnOverflow_agrees (t : LogTarget) (o : Owner) (entry : OverflowWriteOut) (s : Lifetime) :
    (t.returnOverflow o entry false).v8LogCallbacks.items.length + s.callbacks =
      o.v8LogCallbacks.items.length +
        (s.returnBuffer (ofTarget t) (decide o.v8LogCallbacks.HasRoom)).callbacks := by
  unfold LogTarget.returnOverflow returnBuffer
  cases set : t.logCallbackSet with
  | true =>
    simp only [ofTarget, set, Bool.not_false, Bool.and_true, ↓reduceIte]
    exact addCallback_length o.unrefGreaseInGrease (.overflow t.myId entry) s
  | false =>
    simp only [ofTarget, set, Bool.and_false, Bool.false_eq_true, ↓reduceIte]
    rfl

/-- An emission starts the writes and queues the callbacks that it does here. -/
theorem writeOverflow_agrees (t : LogTarget) (o : Owner) (env : WriteEnv) (log : SingleLog) (filter : Filter)
    (s : Lifetime) :
    let r := t.writeOverflow o env log filter
    let s' := s.writeOverflow (ofTarget t) (decide o.v8LogCallbacks.HasRoom)
    r.1.inflight.length + s.writing.length = t.inflight.length + s'.writing.length ∧
      r.2.1.v8LogCallbacks.items.length + s.callbacks = o.v8LogCallbacks.items.length + s'.callbacks := by
  cases disabled : t.disabled with
  | true => simp [LogTarget.writeOverflow, writeOverflow, ofTarget, disabled]
  | false =>
    have some : t.overflowEntry env log filter ≠ [] := by
      simp [LogTarget.overflowEntry]
    have referred : o.refGreaseInGrease.v8LogCallbacks = o.v8LogCallbacks := rfl
    cases kind : t.kind with
    | tty =>
      simp [LogTarget.writeOverflow, LogTarget.writeAsyncOverflow, writeOverflow, writeAsyncOverflow,
        ofTarget, disabled, kind, referred]
      exact Nat.add_right_comm _ _ _
    | file =>
      have queued := returnOverflow_agrees t o.refGreaseInGrease (t.overflowEntry env log filter) s
      have same := returnBuffer_writing s (ofTarget t) (decide o.v8LogCallbacks.HasRoom)
      simp only [LogTarget.writeOverflow, LogTarget.writeAsyncOverflow, writeOverflow, writeAsyncOverflow,
        ofTarget, disabled, kind] at queued same ⊢
      exact ⟨congrArg _ (congrArg _ same.symm), queued⟩
    | callback =>
      cases set : t.logCallbackSet with
      | true =>
        have queued := addCallback_length o.refGreaseInGrease (.overflow t.myId (t.overflowEntry env log filter)) s
        simp only [LogTarget.writeOverflow, LogTarget.writeAsyncOverflow, writeOverflow, writeAsyncOverflow,
          ofTarget, disabled, kind, set, some, Bool.not_false, Bool.and_true, Bool.false_eq_true,
          ↓reduceIte, referred] at queued ⊢
        refine ⟨?_, queued⟩
        split <;> rfl
      | false =>
        simp [LogTarget.writeOverflow, LogTarget.writeAsyncOverflow, writeOverflow, writeAsyncOverflow,
          ofTarget, disabled, kind, set, some, referred]

end Lifetime

end GreaseLog.OverflowLifetime
