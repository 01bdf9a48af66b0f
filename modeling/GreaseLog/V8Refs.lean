import GreaseLog.LogTarget
import GreaseLog.Lib.Runs

/- needV8 and the handle that keeps the node process alive, under the interleaving
   of the logger thread, which fills v8LogCallbacks, and the node thread, which
   empties it. A step is one operation on the queue, on the counter or on a signal;
   a signal that has been sent runs its callback once or more. -/
namespace GreaseLog

inductive LoggerAt where
  | idle
  /-- refFromV8 is next. -/
  | counting
  /-- In refFromV8, which holds mutexRefLogger, between the signal and the increment. -/
  | signalled
  /-- uv_async_send(&asyncV8LogCallback) is next. -/
  | waking
  deriving DecidableEq

inductive NodeAt where
  | idle
  /-- At the head of the loop of callV8LogCallbacks. -/
  | calling
  /-- With an entry it has removed; unrefFromV8_inV8 is next. -/
  | delivering
  deriving DecidableEq

structure V8State where
  o : Owner := {}
  assertFailed : Bool := false
  refPending : Bool := false
  unrefPending : Bool := false
  callbackPending : Bool := false
  /-- uv_ref holds for asyncRefLogger. -/
  referenced : Bool := false
  logger : LoggerAt := .idle
  node : NodeAt := .idle

inductive V8Action where
  | returnBuffer (d : WriteCBData)
  | returnOverflow (d : WriteCBData)
  /-- callbackTarget::writeAsyncOverflow -/
  | callbackOverflow (d : WriteCBData)
  | refFromV8
  | wake
  | callV8LogCallbacks (again : Bool)
  | remove
  | unref
  | refCb (again : Bool)
  | unrefCb (again : Bool)
  deriving DecidableEq

namespace V8State

def apply (s : V8State) : V8Action → V8State
  | .returnBuffer d =>
    let added := s.o.addCallback d
    { s with o := added.1, logger := if added.2 then .counting else .idle }
  | .returnOverflow d => { s with o := (s.o.addCallback d).1, logger := .counting }
  | .callbackOverflow d => { s with o := (s.o.addCallback d).1, logger := .waking }
  | .refFromV8 =>
    if s.logger = .counting ∧ s.o.needV8 = 0 then { s with refPending := true, logger := .signalled }
    else { s with o := s.o.refFromV8, logger := .waking }
  | .wake => { s with callbackPending := true, logger := .idle }
  | .callV8LogCallbacks again => { s with callbackPending := again, node := .calling }
  | .remove =>
    match s.o.v8LogCallbacks.remove with
    | some (_, rest) => { s with o := { s.o with v8LogCallbacks := rest }, node := .delivering }
    | none => { s with node := .idle }
  | .unref =>
    if s.o.needV8 = 0 then { s with assertFailed := true }
    else
      { s with
        o := { s.o with needV8 := s.o.needV8 - 1 }
        referenced := if s.o.needV8 - 1 = 0 then false else s.referenced
        node := .calling }
  | .refCb again => { s with referenced := true, refPending := again }
  | .unrefCb again => { s with referenced := false, unrefPending := again }

/-- The process ends at a failed assertion. -/
def Allowed (s : V8State) (a : V8Action) : Prop :=
  s.assertFailed = false ∧
    match a with
    | .returnBuffer _ | .returnOverflow _ | .callbackOverflow _ => s.logger = .idle
    | .refFromV8 => s.logger = .counting ∨ s.logger = .signalled
    | .wake => s.logger = .waking
    | .callV8LogCallbacks _ => s.node = .idle ∧ s.callbackPending = true
    | .remove => s.node = .calling
    | .unref => s.node = .delivering ∧ s.logger ≠ .signalled
    | .refCb _ => s.node = .idle ∧ s.refPending = true
    | .unrefCb _ => s.node = .idle ∧ s.unrefPending = true

instance (s : V8State) (a : V8Action) : Decidable (s.Allowed a) := by
  unfold Allowed
  cases a <;> infer_instance

def Step (s : V8State) (a : V8Action) (s' : V8State) : Prop := s.Allowed a ∧ s' = s.apply a

structure Start (s : V8State) : Prop where
  noCallbacks : s.o.v8LogCallbacks = .empty
  needV8 : s.o.needV8 = 0
  noFailure : s.assertFailed = false
  noSignal : s.refPending = false ∧ s.unrefPending = false ∧ s.callbackPending = false
  unreferenced : s.referenced = false
  idle : s.logger = .idle ∧ s.node = .idle

/-- The node thread does not give up the count of an entry that has none yet, an
    overflow entry finds room, and a callback target has none to queue. -/
def CountInTime (s : V8State) : V8Action → Prop
  | .unref => ¬ (s.o.v8LogCallbacks.items = [] ∧ (s.logger = .counting ∨ s.logger = .signalled))
  | .returnOverflow _ => s.o.v8LogCallbacks.HasRoom
  | .callbackOverflow _ => ¬ s.o.v8LogCallbacks.HasRoom
  | _ => True

instance (s : V8State) : ∀ a, Decidable (s.CountInTime a)
  | .unref => inferInstanceAs (Decidable (¬ _))
  | .returnOverflow _ => inferInstanceAs (Decidable (_ < _))
  | .callbackOverflow _ => inferInstanceAs (Decidable (¬ _))
  | .returnBuffer _ | .refFromV8 | .wake | .callV8LogCallbacks _ | .remove | .refCb _
  | .unrefCb _ => inferInstanceAs (Decidable True)

def uncounted : LoggerAt → Nat
  | .counting | .signalled => 1
  | .idle | .waking => 0

def delivered : NodeAt → Nat
  | .delivering => 1
  | .idle | .calling => 0

/-- What the counter and the queue are to each other at every moment. -/
structure Counted (s : V8State) : Prop where
  balance : s.o.needV8 + uncounted s.logger = s.o.v8LogCallbacks.items.length + delivered s.node
  noFailure : s.assertFailed = false

variable {s : V8State}

/-- An entry without a count leaves another one in the queue, which has its own. -/
theorem counts_delivered (counted : s.Counted) (delivers : s.node = .delivering)
    (inTime : s.CountInTime .unref) : s.o.needV8 ≠ 0 := by
  intro zero
  have balance := counted.balance
  rw [delivers, delivered, zero, Nat.zero_add] at balance
  have most : uncounted s.logger ≤ 1 := by cases s.logger <;> decide
  have empty : s.o.v8LogCallbacks.items = [] := List.eq_nil_of_length_eq_zero (by omega)
  apply inTime
  refine ⟨empty, ?_⟩
  rw [empty] at balance
  cases logger : s.logger with
  | counting => exact Or.inl rfl
  | signalled => exact Or.inr rfl
  | idle => simp [logger, uncounted] at balance
  | waking => simp [logger, uncounted] at balance

theorem apply_counted {a : V8Action} (counted : s.Counted) (allowed : s.Allowed a)
    (inTime : s.CountInTime a) : (s.apply a).Counted := by
  obtain ⟨balance, noFailure⟩ := counted
  obtain ⟨_, allowed⟩ := allowed
  cases a with
  | returnBuffer d =>
    have idle : s.logger = .idle := allowed
    simp only [idle, uncounted] at balance
    rcases BoundedQueue.addIfRoom_cases s.o.v8LogCallbacks d with ⟨_, added, items⟩ | ⟨_, full⟩
    · refine ⟨?_, noFailure⟩
      simp only [apply, Owner.addCallback, added, items, ↓reduceIte, uncounted, List.length_append,
        List.length_singleton]
      omega
    · refine ⟨?_, noFailure⟩
      simp only [apply, Owner.addCallback, full, Bool.false_eq_true, ↓reduceIte, uncounted]
      exact balance
  | returnOverflow d =>
    have idle : s.logger = .idle := allowed
    obtain ⟨_, items⟩ := BoundedQueue.addIfRoom_room d inTime
    refine ⟨?_, noFailure⟩
    simp only [idle, uncounted] at balance
    simp only [apply, Owner.addCallback, items, uncounted, List.length_append, List.length_singleton]
    omega
  | callbackOverflow d =>
    have idle : s.logger = .idle := allowed
    have full := BoundedQueue.addIfRoom_full d inTime
    refine ⟨?_, noFailure⟩
    simp only [idle, uncounted] at balance
    simp only [apply, Owner.addCallback, full, uncounted]
    exact balance
  | refFromV8 =>
    have before : uncounted s.logger = 1 := by
      rcases allowed with counting | signalled
      · rw [counting]
        rfl
      · rw [signalled]
        rfl
    rw [before] at balance
    simp only [apply]
    split
    · exact ⟨balance, noFailure⟩
    · exact ⟨balance, noFailure⟩
  | wake =>
    have waking : s.logger = .waking := allowed
    rw [waking] at balance
    exact ⟨balance, noFailure⟩
  | callV8LogCallbacks again =>
    have idle : s.node = .idle := allowed.1
    rw [idle] at balance
    exact ⟨balance, noFailure⟩
  | remove =>
    have calling : s.node = .calling := allowed
    rw [calling] at balance
    simp only [apply]
    split
    · next d rest removed =>
      have items := BoundedQueue.remove_some removed
      refine ⟨?_, noFailure⟩
      simp only [items, List.length_cons, delivered] at balance ⊢
      omega
    · exact ⟨balance, noFailure⟩
  | unref =>
    have delivers : s.node = .delivering := allowed.1
    have positive := counts_delivered ⟨balance, noFailure⟩ delivers inTime
    simp only [delivers, delivered] at balance
    simp only [apply, if_neg positive]
    refine ⟨?_, noFailure⟩
    simp only [delivered]
    omega
  | refCb again => exact ⟨balance, noFailure⟩
  | unrefCb again => exact ⟨balance, noFailure⟩

theorem start_counted (start : s.Start) : s.Counted := by
  refine ⟨?_, start.noFailure⟩
  rw [start.idle.1, start.idle.2, start.noCallbacks, start.needV8]
  rfl

theorem run_counted {start : V8State} (fresh : start.Start) {actions : List V8Action}
    (run : Runs.Run (Runs.Guard CountInTime Step) start actions s) : s.Counted := by
  refine Runs.run_invariant Counted (start_counted fresh) ?_ run
  rintro s a _ counted ⟨inTime, allowed, rfl⟩
  exact apply_counted counted allowed inTime

/-- needV8 counts the entries of v8LogCallbacks, and its assertion holds. -/
theorem needV8_counts {start : V8State} (fresh : start.Start) {actions : List V8Action}
    (run : Runs.Run (Runs.Guard CountInTime Step) start actions s) :
    s.assertFailed = false ∧
      (s.logger = .idle → s.node = .idle → s.o.needV8 = s.o.v8LogCallbacks.remaining) := by
  obtain ⟨balance, noFailure⟩ := run_counted fresh run
  refine ⟨noFailure, fun logger node => ?_⟩
  rw [logger, node] at balance
  exact balance

theorem fresh_start : ({} : V8State).Start := ⟨rfl, rfl, rfl, ⟨rfl, rfl, rfl⟩, rfl, rfl, rfl⟩

theorem checked_run {actions : List V8Action} (checked : Runs.Checked Allowed apply {} actions) :
    Runs.Run Step {} actions (actions.foldl apply {}) :=
  Runs.run_checked (fun _ _ allowed => ⟨allowed, rfl⟩) checked

theorem guarded_checked_run {guard : V8State → V8Action → Prop} {actions : List V8Action}
    (checked : Runs.Checked (fun s a => guard s a ∧ s.Allowed a) apply {} actions) :
    Runs.Run (Runs.Guard guard Step) {} actions (actions.foldl apply {}) :=
  Runs.run_checked (fun _ _ both => ⟨both.1, both.2, rfl⟩) checked

def threeBuffers : List V8Action :=
  [.returnBuffer (.buffer 1 0), .refFromV8, .refFromV8, .wake, .returnBuffer (.buffer 1 1),
    .callV8LogCallbacks false, .remove, .refFromV8, .unref, .wake, .remove, .unref, .remove,
    .returnBuffer (.buffer 1 2), .refFromV8, .refFromV8, .wake]

theorem needV8_counts_two :
    let s : V8State := threeBuffers.foldl apply {}
    s.assertFailed = false ∧ s.o.needV8 = s.o.v8LogCallbacks.remaining ∧ s.o.needV8 = 1 := by
  intro s
  have checked : Runs.Checked (fun s a => CountInTime s a ∧ s.Allowed a) apply {} threeBuffers := by
    decide +kernel
  obtain ⟨noFailure, counts⟩ := needV8_counts fresh_start (guarded_checked_run checked)
  exact ⟨noFailure, counts (by decide +kernel) (by decide +kernel), by decide +kernel⟩

/-- The node thread overtakes refFromV8, and the assertion fails; an overflow entry
    that finds no room is counted; one of a callback target is not. -/
theorem needV8_miscounts :
    (∃ actions s, Runs.Run Step {} actions s ∧ s.assertFailed = true) ∧
    (∃ actions s, Runs.Run Step {} actions s ∧ s.logger = .idle ∧ s.node = .idle ∧
      s.o.v8LogCallbacks.remaining < s.o.needV8) ∧
    ∃ actions s, Runs.Run Step {} actions s ∧ s.logger = .idle ∧ s.node = .idle ∧
      s.o.needV8 < s.o.v8LogCallbacks.remaining := by
  let overtaken : List V8Action := [.returnBuffer (.buffer 1 0), .refFromV8, .refFromV8, .wake,
    .callV8LogCallbacks false, .returnBuffer (.buffer 1 1), .remove, .unref, .remove, .unref]
  let eleven : List V8Action := [.returnOverflow (.overflow 1 []), .refFromV8, .refFromV8, .wake] ++
    (List.replicate 10 [.returnOverflow (.overflow 1 []), .refFromV8, .wake]).flatten
  let uncounted : List V8Action := [.callbackOverflow (.overflow 1 []), .wake]
  exact ⟨⟨overtaken, _, checked_run (by decide +kernel), by decide +kernel⟩,
    ⟨eleven, _, checked_run (by decide +kernel), by decide +kernel⟩,
    ⟨uncounted, _, checked_run (by decide +kernel), by decide +kernel⟩⟩

def RefInTime (s : V8State) : V8Action → Prop
  | .refCb _ => 0 < s.o.needV8 ∨ s.logger = .signalled
  | _ => True

instance (s : V8State) : ∀ a, Decidable (s.RefInTime a)
  | .refCb _ => inferInstanceAs (Decidable (_ ∨ _))
  | .returnBuffer _ | .returnOverflow _ | .callbackOverflow _ | .refFromV8 | .wake
  | .callV8LogCallbacks _ | .remove | .unref | .unrefCb _ => inferInstanceAs (Decidable True)

/-- The handle is referenced, or about to be, when the counter is not 0. -/
structure KeptAlive (s : V8State) : Prop where
  noUnref : s.unrefPending = false
  zero : s.o.needV8 = 0 → s.referenced = true → s.logger = .signalled
  positive : 0 < s.o.needV8 → s.referenced = true ∨ s.refPending = true
  signalled : s.logger = .signalled →
    s.o.needV8 = 0 ∧ (s.referenced = true ∨ s.refPending = true)

theorem KeptAlive.frame {s' : V8State} (kept : s.KeptAlive) (before : s.logger ≠ .signalled)
    (after : s'.logger ≠ .signalled) (needV8 : s'.o.needV8 = s.o.needV8)
    (referenced : s'.referenced = s.referenced) (refPending : s'.refPending = s.refPending)
    (unrefPending : s'.unrefPending = s.unrefPending) : s'.KeptAlive where
  noUnref := unrefPending.trans kept.noUnref
  zero := by
    rw [needV8, referenced]
    intro zero ref
    exact absurd (kept.zero zero ref) before
  positive := by
    rw [needV8, referenced, refPending]
    exact kept.positive
  signalled := fun h => absurd h after

theorem apply_keptAlive {a : V8Action} (kept : s.KeptAlive) (allowed : s.Allowed a)
    (inTime : s.RefInTime a) : (s.apply a).KeptAlive := by
  obtain ⟨_, allowed⟩ := allowed
  cases a with
  | returnBuffer d =>
    have idle : s.logger = .idle := allowed
    refine kept.frame (by simp [idle]) ?_ rfl rfl rfl rfl
    simp only [apply]
    split <;> simp
  | returnOverflow d =>
    have idle : s.logger = .idle := allowed
    exact kept.frame (by simp [idle]) (by simp [apply]) rfl rfl rfl rfl
  | callbackOverflow d =>
    have idle : s.logger = .idle := allowed
    exact kept.frame (by simp [idle]) (by simp [apply]) rfl rfl rfl rfl
  | refFromV8 =>
    simp only [apply]
    split
    · next first =>
      exact ⟨kept.noUnref, fun _ _ => rfl, fun _ => Or.inr rfl, fun _ => ⟨first.2, Or.inr rfl⟩⟩
    · next other =>
      refine ⟨kept.noUnref, fun zero => absurd zero (Nat.succ_ne_zero _), fun _ => ?_, nofun⟩
      rcases allowed with counting | signalled
      · have some : s.o.needV8 ≠ 0 := fun zero => other ⟨counting, zero⟩
        exact kept.positive (Nat.pos_of_ne_zero some)
      · exact (kept.signalled signalled).2
  | wake =>
    have waking : s.logger = .waking := allowed
    exact kept.frame (by simp [waking]) (by simp [apply]) rfl rfl rfl rfl
  | callV8LogCallbacks again => exact ⟨kept.noUnref, kept.zero, kept.positive, kept.signalled⟩
  | remove =>
    simp only [apply]
    split
    · exact ⟨kept.noUnref, kept.zero, kept.positive, kept.signalled⟩
    · exact ⟨kept.noUnref, kept.zero, kept.positive, kept.signalled⟩
  | unref =>
    have free : s.logger ≠ .signalled := allowed.2
    simp only [apply]
    split
    · exact ⟨kept.noUnref, kept.zero, kept.positive, kept.signalled⟩
    · next some =>
      refine ⟨kept.noUnref, ?_, ?_, fun h => absurd h free⟩
      · intro zero ref
        have last : s.o.needV8 - 1 = 0 := zero
        simp [last] at ref
      · intro positive
        have more : s.o.needV8 - 1 ≠ 0 := Nat.ne_of_gt positive
        simp only [more, ↓reduceIte]
        exact kept.positive (Nat.pos_of_ne_zero some)
  | refCb again =>
    refine ⟨kept.noUnref, ?_, fun _ => Or.inl rfl, fun h => ⟨(kept.signalled h).1, Or.inl rfl⟩⟩
    intro zero _
    rcases inTime with positive | signalled
    · exact absurd zero (Nat.ne_of_gt positive)
    · exact signalled
  | unrefCb again =>
    have sent : s.unrefPending = true := allowed.2
    rw [kept.noUnref] at sent
    cases sent

theorem start_keptAlive (start : s.Start) : s.KeptAlive := by
  have off := start.unreferenced
  refine ⟨start.noSignal.2.1, fun _ ref => ?_, fun positive => ?_, fun signalled => ?_⟩
  · rw [off] at ref
    cases ref
  · exact absurd start.needV8 (Nat.ne_of_gt positive)
  · rw [start.idle.1] at signalled
    cases signalled

/-- With every callback run and no operation in progress, the handle is referenced
    exactly when the counter is not 0. -/
theorem keepAlive_follows {start : V8State} (fresh : start.Start) {actions : List V8Action}
    (run : Runs.Run (Runs.Guard RefInTime Step) start actions s)
    (settled : s.refPending = false ∧ s.unrefPending = false ∧ s.callbackPending = false)
    (idle : s.logger = .idle ∧ s.node = .idle) :
    s.referenced = true ↔ 0 < s.o.needV8 := by
  have kept : s.KeptAlive := by
    refine Runs.run_invariant KeptAlive (start_keptAlive fresh) ?_ run
    rintro s a _ kept ⟨inTime, allowed, rfl⟩
    exact apply_keptAlive kept allowed inTime
  constructor
  · intro referenced
    by_contra zero
    have signalled := kept.zero (by omega) referenced
    rw [idle.1] at signalled
    cases signalled
  · intro positive
    rcases kept.positive positive with referenced | pending
    · exact referenced
    · rw [settled.1] at pending
      cases pending

theorem keepAlive_follows_pair :
    let s : V8State := [.returnBuffer (.buffer 1 0), .refFromV8, .refFromV8, .refCb false, .wake,
      .callV8LogCallbacks false, .remove, .unref, .remove, .returnBuffer (.buffer 1 1),
      .refFromV8, .refCb false, .refFromV8, .wake, .callV8LogCallbacks true, .remove, .unref,
      .remove, .callV8LogCallbacks false, .remove].foldl apply {}
    s.referenced = true ↔ 0 < s.o.needV8 :=
  keepAlive_follows fresh_start (guarded_checked_run (by decide +kernel)) (by decide +kernel)
    (by decide +kernel)

/-- The callback is delivered first, then the handle is referenced for good. -/
theorem refCb_too_late : ∃ actions s, Runs.Run Step {} actions s ∧
    (s.refPending = false ∧ s.unrefPending = false ∧ s.callbackPending = false) ∧
    (s.logger = .idle ∧ s.node = .idle) ∧ s.referenced = true ∧ s.o.needV8 = 0 := by
  let late : List V8Action := [.returnBuffer (.buffer 1 0), .refFromV8, .refFromV8, .wake,
    .callV8LogCallbacks false, .remove, .unref, .remove, .refCb false]
  exact ⟨late, _, checked_run (by decide +kernel), by decide +kernel⟩

/-! With nobody else between its steps, each of the functions is a run of them. -/

theorem reached_checked (s : V8State) (actions : List V8Action)
    (checked : Runs.Checked Allowed apply s actions) :
    Runs.Reached Step s (actions.foldl apply s) :=
  ⟨actions, Runs.run_checked (fun _ _ allowed => ⟨allowed, rfl⟩) checked⟩

theorem refFromV8_run (counting : s.logger = .counting) (alive : s.assertFailed = false) :
    ∃ s', Runs.Reached Step s s' ∧ s'.o = s.o.refFromV8 ∧ s'.logger = .idle ∧ s'.node = s.node := by
  by_cases zero : s.o.needV8 = 0
  · have run := reached_checked s [.refFromV8, .refFromV8, .wake]
      (by simp [Runs.Checked, Allowed, apply, counting, alive, zero])
    exact ⟨_, run, by simp [apply, counting, zero]⟩
  · have run := reached_checked s [.refFromV8, .wake]
      (by simp [Runs.Checked, Allowed, apply, counting, alive, zero])
    exact ⟨_, run, by simp [apply, zero]⟩

theorem returnOverflow_run {t : LogTarget} {o : Owner} {entry : OverflowWriteOut}
    (wanted : t.logCallbackSet = true) (owner : s.o = o.unrefGreaseInGrease)
    (idle : s.logger = .idle) (alive : s.assertFailed = false) :
    ∃ s', Runs.Reached Step s s' ∧ s'.o = t.returnOverflow o entry false ∧
      s'.logger = .idle ∧ s'.node = s.node := by
  have first := reached_checked s [.returnOverflow (.overflow t.myId entry)]
    ⟨⟨alive, idle⟩, trivial⟩
  obtain ⟨s', second, result, rest⟩ := refFromV8_run
    (s := s.apply (.returnOverflow (.overflow t.myId entry))) rfl alive
  refine ⟨s', Runs.reached_trans first second, ?_, rest⟩
  rw [result]
  simp [apply, LogTarget.returnOverflow, wanted, owner]

theorem callbackOrRelease_run {t : LogTarget} {b : BufId} (idle : s.logger = .idle)
    (alive : s.assertFailed = false) :
    ∃ s', Runs.Reached Step s s' ∧ s'.o = (t.callbackOrRelease s.o b true).2 ∧
      s'.logger = .idle ∧ s'.node = s.node := by
  have first := reached_checked s [.returnBuffer (.buffer t.myId b)]
    ⟨⟨alive, idle⟩, trivial⟩
  rcases BoundedQueue.addIfRoom_cases s.o.v8LogCallbacks (.buffer t.myId b) with
    ⟨_, added, _⟩ | ⟨_, full⟩
  · obtain ⟨s', second, result, rest⟩ := refFromV8_run
      (s := s.apply (.returnBuffer (.buffer t.myId b)))
      (by simp [apply, Owner.addCallback, added]) alive
    refine ⟨s', Runs.reached_trans first second, ?_, rest⟩
    rw [result]
    simp [apply, LogTarget.callbackOrRelease, Owner.addCallback, added]
  · refine ⟨_, first, ?_⟩
    simp [apply, LogTarget.callbackOrRelease, Owner.addCallback, full]

theorem writeAsyncOverflow_run {t : LogTarget} {entry : OverflowWriteOut} (kind : t.kind = .callback)
    (some : entry ≠ []) (wanted : t.logCallbackSet = true) (idle : s.logger = .idle)
    (alive : s.assertFailed = false) :
    ∃ s', Runs.Reached Step s s' ∧ s'.o = (t.writeAsyncOverflow s.o entry false).2.1 ∧
      s'.logger = .idle ∧ s'.node = s.node := by
  have run := reached_checked s [.callbackOverflow (.overflow t.myId entry), .wake]
    ⟨⟨alive, idle⟩, ⟨alive, rfl⟩, trivial⟩
  refine ⟨_, run, ?_, rfl, rfl⟩
  simp [apply, LogTarget.writeAsyncOverflow, kind, some, wanted]

theorem callV8LogCallback_run {t : LogTarget} (calling : s.node = .calling)
    (some : s.o.v8LogCallbacks.items ≠ []) (free : s.logger ≠ .signalled)
    (counted : s.o.needV8 ≠ 0) (alive : s.assertFailed = false) :
    ∃ s', Runs.Reached Step s s' ∧ s'.o = (t.callV8LogCallback s.o).2 ∧
      s'.logger = s.logger ∧ s'.node = .calling := by
  cases removed : s.o.v8LogCallbacks.remove with
  | none => exact absurd ((BoundedQueue.remove_none_iff _).mp removed) some
  | some r =>
    obtain ⟨d, rest⟩ := r
    have run := reached_checked s [.remove, .unref]
      (by simp [Runs.Checked, Allowed, apply, removed, calling, free, alive])
    refine ⟨_, run, ?_⟩
    cases d with
    | overflow id entry =>
      simp [apply, removed, counted, LogTarget.callV8LogCallback]
    | buffer id b =>
      simp only [LogTarget.callV8LogCallback, removed]
      by_cases ours : id = t.myId <;> simp [apply, removed, counted, ours]

end V8State

end GreaseLog
