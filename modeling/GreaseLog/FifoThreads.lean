import GreaseLog.Lib.BoundedQueue
import GreaseLog.Lib.CondVar
import GreaseLog.Lib.Runs
import GreaseLog.SafeCircular

/- A tw_safeCircular used by many threads (tw_circular.h, tw_sema2.h). What a call does
   while it has localMutex is one step; between steps the threads come in any order. -/
namespace GreaseLog

structure Adding (Tid T : Type) where
  tid : Tid
  the_d : T
  timed : Bool

structure Fifo (Tid T : Type) where
  queue : SafeCircular T
  gtZeroCond : CondVar (Adding Tid T) := {}
  decrementCond : CondVar Tid := {}

inductive FifoEvent (Tid T : Type) where
  | added (t : Tid) (d : T)
  | noRoom (t : Tid) (d : T)
  | timedOut (t : Tid) (d : T)
  | took (t : Tid) (d : T)
  | empty (t : Tid)
  | cleared (t : Tid)
  deriving DecidableEq

/-- `wakes` says which thread a signal wakes, `i` which of the threads that wait or have been
    woken goes on. -/
inductive FifoStep (Tid T : Type) where
  | add (t : Tid) (the_d : T) (timed : Bool) (wakes : Nat)
  | addIfRoom (t : Tid) (the_d : T) (wakes : Nat)
  | remove (t : Tid) (wakes : Nat)
  | removeOrBlock (t : Tid) (wakes : Nat)
  | unblockAllRemovers (t : Tid)
  | clear (t : Tid) (blank : T)
  | resumeAdd (i wakes : Nat)
  | resumeRemove (i wakes : Nat)
  | timeout (i : Nat)
  | wakeAdd (i : Nat)
  | wakeRemove (i : Nat)

namespace SafeCircular
variable {T : Type}

/-- removeOrBlock once it has been woken: sema.releaseWithoutLock comes last here, after the
    test for the last item. -/
def removeWoken (q : SafeCircular T) : T × SafeCircular T :=
  let fill := q.data q.nextOut.toNat
  let q := if q.remain = 0 then { q with nextIn := -1, nextOut := 0, reversed := false } else q
  (fill, { q with nextOut := q.nextNextOut, cnt := q.cnt + 1 })

end SafeCircular

namespace Fifo
variable {Tid T : Type}

def new (size : Nat) (blank : T) : Fifo Tid T := { queue := .new size blank }

def enter (s : Fifo Tid T) (a : Adding Tid T) (wakes : Nat) : Fifo Tid T × List (FifoEvent Tid T) :=
  match s.queue.addMv a.the_d with
  | some q => ({ s with queue := q, decrementCond := s.decrementCond.signal wakes }, [.added a.tid a.the_d])
  | none => ({ s with gtZeroCond := s.gtZeroCond.wait a }, [])

def addIfRoom (s : Fifo Tid T) (t : Tid) (d : T) (wakes : Nat) : Fifo Tid T × List (FifoEvent Tid T) :=
  match s.queue.addMv d with
  | some q => ({ s with queue := q, decrementCond := s.decrementCond.signal wakes }, [.added t d])
  | none => (s, [.noRoom t d])

def remove (s : Fifo Tid T) (t : Tid) (wakes : Nat) : Fifo Tid T × List (FifoEvent Tid T) :=
  match s.queue.removeMv with
  | some (d, q) => ({ s with queue := q, gtZeroCond := s.gtZeroCond.signal wakes }, [.took t d])
  | none => (s, [.empty t])

/-- The end of waitForAcquirersKeepLock, which returns -1 when nothing is there, and of
    removeOrBlock. -/
def leave (s : Fifo Tid T) (t : Tid) (wakes : Nat) : Fifo Tid T × List (FifoEvent Tid T) :=
  if s.queue.cnt ≥ s.queue.size then (s, [.empty t])
  else
    ({ s with queue := s.queue.removeWoken.2, gtZeroCond := s.gtZeroCond.signal wakes },
      [.took t s.queue.removeWoken.1])

/-- With a time to wait it waits as long: the wait under it has none. -/
def removeOrBlock (s : Fifo Tid T) (t : Tid) (wakes : Nat) : Fifo Tid T × List (FifoEvent Tid T) :=
  match s.queue.removeMv with
  | some (d, q) => ({ s with queue := q, gtZeroCond := s.gtZeroCond.signal wakes }, [.took t d])
  | none =>
    if s.queue.cnt ≥ s.queue.size then ({ s with decrementCond := s.decrementCond.wait t }, [])
    else s.leave t wakes

def Busy (s : Fifo Tid T) (t : Tid) : Prop :=
  t ∈ s.gtZeroCond.asleep.map Adding.tid ∨ t ∈ s.gtZeroCond.woken.map Adding.tid ∨
    t ∈ s.decrementCond.asleep ∨ t ∈ s.decrementCond.woken

instance [DecidableEq Tid] (s : Fifo Tid T) (t : Tid) : Decidable (s.Busy t) :=
  inferInstanceAs (Decidable (_ ∨ _))

variable [DecidableEq Tid]

/-- A thread that waits makes no call; what names a thread that is not there does nothing. -/
def step (s : Fifo Tid T) : FifoStep Tid T → Fifo Tid T × List (FifoEvent Tid T)
  | .add t d timed wakes => if s.Busy t then (s, []) else s.enter ⟨t, d, timed⟩ wakes
  | .addIfRoom t d wakes => if s.Busy t then (s, []) else s.addIfRoom t d wakes
  | .remove t wakes => if s.Busy t then (s, []) else s.remove t wakes
  | .removeOrBlock t wakes => if s.Busy t then (s, []) else s.removeOrBlock t wakes
  | .unblockAllRemovers t =>
    if s.Busy t then (s, []) else ({ s with decrementCond := s.decrementCond.broadcast }, [])
  | .clear t blank =>
    if s.Busy t then (s, []) else ({ s with queue := s.queue.clear blank }, [.cleared t])
  | .resumeAdd i wakes =>
    match s.gtZeroCond.woken[i]? with
    | some a => { s with gtZeroCond := s.gtZeroCond.resume i }.enter a wakes
    | none => (s, [])
  | .resumeRemove i wakes =>
    match s.decrementCond.woken[i]? with
    | some t => { s with decrementCond := s.decrementCond.resume i }.leave t wakes
    | none => (s, [])
  | .timeout i =>
    match s.gtZeroCond.asleep[i]? with
    | some ⟨t, d, true⟩ => ({ s with gtZeroCond := s.gtZeroCond.giveUp i }, [.timedOut t d])
    | _ => (s, [])
  | .wakeAdd i => ({ s with gtZeroCond := s.gtZeroCond.wake i }, [])
  | .wakeRemove i => ({ s with decrementCond := s.decrementCond.wake i }, [])

def after (s : Fifo Tid T) (a : FifoStep Tid T) : Fifo Tid T := (s.step a).1

def events : Fifo Tid T → List (FifoStep Tid T) → List (FifoEvent Tid T)
  | _, [] => []
  | s, a :: rest => (s.step a).2 ++ (s.after a).events rest

end Fifo

/-- The same event at a queue that is only a list: none when it cannot happen there. -/
def queueEvent {Tid T : Type} [DecidableEq T] {size : Nat} (b : BoundedQueue T size) :
    FifoEvent Tid T → Option (BoundedQueue T size)
  | .added _ d => if b.HasRoom then some (b.addIfRoom d).1 else none
  | .noRoom _ _ => if b.HasRoom then none else some b
  | .timedOut _ _ => some b
  | .took _ d =>
    match b.remove with
    | some (first, rest) => if first = d then some rest else none
    | none => none
  | .empty _ => if b.items = [] then some b else none
  | .cleared _ => some .empty

namespace SafeCircular
open RingWalk
variable {T : Type} {q : SafeCircular T} {items : List T} {d : T}

/-- The queue holds `items`, and the slot that is written next is the one behind them. -/
structure Queues (q : SafeCircular T) (items : List T) : Prop where
  counted : q.cnt + items.length = q.size
  start : Inside q.size q.nextOut
  values : items = read q.data q.size q.reversed q.nextOut items.length
  slot : q.nextNextIn = walk q.size q.reversed q.nextOut items.length

theorem Queues.remain (queues : q.Queues items) : q.remain = items.length := by
  have counted := queues.counted
  unfold SafeCircular.remain
  omega

theorem Queues.items_eq (queues : q.Queues items) : q.items = items := by
  rw [SafeCircular.items, queues.remain]
  exact queues.values.symm

theorem clear_queues (queues : q.Queues items) (blank : T) : (q.clear blank).Queues [] := by
  obtain ⟨low, high⟩ := queues.start
  constructor
  · rfl
  · constructor
    · exact Int.le_refl 0
    · exact Int.lt_of_le_of_lt low high
  · rfl
  · unfold nextNextIn next walk clear
    split_ifs <;> simp_all

theorem new_queues {size : Nat} (positive : 0 < size) (blank : T) : (new size blank).Queues [] := by
  constructor
  · rfl
  · exact ⟨Int.le_refl 0, Int.natCast_pos.mpr positive⟩
  · rfl
  · unfold nextNextIn next walk new
    split_ifs <;> simp_all

theorem addMv_queues (queues : q.Queues items) (room : items.length < q.size) (d : T) :
    ∃ q', q.addMv d = some q' ∧ q'.size = q.size ∧ q'.Queues (items ++ [d]) := by
  have counted := queues.counted
  have inside := queues.start
  have free : q.cnt ≥ 1 := by omega
  have short : (items.length : Int) < q.size := by omega
  rw [addMv, if_pos free]
  refine ⟨_, rfl, rfl, ?_⟩
  constructor
  · simp only [List.length_append, List.length_singleton]
    omega
  · exact inside
  · simp only [List.length_append, List.length_singleton, read_last, queues.slot]
    rw [read_update q.data inside short, Function.update_self, ← queues.values]
  · rw [List.length_append, List.length_singleton]
    show next q.size q.reversed q.nextNextIn = _
    rw [queues.slot]
    exact next_walk inside short

theorem Queues.rest (queues : q.Queues (d :: items)) :
    q.data q.nextOut.toNat = d ∧
      ({ q with nextOut := q.nextNextOut, cnt := q.cnt + 1 } : SafeCircular T).Queues items := by
  have counted := queues.counted
  have inside := queues.start
  have values := queues.values
  rw [List.length_cons] at counted values
  have short : (items.length : Int) < q.size := by omega
  rw [read_first q.data inside short] at values
  obtain ⟨front, rest⟩ := List.cons.inj values
  refine ⟨front.symm, ?_⟩
  constructor
  · simp only
    omega
  · exact next_inside inside
  · exact rest
  · show q.nextNextIn = walk q.size q.reversed (next q.size q.reversed q.nextOut) items.length
    rw [walk_next inside short]
    exact queues.slot

theorem removeMv_queues (queues : q.Queues (d :: items)) :
    ∃ q', q.removeMv = some (d, q') ∧ q'.size = q.size ∧ q'.Queues items := by
  obtain ⟨front, rest⟩ := queues.rest
  have remain := queues.remain
  rw [List.length_cons] at remain
  have found : q.remain > 0 := by omega
  rw [removeMv, if_pos found, front]
  by_cases last : q.remain = 1
  · rw [if_pos last]
    obtain rfl : items = [] := List.length_eq_zero_iff.mp (by omega)
    have counted := rest.counted
    refine ⟨_, rfl, rfl, ?_⟩
    constructor
    · exact counted
    · exact ⟨Int.le_refl 0, Int.lt_of_le_of_lt rest.start.1 rest.start.2⟩
    · rfl
    · unfold nextNextIn next walk
      split_ifs <;> simp_all
  · rw [if_neg last]
    exact ⟨_, rfl, rfl, rest⟩

theorem removeMv_none (queues : q.Queues []) : q.removeMv = none := by
  rw [removeMv, if_neg (by rw [queues.remain]; exact Nat.lt_irrefl 0)]

/-- The test for the last item comes too early to be met. -/
theorem removeWoken_queues (queues : q.Queues (d :: items)) :
    q.removeWoken.1 = d ∧ q.removeWoken.2.size = q.size ∧ q.removeWoken.2.Queues items := by
  obtain ⟨front, rest⟩ := queues.rest
  have remain := queues.remain
  rw [List.length_cons] at remain
  have more : q.remain ≠ 0 := by omega
  unfold removeWoken
  rw [if_neg more]
  exact ⟨front, rfl, rest⟩

end SafeCircular

section
variable {Tid T : Type} [DecidableEq T] {size : Nat} {b b' : BoundedQueue T size}

theorem replay_added (t : Tid) (d : T) (room : b.HasRoom) :
    ∃ b', queueEvent b (.added t d) = some b' ∧ b'.items = b.items ++ [d] :=
  ⟨_, if_pos room, (BoundedQueue.addIfRoom_room d room).2⟩

theorem replay_took (t : Tid) {d : T} {rest : List T} (front : b.items = d :: rest) :
    ∃ b', queueEvent b (.took t d) = some b' ∧ b'.items = rest := by
  obtain ⟨b', removed, items⟩ := BoundedQueue.remove_cons front
  exact ⟨b', by simp [queueEvent, removed], items⟩

namespace FifoEvent

def adds : FifoEvent Tid T → Option T
  | .added _ d => some d
  | _ => none

def takes : FifoEvent Tid T → Option T
  | .took _ d => some d
  | _ => none

def clears : FifoEvent Tid T → Bool
  | .cleared _ => true
  | _ => false

end FifoEvent

theorem replay_values {e : FifoEvent Tid T} (replayed : queueEvent b e = some b') (keeps : e.clears = false) :
    b.items ++ e.adds.toList = e.takes.toList ++ b'.items := by
  cases e with
  | added t d =>
    rw [queueEvent] at replayed
    split at replayed
    · rename_i room
      obtain rfl := Option.some.inj replayed
      exact (BoundedQueue.addIfRoom_room d room).2.symm
    · cases replayed
  | noRoom t d =>
    rw [queueEvent] at replayed
    split at replayed
    · cases replayed
    · obtain rfl := Option.some.inj replayed
      exact List.append_nil _
  | timedOut t d =>
    obtain rfl := Option.some.inj replayed
    exact List.append_nil _
  | took t d =>
    cases removed : b.remove with
    | none => simp [queueEvent, removed] at replayed
    | some r =>
      have is := BoundedQueue.remove_some removed
      simp only [queueEvent, removed] at replayed
      split at replayed
      · rename_i same
        obtain rfl := Option.some.inj replayed
        rw [is, same]
        exact List.append_nil _
      · cases replayed
  | empty t =>
    rw [queueEvent] at replayed
    split at replayed
    · obtain rfl := Option.some.inj replayed
      exact List.append_nil _
    · cases replayed
  | cleared t => cases keeps

/-- What has been added is what has been taken, in the same order, and what is still there. -/
theorem replayed_values {events : List (FifoEvent Tid T)}
    (replayed : events.foldlM queueEvent b = some b') (keeps : ∀ e ∈ events, e.clears = false) :
    b.items ++ events.filterMap FifoEvent.adds = events.filterMap FifoEvent.takes ++ b'.items := by
  induction events generalizing b with
  | nil =>
    obtain rfl := Option.some.inj replayed
    exact List.append_nil _
  | cons e events ih =>
    rw [List.foldlM_cons] at replayed
    obtain ⟨middle, first, others⟩ := Option.bind_eq_some_iff.mp replayed
    have here := replay_values first (keeps e List.mem_cons_self)
    have later := ih others fun e' member => keeps e' (List.mem_cons_of_mem _ member)
    have adds : (e :: events).filterMap FifoEvent.adds =
        e.adds.toList ++ events.filterMap FifoEvent.adds := by
      cases added : e.adds <;> simp [added]
    have takes : (e :: events).filterMap FifoEvent.takes =
        e.takes.toList ++ events.filterMap FifoEvent.takes := by
      cases taken : e.takes <;> simp [taken]
    rw [adds, takes, ← List.append_assoc, here, List.append_assoc, later, List.append_assoc]

end

namespace Fifo
open SafeCircular RingWalk
variable {Tid T : Type} [DecidableEq Tid] [DecidableEq T] {size : Nat} {s : Fifo Tid T}
  {b : BoundedQueue T size}

structure Follows (s : Fifo Tid T) (b : BoundedQueue T size) : Prop where
  size : s.queue.size = size
  queues : s.queue.Queues b.items

def Replays (r : Fifo Tid T × List (FifoEvent Tid T)) (b : BoundedQueue T size) : Prop :=
  ∃ b', r.2.foldlM queueEvent b = some b' ∧ r.1.Follows b'

omit [DecidableEq Tid] in
theorem replays_nothing (follows : s.Follows b) : Replays (s, []) b := ⟨b, rfl, follows⟩

omit [DecidableEq Tid] in
theorem replays_one {e : FifoEvent Tid T} {b' : BoundedQueue T size} (replayed : queueEvent b e = some b')
    (follows : s.Follows b') : Replays (s, [e]) b :=
  ⟨b', by simp [replayed], follows⟩

omit [DecidableEq Tid] [DecidableEq T] in
theorem Follows.full (follows : s.Follows b) (full : ¬ b.HasRoom) (d : T) : s.queue.addMv d = none := by
  have counted := follows.queues.counted
  have size := follows.size
  have bounded := b.bounded
  rw [addMv, if_neg]
  unfold BoundedQueue.HasRoom at full
  omega

omit [DecidableEq Tid] [DecidableEq T] in
theorem Follows.room (follows : s.Follows b) (room : b.HasRoom) (d : T) :
    ∃ q, s.queue.addMv d = some q ∧ q.size = size ∧ q.Queues (b.items ++ [d]) := by
  have size := follows.size
  have within : b.items.length < s.queue.size := by rwa [size]
  obtain ⟨q, added, same, queues⟩ := addMv_queues follows.queues within d
  exact ⟨q, added, same.trans size, queues⟩

omit [DecidableEq Tid] in
theorem enter_replays (follows : s.Follows b) (a : Adding Tid T) (wakes : Nat) :
    Replays (s.enter a wakes) b := by
  unfold enter
  by_cases room : b.HasRoom
  · obtain ⟨q, added, same, queues⟩ := follows.room room a.the_d
    obtain ⟨b', replayed, items⟩ := replay_added a.tid a.the_d room
    rw [added]
    exact replays_one replayed ⟨same, items ▸ queues⟩
  · rw [follows.full room]
    exact replays_nothing ⟨follows.size, follows.queues⟩

omit [DecidableEq Tid] in
theorem addIfRoom_replays (follows : s.Follows b) (t : Tid) (d : T) (wakes : Nat) :
    Replays (s.addIfRoom t d wakes) b := by
  unfold addIfRoom
  by_cases room : b.HasRoom
  · obtain ⟨q, added, same, queues⟩ := follows.room room d
    obtain ⟨b', replayed, items⟩ := replay_added t d room
    rw [added]
    exact replays_one replayed ⟨same, items ▸ queues⟩
  · rw [follows.full room]
    exact replays_one (if_neg room) follows

omit [DecidableEq Tid] in
theorem remove_replays (follows : s.Follows b) (t : Tid) (wakes : Nat) :
    Replays (s.remove t wakes) b := by
  unfold remove
  have queues := follows.queues
  cases front : b.items with
  | nil =>
    rw [front] at queues
    rw [removeMv_none queues]
    exact replays_one (if_pos front) follows
  | cons d rest =>
    rw [front] at queues
    obtain ⟨q, removed, same, queues'⟩ := removeMv_queues queues
    obtain ⟨b', replayed, items⟩ := replay_took t front
    rw [removed]
    exact replays_one replayed ⟨same.trans follows.size, items ▸ queues'⟩

omit [DecidableEq Tid] in
theorem leave_replays (follows : s.Follows b) (t : Tid) (wakes : Nat) :
    Replays (s.leave t wakes) b := by
  unfold leave
  have queues := follows.queues
  have counted := queues.counted
  cases front : b.items with
  | nil =>
    rw [front, List.length_nil] at counted
    rw [if_pos (by omega)]
    exact replays_one (if_pos front) follows
  | cons d rest =>
    rw [front] at queues
    rw [front, List.length_cons] at counted
    obtain ⟨value, same, queues'⟩ := removeWoken_queues queues
    obtain ⟨b', replayed, items⟩ := replay_took t front
    rw [if_neg (by omega), value]
    exact replays_one replayed ⟨same.trans follows.size, items ▸ queues'⟩

omit [DecidableEq Tid] in
theorem removeOrBlock_replays (follows : s.Follows b) (t : Tid) (wakes : Nat) :
    Replays (s.removeOrBlock t wakes) b := by
  have removes := remove_replays follows t wakes
  unfold removeOrBlock
  unfold remove at removes
  cases removed : s.queue.removeMv with
  | some r =>
    rw [removed] at removes
    exact removes
  | none =>
    dsimp only
    split
    · exact replays_nothing ⟨follows.size, follows.queues⟩
    · exact leave_replays follows t wakes

theorem step_replays (follows : s.Follows b) (a : FifoStep Tid T) : Replays (s.step a) b := by
  have nothing := replays_nothing follows
  cases a with
  | add t d timed wakes =>
    rw [step]
    split
    · exact nothing
    · exact enter_replays follows _ wakes
  | addIfRoom t d wakes =>
    rw [step]
    split
    · exact nothing
    · exact addIfRoom_replays follows t d wakes
  | remove t wakes =>
    rw [step]
    split
    · exact nothing
    · exact remove_replays follows t wakes
  | removeOrBlock t wakes =>
    rw [step]
    split
    · exact nothing
    · exact removeOrBlock_replays follows t wakes
  | unblockAllRemovers t =>
    rw [step]
    split
    · exact nothing
    · exact replays_nothing ⟨follows.size, follows.queues⟩
  | clear t blank =>
    rw [step]
    split
    · exact nothing
    · exact replays_one rfl ⟨follows.size, clear_queues follows.queues blank⟩
  | resumeAdd i wakes =>
    rw [step]
    split
    · have resumed : ({ s with gtZeroCond := s.gtZeroCond.resume i } : Fifo Tid T).Follows b :=
        ⟨follows.size, follows.queues⟩
      exact enter_replays resumed _ wakes
    · exact nothing
  | resumeRemove i wakes =>
    rw [step]
    split
    · have resumed : ({ s with decrementCond := s.decrementCond.resume i } : Fifo Tid T).Follows b :=
        ⟨follows.size, follows.queues⟩
      exact leave_replays resumed _ wakes
    · exact nothing
  | timeout i =>
    rw [step]
    split
    · exact replays_one rfl ⟨follows.size, follows.queues⟩
    · exact nothing
  | wakeAdd i => exact replays_nothing ⟨follows.size, follows.queues⟩
  | wakeRemove i => exact replays_nothing ⟨follows.size, follows.queues⟩

theorem run_replays (follows : s.Follows b) (steps : List (FifoStep Tid T)) :
    ∃ b', (s.events steps).foldlM queueEvent b = some b' ∧ (steps.foldl after s).Follows b' := by
  induction steps generalizing s b with
  | nil => exact ⟨b, rfl, follows⟩
  | cons a rest ih =>
    obtain ⟨middle, replayed, follows'⟩ := step_replays follows a
    obtain ⟨b', others, follows''⟩ := ih follows'
    exact ⟨b', by rw [events, List.foldlM_append, replayed]; exact others, follows''⟩

omit [DecidableEq Tid] [DecidableEq T] in
theorem new_follows (positive : 0 < size) (blank : T) :
    (new size blank : Fifo Tid T).Follows (.empty : BoundedQueue T size) :=
  ⟨rfl, new_queues positive blank⟩

/-- Whatever the threads call and however they interleave, with wakes of any kind: every call
    has the effect of one event at a bounded list, in the order of the mutex, and the
    positions stay inside the array. -/
theorem threads_queue_up (positive : 0 < size) (blank : T) (steps : List (FifoStep Tid T)) :
    ∃ b : BoundedQueue T size,
      ((new size blank).events steps).foldlM queueEvent BoundedQueue.empty = some b ∧
      (steps.foldl after (new size blank)).queue.items = b.items ∧
      Inside size (steps.foldl after (new size blank)).queue.nextOut ∧
      Inside size (steps.foldl after (new size blank)).queue.nextNextIn ∧
      ((∀ e ∈ (new size blank).events steps, e.clears = false) →
        ((new size blank).events steps).filterMap FifoEvent.adds =
          ((new size blank).events steps).filterMap FifoEvent.takes ++ b.items) := by
  obtain ⟨b, replayed, follows⟩ := run_replays (@new_follows Tid T size positive blank) steps
  have start := follows.queues.start
  have bounded := b.bounded
  refine ⟨b, replayed, follows.queues.items_eq, ?_, ?_, ?_⟩
  · rw [follows.size] at start
    exact start
  · rw [follows.queues.slot]
    rw [follows.size] at start ⊢
    exact walk_inside start (by omega)
  · intro keeps
    exact replayed_values replayed keeps

/-- A remover waits for the first value, an adder for room. -/
theorem threads_queue_up_waiting :
    let steps : List (FifoStep Nat Nat) := [.removeOrBlock 7 0, .add 1 10 false 0, .add 2 20 true 0,
      .resumeRemove 0 0, .resumeAdd 0 0]
    ∃ b : BoundedQueue Nat 1,
      ((new 1 0).events steps).foldlM queueEvent BoundedQueue.empty = some b ∧
      (steps.foldl after (new 1 0)).queue.items = b.items ∧
      Inside (1 : Nat) (steps.foldl after (new 1 0)).queue.nextOut ∧
      Inside (1 : Nat) (steps.foldl after (new 1 0)).queue.nextNextIn ∧
      ((∀ e ∈ (new 1 0).events steps, e.clears = false) →
        ((new 1 0).events steps).filterMap FifoEvent.adds =
          ((new 1 0).events steps).filterMap FifoEvent.takes ++ b.items) :=
  threads_queue_up (by decide) 0 _

end Fifo

end GreaseLog
