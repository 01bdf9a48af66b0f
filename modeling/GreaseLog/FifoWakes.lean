import GreaseLog.FifoThreads

/- No thread sleeps beside what it waits for: what the signals of tw_sema2.h do, and the
   one call that leaves them out. -/
namespace GreaseLog

namespace Fifo
open SafeCircular
variable {Tid T : Type} {size : Nat} {s : Fifo Tid T} {b : BoundedQueue T size}

/-- Each free slot has an adder on its way or none sleeps, and each value a remover. -/
def Attended (s : Fifo Tid T) : Prop :=
  s.gtZeroCond.Covered s.queue.cnt ∧ s.decrementCond.Covered s.queue.remain

instance (s : Fifo Tid T) : Decidable s.Attended := inferInstanceAs (Decidable (_ ∧ _))

/-- clear frees the slots without a signal. -/
def Signals [DecidableEq Tid] (s : Fifo Tid T) : FifoStep Tid T → Prop
  | .clear t _ => s.Busy t ∨ s.gtZeroCond.Covered s.queue.size
  | _ => True

instance [DecidableEq Tid] (s : Fifo Tid T) : ∀ a, Decidable (s.Signals a)
  | .clear t _ => inferInstanceAs (Decidable (s.Busy t ∨ s.gtZeroCond.Covered s.queue.size))
  | .add _ _ _ _ | .addIfRoom _ _ _ | .remove _ _ | .removeOrBlock _ _ | .unblockAllRemovers _
  | .resumeAdd _ _ | .resumeRemove _ _ | .timeout _ | .wakeAdd _ | .wakeRemove _ =>
    inferInstanceAs (Decidable True)

theorem addMv_counts {q q' : SafeCircular T} {d : T} (added : q.addMv d = some q') (le : q.cnt ≤ q.size) :
    q.cnt = q'.cnt + 1 ∧ q'.remain = q.remain + 1 := by
  unfold addMv at added
  split at added
  · obtain rfl := Option.some.inj added
    unfold SafeCircular.remain
    dsimp only
    omega
  · cases added

theorem addMv_stops {q : SafeCircular T} {d : T} (full : q.addMv d = none) : q.cnt = 0 := by
  unfold addMv at full
  split at full
  · cases full
  · omega

theorem removeMv_counts {q q' : SafeCircular T} {d : T} (removed : q.removeMv = some (d, q')) :
    q'.cnt = q.cnt + 1 ∧ q.remain = q'.remain + 1 := by
  unfold removeMv at removed
  split at removed
  · obtain ⟨_, rfl⟩ := Prod.mk.inj (Option.some.inj removed)
    unfold SafeCircular.remain at *
    split
    · dsimp only
      omega
    · dsimp only
      omega
  · cases removed

theorem removeMv_stops {q : SafeCircular T} (nothing : q.removeMv = none) : q.remain = 0 := by
  unfold removeMv at nothing
  split at nothing
  · cases nothing
  · omega

theorem removeWoken_counts (q : SafeCircular T) (some : q.cnt < q.size) :
    q.removeWoken.2.cnt = q.cnt + 1 ∧ q.remain = q.removeWoken.2.remain + 1 := by
  have more : q.remain ≠ 0 := by
    unfold SafeCircular.remain
    omega
  unfold removeWoken
  rw [if_neg more]
  unfold SafeCircular.remain
  dsimp only
  omega

theorem enter_attended (le : s.queue.cnt ≤ s.queue.size)
    (slots : ∀ n, s.queue.cnt = n + 1 → s.gtZeroCond.Covered n)
    (values : s.decrementCond.Covered s.queue.remain) (a : Adding Tid T) (wakes : Nat) :
    (s.enter a wakes).1.Attended := by
  unfold enter
  cases added : s.queue.addMv a.the_d with
  | some q =>
    obtain ⟨cnt, remain⟩ := addMv_counts added le
    constructor
    · exact slots q.cnt cnt
    · show (s.decrementCond.signal wakes).Covered q.remain
      rw [remain]
      exact values.signal wakes
  | none =>
    have full := addMv_stops added
    constructor
    · show (s.gtZeroCond.wait a).Covered s.queue.cnt
      rw [full]
      exact CondVar.covered_none _
    · exact values

theorem addIfRoom_attended (le : s.queue.cnt ≤ s.queue.size) (attended : s.Attended) (t : Tid) (d : T)
    (wakes : Nat) : (s.addIfRoom t d wakes).1.Attended := by
  unfold addIfRoom
  cases added : s.queue.addMv d with
  | some q =>
    obtain ⟨cnt, remain⟩ := addMv_counts added le
    have fewer : q.cnt ≤ s.queue.cnt := by omega
    constructor
    · exact attended.1.fewer fewer
    · show (s.decrementCond.signal wakes).Covered q.remain
      rw [remain]
      exact attended.2.signal wakes
  | none => exact attended

theorem remove_attended (attended : s.Attended) (t : Tid) (wakes : Nat) :
    (s.remove t wakes).1.Attended := by
  unfold remove
  cases removed : s.queue.removeMv with
  | some r =>
    obtain ⟨d, q⟩ := r
    obtain ⟨cnt, remain⟩ := removeMv_counts removed
    have fewer : q.remain ≤ s.queue.remain := by omega
    constructor
    · show (s.gtZeroCond.signal wakes).Covered q.cnt
      rw [cnt]
      exact attended.1.signal wakes
    · exact attended.2.fewer fewer
  | none => exact attended

theorem leave_attended (slots : s.gtZeroCond.Covered s.queue.cnt)
    (values : ∀ n, s.queue.remain = n + 1 → s.decrementCond.Covered n) (t : Tid) (wakes : Nat) :
    (s.leave t wakes).1.Attended := by
  unfold leave
  split
  · rename_i nothing
    have none : s.queue.remain = 0 := by
      unfold SafeCircular.remain
      omega
    constructor
    · exact slots
    · rw [none]
      exact CondVar.covered_none _
  · rename_i some
    obtain ⟨cnt, remain⟩ := removeWoken_counts s.queue (Nat.lt_of_not_le some)
    constructor
    · show (s.gtZeroCond.signal wakes).Covered s.queue.removeWoken.2.cnt
      rw [cnt]
      exact slots.signal wakes
    · exact values _ remain

theorem removeOrBlock_attended (attended : s.Attended) (t : Tid) (wakes : Nat) :
    (s.removeOrBlock t wakes).1.Attended := by
  have removes := remove_attended attended t wakes
  unfold removeOrBlock
  unfold remove at removes
  cases removed : s.queue.removeMv with
  | some r =>
    rw [removed] at removes
    exact removes
  | none =>
    have nothing := removeMv_stops removed
    dsimp only
    split
    · constructor
      · exact attended.1
      · show (s.decrementCond.wait t).Covered s.queue.remain
        rw [nothing]
        exact CondVar.covered_none _
    · refine leave_attended attended.1 ?_ t wakes
      intro n some
      rw [nothing] at some
      cases some

variable [DecidableEq Tid]

/-- One step: only a clear can leave a thread asleep beside what it waits for. -/
theorem step_attended (follows : s.Follows b) (attended : s.Attended) (a : FifoStep Tid T) :
    (s.after a).Attended ↔ s.Signals a := by
  have le : s.queue.cnt ≤ s.queue.size := by
    have counted := follows.queues.counted
    omega
  have same : ∀ {r : Fifo Tid T × List (FifoEvent Tid T)}, r.1.Attended → (r.1.Attended ↔ True) :=
    fun kept => iff_of_true kept trivial
  unfold after
  cases a with
  | add t d timed wakes =>
    rw [step]
    split
    · exact same attended
    · refine same (enter_attended le ?_ attended.2 _ wakes)
      intro n some
      exact attended.1.fewer (by omega)
  | addIfRoom t d wakes =>
    rw [step]
    split
    · exact same attended
    · exact same (addIfRoom_attended le attended t d wakes)
  | remove t wakes =>
    rw [step]
    split
    · exact same attended
    · exact same (remove_attended attended t wakes)
  | removeOrBlock t wakes =>
    rw [step]
    split
    · exact same attended
    · exact same (removeOrBlock_attended attended t wakes)
  | unblockAllRemovers t =>
    rw [step]
    split
    · exact same attended
    · exact iff_of_true ⟨attended.1, CondVar.covered_broadcast _ _⟩ trivial
  | clear t blank =>
    rw [step, Signals]
    split
    · rename_i busy
      exact iff_of_true attended (Or.inl busy)
    · rename_i idle
      have nothing : (s.queue.clear blank).remain = 0 := Nat.sub_self _
      unfold Attended
      dsimp only
      rw [nothing]
      constructor
      · intro both
        exact Or.inr both.1
      · intro signals
        exact ⟨signals.resolve_left idle, CondVar.covered_none _⟩
  | resumeAdd i wakes =>
    rw [step]
    split
    · rename_i a woken
      obtain ⟨inside, _⟩ := List.getElem?_eq_some_iff.mp woken
      have slots : ∀ n, s.queue.cnt = n + 1 → (s.gtZeroCond.resume i).Covered n := by
        intro n some
        have covered := attended.1
        rw [some] at covered
        exact covered.resume inside
      exact same (@enter_attended _ _ { s with gtZeroCond := s.gtZeroCond.resume i } le slots
        attended.2 a wakes)
    · exact same attended
  | resumeRemove i wakes =>
    rw [step]
    split
    · rename_i t woken
      obtain ⟨inside, _⟩ := List.getElem?_eq_some_iff.mp woken
      have values : ∀ n, s.queue.remain = n + 1 → (s.decrementCond.resume i).Covered n := by
        intro n some
        have covered := attended.2
        rw [some] at covered
        exact covered.resume inside
      exact same (@leave_attended _ _ { s with decrementCond := s.decrementCond.resume i } attended.1
        values t wakes)
    · exact same attended
  | timeout i =>
    rw [step]
    split
    · exact iff_of_true ⟨attended.1.giveUp i, attended.2⟩ trivial
    · exact same attended
  | wakeAdd i => exact iff_of_true ⟨attended.1.wake i, attended.2⟩ trivial
  | wakeRemove i => exact iff_of_true ⟨attended.1, attended.2.wake i⟩ trivial

/-- In no state of a run does a thread sleep beside what it waits for without another on its
    way to it, unless a clear has come while more adders slept than that. -/
theorem attended_iff [DecidableEq T] (positive : 0 < size) (blank : T) (steps : List (FifoStep Tid T)) :
    (∀ n, ((steps.take n).foldl after (new size blank)).Attended) ↔
      Runs.Checked Signals after (new size blank) steps := by
  have begins : (new size blank : Fifo Tid T).Attended := ⟨Or.inl rfl, Or.inl rfl⟩
  have each : ∀ (s : Fifo Tid T) a, (∃ b : BoundedQueue T size, s.Follows b) → s.Attended → True →
      ((s.after a).Attended ↔ s.Signals a) ∧
        (s.Signals a → ∃ b : BoundedQueue T size, (s.after a).Follows b) := by
    intro s a follows attended _
    obtain ⟨b, follows⟩ := follows
    obtain ⟨b', _, follows'⟩ := step_replays follows a
    exact ⟨step_attended follows attended a, fun _ => ⟨b', follows'⟩⟩
  have iff := Runs.always_iff_checked_while each ⟨_, new_follows positive blank⟩
    (Runs.checked_trivial after steps _)
  exact iff.trans (and_iff_right begins)

/-- The second adder waits at a full queue, and goes on when a value is taken; where the queue
    is cleared instead, it is left asleep. -/
theorem attended_iff_cleared :
    let goesOn : List (FifoStep Nat Nat) :=
      [.add 1 10 false 0, .add 2 20 false 0, .removeOrBlock 3 0, .resumeAdd 0 0]
    let cleared : List (FifoStep Nat Nat) := [.add 1 10 false 0, .add 2 20 false 0, .clear 3 0]
    (∀ n, ((goesOn.take n).foldl after (new 1 0)).Attended) ∧
      ¬ ∀ n, ((cleared.take n).foldl after (new 1 0)).Attended := by
  intro goesOn cleared
  have first := attended_iff Nat.one_pos 0 goesOn
  have second := attended_iff Nat.one_pos 0 cleared
  exact ⟨first.mpr (by decide), fun always => absurd (second.mp always) (by decide)⟩

/-- When nobody is on the way, adders sleep only at a full queue and removers only at an empty
    one, so that never both of them sleep. -/
theorem never_both_asleep [DecidableEq T] (positive : 0 < size) (blank : T)
    {steps : List (FifoStep Tid T)} (signals : Runs.Checked Signals after (new size blank) steps)
    (nobody : (steps.foldl after (new size blank)).gtZeroCond.woken = [] ∧
      (steps.foldl after (new size blank)).decrementCond.woken = []) :
    ((steps.foldl after (new size blank)).gtZeroCond.asleep ≠ [] →
      (steps.foldl after (new size blank)).queue.items.length = size) ∧
    ((steps.foldl after (new size blank)).decrementCond.asleep ≠ [] →
      (steps.foldl after (new size blank)).queue.items = []) ∧
    ((steps.foldl after (new size blank)).gtZeroCond.asleep = [] ∨
      (steps.foldl after (new size blank)).decrementCond.asleep = []) := by
  have always := (attended_iff positive blank steps).mpr signals steps.length
  rw [List.take_length] at always
  obtain ⟨b, _, follows⟩ := run_replays (@new_follows Tid T size positive blank) steps
  have items := follows.queues.items_eq
  have remain := follows.queues.remain
  have counted := follows.queues.counted
  have length := follows.size
  obtain ⟨slots, values⟩ := always
  have full : (steps.foldl after (new size blank)).gtZeroCond.asleep ≠ [] →
      (steps.foldl after (new size blank)).queue.items.length = size := by
    intro asleep
    have none := slots.resolve_left asleep
    rw [nobody.1] at none
    rw [items]
    simp only [List.length_nil] at none
    omega
  have empty : (steps.foldl after (new size blank)).decrementCond.asleep ≠ [] →
      (steps.foldl after (new size blank)).queue.items = [] := by
    intro asleep
    have none := values.resolve_left asleep
    rw [nobody.2, remain] at none
    rw [items]
    exact List.length_eq_zero_iff.mp (Nat.le_zero.mp none)
  refine ⟨full, empty, ?_⟩
  by_contra both
  rw [not_or] at both
  have some := full both.1
  rw [empty both.2] at some
  exact absurd some (Nat.ne_of_lt positive)

theorem never_both_asleep_waiting :
    let steps : List (FifoStep Nat Nat) := [.removeOrBlock 7 0, .removeOrBlock 8 0, .add 1 10 false 0,
      .resumeRemove 0 0]
    ((steps.foldl after (new 1 0)).gtZeroCond.asleep ≠ [] →
      (steps.foldl after (new 1 0)).queue.items.length = 1) ∧
    ((steps.foldl after (new 1 0)).decrementCond.asleep ≠ [] →
      (steps.foldl after (new 1 0)).queue.items = []) ∧
    ((steps.foldl after (new 1 0)).gtZeroCond.asleep = [] ∨
      (steps.foldl after (new 1 0)).decrementCond.asleep = []) :=
  never_both_asleep (by decide) 0 (by decide) ⟨rfl, rfl⟩

end Fifo

end GreaseLog
