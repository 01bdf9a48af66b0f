import GreaseLog.Delivery
import GreaseLog.LogCall

/- The targets that a message is not to reach. The list stays with the message on
   every way but one: the message that write() re-queues is built without it. -/
namespace GreaseLog

def JsIgnores.ids : JsIgnores → List TargetId
  | .array values => values
  | .uint32 v => [v]
  | .other => []

theorem copyIgnores_at (values : List TargetId) (list : Fin 11 → TargetId) {i : Nat} {j : Fin 11}
    (room : i + values.length ≤ MAX_IGNORE_LIST) (after : i ≤ j.val)
    (inside : j.val ≤ i + values.length) :
    copyIgnores list i values j = values.getD (j.val - i) 0 := by
  induction values generalizing list i with
  | nil =>
    have same : j.val = i := Nat.le_antisymm inside after
    simp [copyIgnores, setIgnore, same]
  | cons v rest ih =>
    rw [List.length_cons] at room inside
    have below : ¬ i ≥ MAX_IGNORE_LIST := by omega
    simp only [copyIgnores, below, if_false]
    by_cases same : j.val = i
    · rw [copyIgnores_before rest _ (by omega)]
      simp [setIgnore, same]
    · rw [ih _ (by omega) (by omega) (by omega)]
      have next : j.val - i = (j.val - (i + 1)) + 1 := by omega
      simp [next]

theorem ofFn_front {n : Nat} (f : Fin n → TargetId) {values : List TargetId} (room : values.length < n)
    (front : ∀ j : Fin n, j.val ≤ values.length → f j = values.getD j.val 0) :
    ∃ rest, List.ofFn f = values ++ 0 :: rest := by
  induction values generalizing n with
  | nil =>
    obtain ⟨m, rfl⟩ : ∃ m, n = m + 1 := ⟨n - 1, by omega⟩
    exact ⟨List.ofFn fun j : Fin m => f j.succ, by simpa [List.ofFn_succ] using front 0 (Nat.zero_le _)⟩
  | cons v others ih =>
    obtain ⟨m, rfl⟩ : ∃ m, n = m + 1 := ⟨n - 1, by omega⟩
    rw [List.length_cons] at room front
    obtain ⟨rest, eq⟩ := ih (fun j : Fin m => f j.succ) (by omega) fun j inside => by
      simpa using front j.succ (by simpa using inside)
    refine ⟨rest, ?_⟩
    rw [List.ofFn_succ, eq]
    simpa using front 0 (Nat.zero_le _)

theorem scanIgnores_front {values rest : List TargetId} (nonzero : 0 ∉ values)
    (short : values.length ≤ MAX_IGNORE_LIST) (target : TargetId) :
    scanIgnores target ((values ++ 0 :: rest).take MAX_IGNORE_LIST) = values.contains target := by
  have kept : ∀ v ∈ values, (v != 0) = true := fun v mem => by
    simpa using fun zero : v = 0 => nonzero (zero ▸ mem)
  rw [scanIgnores_contains, List.take_append, List.take_of_length_le short,
    List.takeWhile_append_of_pos kept]
  have none : ((0 :: rest).take (MAX_IGNORE_LIST - values.length)).takeWhile (· != 0) = [] := by
    cases MAX_IGNORE_LIST - values.length <;> simp
  rw [none, List.append_nil]

/-- What a call of Log was given to ignore is what the routing loop ignores. -/
theorem stored_ignoring {ignores : JsIgnores} (own : ignores ≠ .other)
    (short : ignores.ids.length ≤ MAX_IGNORE_LIST) (nonzero : 0 ∉ ignores.ids) {m : LogMeta}
    (marked : m.hasIgnores = true) (list : Fin 11 → TargetId) (target : TargetId) :
    (⟨m, ignores.store list⟩ : ExtraLogMeta).ignoring target = ignores.ids.contains target := by
  have front : ∀ j : Fin 11, j.val ≤ ignores.ids.length →
      ignores.store list j = ignores.ids.getD j.val 0 := by
    intro j inside
    cases ignores with
    | array values =>
      exact copyIgnores_at values list (by simpa [JsIgnores.ids] using short) (Nat.zero_le _)
        (by simpa [JsIgnores.ids] using inside)
    | uint32 v =>
      by_cases zero : j.val = 0
      · simp [JsIgnores.store, JsIgnores.ids, setIgnore, zero]
      · have one : j.val = 1 := by
          simp only [JsIgnores.ids, List.length_singleton] at inside
          omega
        simp [JsIgnores.store, JsIgnores.ids, setIgnore, one]
    | other => exact absurd rfl own
  obtain ⟨rest, eq⟩ := ofFn_front _ (by unfold MAX_IGNORE_LIST at short; omega) front
  simp only [ExtraLogMeta.ignoring, marked, Bool.true_and, eq]
  exact scanIgnores_front nonzero short target

namespace Logger
variable {L : Logger} {x : ExtraLogMeta} {s : List Byte}

theorem routed_mem {call : Selected} (mem : call ∈ L.routed x) :
    call.target = 0 ∨ x.ignoring call.target = false := by
  obtain ⟨-, -, -, -, extras⟩ := sift_keeps L.filters L.opts x.m
  simp only [Logger.routed] at mem
  split at mem
  · rcases route_mem mem with ⟨default, _⟩ | ⟨_, _, apart⟩
    · exact Or.inl default
    · simp only [ExtraLogMeta.ignoring, LogMeta.hasIgnores, extras] at apart ⊢
      exact Or.inr apart
  · simp at mem

theorem log_not_queued (idle : L.owner.internalCmdQueue.items = []) :
    (L._log x s).2 = .queued ∨
      (s.length ≤ L.opts.bufferSize ∧ L.masterBufferAvail.items = [] ∧ L._log x s = (L, .poolEmpty)) := by
  have room : L.owner.HasRoom := by
    unfold Owner.HasRoom BoundedQueue.HasRoom
    rw [idle]
    decide
  rcases log_cases L x s with ⟨_, h⟩ | ⟨_, slot, avail, _, h⟩ | none
  · left
    simp [h, enqueueOverflow, Owner.addCmd_room _ room]
  · left
    simp [h, enqueueBuffer, Owner.addCmd_room _ room]
  · exact Or.inr none

theorem logCall_extras {static : ExtraLogMeta} {args : LogArgs} {ignores : JsIgnores}
    (extras : args.extras = some ignores)
    (logged : (logCall L.filters L.opts static args).2 = some (x, s)) :
    ∃ level, (sift L.filters L.opts (args.fields level)).1 = true ∧
      x = ⟨{ (sift L.filters L.opts (args.fields level)).2 with extras := 1 },
        ignores.store static.ignoreList⟩ := by
  unfold logCall at logged
  split at logged
  · rename_i text level _ _
    simp only at logged
    split at logged
    · rename_i passes
      simp only [extras, Option.some.injEq, Prod.mk.injEq] at logged
      exact ⟨level, passes, logged.1.symm⟩
    · simp at logged
  · simp at logged

/-- Whether handling the message makes a call without regard to its list: it goes
    through the pool, a call of write() puts it back into the queue, and without
    the list an ignored target is selected. -/
def LosesIgnores (L : Logger) (x : ExtraLogMeta) (s : List Byte) (ids : List TargetId) : Prop :=
  s.length ≤ L.opts.bufferSize ∧ L.masterBufferAvail.items ≠ [] ∧
    (∃ call ∈ L.routed x, L.requeues s call = true) ∧
    ∃ call ∈ L.routed { x with ignoreList := SingleLog.noIgnores }, call.target ∈ ids

variable (env : Nat → WriteEnv)

/-- A message of Log with an ignore list makes no call on an ignored target, except
    under exactly this condition. -/
theorem ignored_not_called_iff (reachable : L.Reachable) (idle : L.owner.internalCmdQueue.items = [])
    {static : ExtraLogMeta} {args : LogArgs} {ignores : JsIgnores}
    (extras : args.extras = some ignores) (own : ignores ≠ .other)
    (short : ignores.ids.length ≤ MAX_IGNORE_LIST) (nonzero : 0 ∉ ignores.ids)
    (logged : (logCall L.filters L.opts static args).2 = some (x, s)) :
    (∀ e ∈ (handleInternalCmd env (L._log x s).1).2, ∀ call, e.call? = some call →
        call.target ≠ DEFAULT_TARGET → call.target ∉ ignores.ids) ↔
      ¬ L.LosesIgnores x s ignores.ids := by
  have wf := reachable_wf reachable
  obtain ⟨level, passes, rfl⟩ := logCall_extras extras logged
  let x : ExtraLogMeta := ⟨{ (sift L.filters L.opts (args.fields level)).2 with extras := 1 },
    ignores.store static.ignoreList⟩
  have heeded : ∀ call ∈ L.routed x, call.target ≠ DEFAULT_TARGET → call.target ∉ ignores.ids := by
    intro call mem other listed
    have ignoring : x.ignoring call.target = ignores.ids.contains call.target :=
      stored_ignoring own short nonzero rfl _ _
    rcases routed_mem mem with default | apart
    · exact other default
    · rw [ignoring] at apart
      simp [listed] at apart
  have stable : (L.sifted x).m = x.m := by
    simp only [Logger.sifted, x, sift_extras, sift_again L.filters L.opts _ passes]
  rcases log_not_queued (x := x) (s := s) idle with queued | ⟨_, nothing, unlogged⟩
  · rcases Nat.lt_or_ge L.opts.bufferSize s.length with large | small
    · obtain ⟨named, _⟩ := large_events env wf large queued idle
      refine iff_of_true (fun e mem call name => heeded call ?_) fun loses => ?_
      · rw [← named]
        exact List.mem_filterMap.mpr ⟨e, mem, name⟩
      · exact absurd loses.1 (by omega)
    · obtain ⟨writes, rest, events, shortEvents⟩ := short_events env wf small queued idle
      have again := shortEvents.again
      rw [stable] at again
      have available : L.masterBufferAvail.items ≠ [] := by
        intro none
        have removed := (BoundedQueue.remove_none_iff _).mpr none
        have large : ¬ s.length > L.opts.bufferSize := by omega
        simp [_log, large, takeBuffer, removed] at queued
      rw [events]
      constructor
      · rintro never ⟨_, _, ⟨requeuer, requeuing, requeued⟩, call, mem, listed⟩
        have some : 0 < (L.routed x).countP (L.requeues s) :=
          List.countP_pos_iff.mpr ⟨requeuer, requeuing, requeued⟩
        have made : call ∈ rest.filterMap Event.call? := by
          rw [again]
          exact List.mem_flatten.mpr ⟨_, List.mem_replicate.mpr ⟨by omega, rfl⟩, mem⟩
        obtain ⟨e, inside, name⟩ := List.mem_filterMap.mp made
        refine never e (List.mem_append_right _ inside) call name (fun default => ?_) listed
        rw [default] at listed
        exact nonzero listed
      · intro keeps e mem call name other listed
        rcases List.mem_append.mp mem with direct | derived
        · have made : call ∈ writes.filterMap Event.call? := List.mem_filterMap.mpr ⟨e, direct, name⟩
          rw [named_filterMap shortEvents.written] at made
          exact heeded call made other listed
        · have made : call ∈ rest.filterMap Event.call? := List.mem_filterMap.mpr ⟨e, derived, name⟩
          rw [again] at made
          obtain ⟨_, copies, inside⟩ := List.mem_flatten.mp made
          obtain ⟨count, rfl⟩ := List.mem_replicate.mp copies
          obtain ⟨requeuer, requeuing, requeued⟩ :=
            List.countP_pos_iff.mp (Nat.pos_of_ne_zero count)
          exact keeps ⟨small, available, ⟨requeuer, requeuing, requeued⟩, call, inside, listed⟩
  · have noEvents : (handleInternalCmd env (L._log x s).1).2 = [] := by
      have empty : L.removeReq = none :=
        Option.map_eq_none_iff.mpr ((BoundedQueue.remove_none_iff _).mpr idle)
      rw [unlogged]
      exact congrArg Prod.snd (Worklist.drain_none empty _)
    refine iff_of_true (fun e mem => ?_) fun loses => loses.2.1 nothing
    change e ∈ (handleInternalCmd env (L._log x s).1).2 at mem
    rw [noEvents] at mem
    simp at mem

def ignoringCall (length : Nat) : LogArgs :=
  { message := some (lineOf length), level := some 1, tag := some 5, extras := some (.array [7]) }

def ignoringLine : ExtraLogMeta :=
  ⟨{ (sift twoTargets.filters twoTargets.opts ((ignoringCall 0).fields 1)).2 with extras := 1 },
    (JsIgnores.array [7]).store initialStatic.ignoreList⟩

theorem ignoringLine_logged (length : Nat) :
    (logCall twoTargets.filters twoTargets.opts initialStatic (ignoringCall length)).2 =
      some (ignoringLine, lineOf length) := by
  have passes : (sift twoTargets.filters twoTargets.opts ((ignoringCall length).fields 1)).1 = true := by
    change (sift twoTargets.filters twoTargets.opts ((ignoringCall 0).fields 1)).1 = true
    decide
  have same : (ignoringCall length).fields 1 = (ignoringCall 0).fields 1 := rfl
  rw [logCall_logged initialStatic (ignoringCall length) rfl rfl passes, same]
  rfl

theorem ignored_not_called_iff_line :
    (handleInternalCmd plainEnvs (twoTargets._log ignoringLine (lineOf 50)).1).2.map
        (fun e => e.call?.map Selected.target) = [some 0] ∧
      ∀ e ∈ (handleInternalCmd plainEnvs (twoTargets._log ignoringLine (lineOf 50)).1).2, ∀ call,
        e.call? = some call → call.target ≠ DEFAULT_TARGET →
          call.target ∉ (JsIgnores.array [7]).ids := by
  have kept : ¬ twoTargets.LosesIgnores ignoringLine (lineOf 50) (JsIgnores.array [7]).ids := by
    rintro ⟨_, _, ⟨call, mem, requeued⟩, _⟩
    have none : ∀ call ∈ twoTargets.routed ignoringLine,
        twoTargets.requeues (lineOf 50) call = false := by decide +kernel
    rw [none call mem] at requeued
    exact Bool.noConfusion requeued
  have extras : (ignoringCall 50).extras = some (.array [7]) := rfl
  refine ⟨by decide +kernel, ?_⟩
  exact (ignored_not_called_iff plainEnvs twoTargets_reachable rfl extras (by decide) (by decide)
    (by decide) (ignoringLine_logged 50)).mpr kept

/-- The default target re-queues a line of 1900 bytes, and it is written to target 7. -/
theorem requeued_line_forgets_ignores :
    twoTargets.Reachable ∧ twoTargets.owner.internalCmdQueue.items = [] ∧
      (logCall twoTargets.filters twoTargets.opts initialStatic (ignoringCall 1900)).2 =
        some (ignoringLine, lineOf 1900) ∧
      (handleInternalCmd plainEnvs (twoTargets._log ignoringLine (lineOf 1900)).1).2.map
        (fun e => e.call?.map Selected.target) = [some 0, some 7, some 0] :=
  ⟨twoTargets_reachable, rfl, ignoringLine_logged 1900, by decide +kernel⟩

end Logger

end GreaseLog
