import GreaseLog.TargetStart

/- The function given with addTarget or modifyDefaultTarget is called once, with the id
   or an error, and the target_start_info deleted after that, under conditions. -/
namespace GreaseLog

def TargetStart.Told (i : TargetStart) : Prop :=
  if i.ready then i.events = [.started i.info.targId, .deleted]
  else ∃ errno, errno ≠ 0 ∧ i.events = [.failed errno, .deleted]

namespace TargetStarts

/-- An info with a function is told or untouched, and the queue knows what to tell. -/
@[mk_iff] structure Once (l : TargetStarts) : Prop where
  opening : ∀ i ∈ l.opening, i.events = []
  queue : ∀ i ∈ l.targetCallbackQueue.items, i.info.targetStartCB = true →
    i.events = [] ∧ i.ready = !i.info.err.hasErr
  settled : ∀ i ∈ l.settled, i.info.targetStartCB = true → i.Told

/-- A target that is ready is not the default one; a failure has a number, and the
    memory of the target does not read as the default id. -/
def Tells (id : TargetId) (outcome : Bool × ErrEv) (freedId : TargetId) : Prop :=
  if outcome.1 then id ≠ DEFAULT_TARGET else outcome.2.errno ≠ 0 ∧ freedId ≠ DEFAULT_TARGET

/-- uv_fs_open takes the request, or the queue the error. -/
def Opens (l : TargetStarts) (w : Opening) : Prop :=
  if w.hasPath then 0 ≤ w.fsOpen
  else l.targetCallbackQueue.HasRoom ∧ w.freedId ≠ DEFAULT_TARGET

def KeepsOnce (l : TargetStarts) : StartAction → Prop
  | .addTarget o startCB w => startCB = true →
    match o.kind with
    | none => True
    | some .ttyPath => Tells l.nextTargetId (w.ttyReady w.fd) w.freedId
    | some (.ttyDescriptor fd) => Tells l.nextTargetId (w.ttyReady fd) w.freedId
    | some .file => l.Opens w
    | some .callback => l.nextTargetId ≠ DEFAULT_TARGET
  | .modifyDefaultTarget kind startCB w => startCB = true → kind = some .file →
    w.hasPath = true ∧ 0 ≤ w.fsOpen
  | .onOpen k result freedId => ∀ i, l.opening[k]? = some i → i.info.targetStartCB = true →
    i.info.cb = .startTargetCb ∧ l.targetCallbackQueue.HasRoom ∧
      Tells i.info.targId (decide (0 ≤ result), { errno := result }) freedId
  | .callTargetCallback => True

variable {l : TargetStarts} {i : TargetStart}

theorem once_settle :
    (l.settle i).Once ↔ l.Once ∧ (i.info.targetStartCB = true → i.Told) := by
  simp only [once_iff, settle, List.forall_mem_append, List.forall_mem_singleton, and_assoc]

theorem once_settle_iff {told : Prop} (each : i.info.targetStartCB = true → (i.Told ↔ told)) :
    (l.settle i).Once ↔ l.Once ∧ (i.info.targetStartCB = true → told) := by
  rw [once_settle]
  apply and_congr_right
  intro _
  exact imp_congr_right each

theorem once_opening {queued} :
    ({ l with opening := l.opening ++ [i], queued := queued } : TargetStarts).Once ↔
      l.Once ∧ i.events = [] := by
  simp only [once_iff, List.forall_mem_append, List.forall_mem_singleton]
  exact and_right_comm

theorem once_enqueue (room : l.targetCallbackQueue.HasRoom) :
    (l.enqueue i).Once ↔
      l.Once ∧ (i.info.targetStartCB = true → i.events = [] ∧ i.ready = !i.info.err.hasErr) := by
  obtain ⟨added, items⟩ := BoundedQueue.addIfRoom_room i room
  simp only [enqueue, added, if_true, once_iff, items, List.forall_mem_append,
    List.forall_mem_singleton, and_assoc]
  exact and_congr_right fun _ => and_congr_right fun _ => and_comm

theorem enqueue_full (full : ¬ l.targetCallbackQueue.HasRoom) : l.enqueue i = l.settle i := by
  simp [enqueue, BoundedQueue.addIfRoom_full i full]

theorem not_told {j : TargetStart} {p : Prop} [Decidable p]
    (events : j.events = if p then [.deleted] else []) : ¬ j.Told := by
  rw [TargetStart.Told, events]
  cases j.ready <;> by_cases deletes : p <;> simp [deletes]

theorem told_directly {j : TargetStart} {err : ErrEv} {freedId : TargetId}
    (given : j.info.targetStartCB = true) (good : j.ready = true → err.errno = 0)
    (events : j.events = j.info.call err ++ [.deleted] ++
      if (if j.ready then j.info.targId else freedId) = DEFAULT_TARGET then [.deleted] else []) :
    j.Told ↔ Tells j.info.targId (j.ready, err) freedId := by
  rw [TargetStart.Told, Tells, events, TargetStartInfo.call, if_pos given]
  cases ready : j.ready with
  | true => simp [good ready, ErrEv.hasErr]
  | false =>
    by_cases number : err.errno = 0
    · simp [number, ErrEv.hasErr]
    · simp [number, ErrEv.hasErr]

theorem queue_knows {ready : Bool} {err : ErrEv} {id freedId : TargetId}
    (good : ready = true → err.errno = 0) :
    ((if (if ready then id else freedId) = DEFAULT_TARGET then [StartEvent.deleted] else []) = [] ∧
      ready = !err.hasErr) ↔ Tells id (ready, err) freedId := by
  rw [Tells]
  cases ready with
  | true => simp [good rfl, ErrEv.hasErr]
  | false => simp [ErrEv.hasErr, and_comm]

theorem targetReady_once (ready : Bool) (err : ErrEv) (freedId : TargetId) (new : i.events = [])
    (good : ready = true → err.errno = 0) :
    (l.targetReady ready err freedId i).Once ↔ l.Once ∧ (i.info.targetStartCB = true →
      i.info.cb = .startTargetCb ∧
        (i.info.needsAsyncQueue = true → l.targetCallbackQueue.HasRoom) ∧
        Tells i.info.targId (ready, err) freedId) := by
  cases cb : i.info.cb with
  | null =>
    simp only [targetReady, cb, new, List.nil_append]
    apply once_settle_iff
    intro _
    apply iff_of_false
    · exact not_told rfl
    · intro told
      cases told.1
  | startTargetCb =>
    simp only [targetReady, cb, new, startTargetCb, List.nil_append]
    by_cases async : i.info.needsAsyncQueue = true
    · rw [if_pos async]
      by_cases room : l.targetCallbackQueue.HasRoom
      · rw [once_enqueue room]
        simp only [queue_knows good, room, implies_true, true_and]
      · rw [enqueue_full room]
        apply once_settle_iff
        intro _
        apply iff_of_false
        · exact not_told rfl
        · exact fun told => room (told.2.1 async)
    · rw [if_neg async]
      apply once_settle_iff
      intro given
      rw [told_directly given good rfl]
      simp [async]

theorem postCstor_once (new : i.events = []) (w : Opening) :
    (l.postCstor w i).Once ↔ l.Once ∧ (i.info.targetStartCB = true →
      if w.hasPath then 0 ≤ w.fsOpen
      else i.info.cb = .startTargetCb ∧ l.targetCallbackQueue.HasRoom ∧
        w.freedId ≠ DEFAULT_TARGET) := by
  rw [postCstor]
  by_cases path : w.hasPath = true
  · simp only [path, if_true]
    by_cases refused : w.fsOpen < 0
    · rw [if_pos refused]
      apply once_settle_iff
      intro _
      apply iff_of_false
      · exact not_told (p := False) new
      · omega
    · rw [if_neg refused, once_opening]
      apply and_congr_right
      intro _
      apply iff_of_true
      · exact new
      · omega
  · simp only [path, Bool.false_eq_true, if_false]
    have failed := targetReady_once (l := l) (i := { i with info.needsAsyncQueue := true }) false
      { errno := GREASE_UNKNOWN_NO_PATH } w.freedId new (by simp)
    rw [failed]
    apply and_congr_right
    intro _
    apply imp_congr_right
    intro _
    simp [Tells, GREASE_UNKNOWN_NO_PATH]

theorem ttyReady_good (w : Opening) (fd : Int) :
    (w.ttyReady fd).1 = true → (w.ttyReady fd).2.errno = 0 := by
  rw [Opening.ttyReady]
  split
  · split <;> simp
  · simp

theorem addTarget_once (once : l.Once) (o : TargetObject) (startCB : Bool) (w : Opening) :
    (l.addTarget o startCB w).Once ↔ l.KeepsOnce (.addTarget o startCB w) := by
  cases chosen : o.kind with
  | none =>
    simp only [addTarget, chosen, KeepsOnce, implies_true, iff_true]
    exact ⟨once.opening, once.queue, once.settled⟩
  | some kind =>
    have before : (l.register startCB).Once :=
      ⟨once.opening, once.queue, once.settled⟩
    rw [addTarget_construct chosen]
    simp only [KeepsOnce, chosen]
    cases kind with
    | ttyPath =>
      simp only [construct]
      rw [targetReady_once _ _ _ rfl (ttyReady_good w w.fd), and_iff_right before]
      simp
    | ttyDescriptor fd =>
      simp only [construct]
      rw [targetReady_once _ _ _ rfl (ttyReady_good w fd), and_iff_right before]
      simp
    | file =>
      simp only [construct]
      rw [postCstor_once rfl, and_iff_right before]
      simp [Opens]
    | callback =>
      simp only [construct]
      rw [targetReady_once _ _ _ rfl (by simp), and_iff_right before]
      simp [Tells]

theorem modifyDefaultTarget_once (once : l.Once) (kind : Option DefaultKind) (startCB : Bool)
    (w : Opening) :
    (l.modifyDefaultTarget kind startCB w).Once ↔
      l.KeepsOnce (.modifyDefaultTarget kind startCB w) := by
  cases kind with
  | none =>
    simp only [modifyDefaultTarget, KeepsOnce]
    exact iff_of_true once (by simp)
  | some kind =>
    cases kind with
    | tty =>
      simp only [modifyDefaultTarget, KeepsOnce, construct]
      rw [targetReady_once _ _ _ rfl (ttyReady_good w w.fd), and_iff_right once]
      simp
    | file =>
      simp only [modifyDefaultTarget, KeepsOnce, construct]
      rw [postCstor_once rfl, and_iff_right once]
      cases path : w.hasPath <;> simp

theorem onOpen_once (once : l.Once) (k : Nat) (result : Int) (freedId : TargetId) :
    (l.onOpen k result freedId).Once ↔ l.KeepsOnce (.onOpen k result freedId) := by
  cases at_k : l.opening[k]? with
  | none =>
    simp only [onOpen, at_k, KeepsOnce]
    exact iff_of_true once (by simp)
  | some i =>
    have before : (l.takeOut k).Once := by
      refine ⟨?_, once.queue, once.settled⟩
      intro j mem
      exact once.opening j (List.mem_of_mem_eraseIdx mem)
    have mem := List.mem_of_getElem? at_k
    have new := once.opening i mem
    have async := l.queued i mem
    simp only [onOpen, at_k, KeepsOnce, Option.some.injEq, forall_eq']
    split
    · rename_i opened
      rw [targetReady_once _ _ _ new (by simp), and_iff_right before]
      simp [Tells, opened, async]
    · rename_i failed
      rw [targetReady_once _ _ _ new (by simp), and_iff_right before]
      simp [Tells, failed, async]

theorem callTargetCallback_once (once : l.Once) : l.callTargetCallback.Once := by
  cases next : l.targetCallbackQueue.remove with
  | none =>
    simp only [callTargetCallback, next]
    exact ⟨once.opening, once.queue, once.settled⟩
  | some taken =>
    obtain ⟨i, rest⟩ := taken
    have items := BoundedQueue.remove_some next
    have before : ({ l with targetCallbackQueue := rest, calling := true } : TargetStarts).Once := by
      refine ⟨once.opening, ?_, once.settled⟩
      intro j mem
      exact once.queue j (by rw [items]; exact List.mem_cons_of_mem i mem)
    have untouched := once.queue i (by rw [items]; exact List.mem_cons_self)
    simp only [callTargetCallback, next]
    rw [once_settle, and_iff_right before]
    intro given
    obtain ⟨new, knows⟩ := untouched given
    have call : i.info.call i.info.err =
        [if i.info.err.hasErr then .failed i.info.err.errno else .started i.info.targId] := if_pos given
    simp only [TargetStart.Told, new, knows, call]
    cases failed : i.info.err.hasErr with
    | false => simp
    | true =>
      have number : i.info.err.errno ≠ 0 := by simpa [ErrEv.hasErr] using failed
      simpa using number

theorem act_once (once : l.Once) (a : StartAction) : (l.act a).Once ↔ l.KeepsOnce a := by
  cases a with
  | addTarget o startCB w => exact addTarget_once once o startCB w
  | modifyDefaultTarget kind startCB w => exact modifyDefaultTarget_once once kind startCB w
  | onOpen k result freedId => exact onOpen_once once k result freedId
  | callTargetCallback => exact iff_of_true (callTargetCallback_once once) trivial

theorem start_once : Once {} := by
  constructor <;> simp

def given (l : TargetStarts) : Nat := l.infos.countP (·.info.targetStartCB)

theorem given_perm {l' : TargetStarts} (perm : l'.infos.Perm (i :: l.infos)) :
    l'.given = l.given + i.info.targetStartCB.toNat := by
  rw [given, perm.countP_eq, List.countP_cons, given]
  cases i.info.targetStartCB <;> rfl

end TargetStarts

def StartAction.accepts : StartAction → Bool
  | .addTarget o startCB _ => startCB && o.kind.isSome
  | .modifyDefaultTarget kind startCB _ => startCB && decide (kind = some .file)
  | .onOpen .. => false
  | .callTargetCallback => false

namespace TargetStarts
variable {l : TargetStarts}

theorem given_addTarget (o : TargetObject) (startCB : Bool) (w : Opening) :
    (l.addTarget o startCB w).given = l.given + (startCB && o.kind.isSome).toNat := by
  cases chosen : o.kind with
  | none =>
    simp only [addTarget, chosen, Option.isSome_none, Bool.and_false]
    rfl
  | some kind =>
    obtain ⟨j, infos, same, _⟩ :=
      construct_becomes (l := l.register startCB) (i := l.newStart startCB) w kind rfl
    simp only [Option.isSome_some, Bool.and_true]
    rw [addTarget_construct chosen, given_perm infos, same]
    rfl

theorem given_modifyDefaultTarget (kind : Option DefaultKind) (startCB : Bool) (w : Opening) :
    (l.modifyDefaultTarget kind startCB w).given =
      l.given + (startCB && decide (kind = some .file)).toNat := by
  have made : ∀ (i : TargetStart) (kind : StartKind), i.info.needsAsyncQueue = false →
      (l.construct w i kind).given = l.given + i.info.targetStartCB.toNat := by
    intro i kind sync
    obtain ⟨j, infos, same, _⟩ := construct_becomes (l := l) w kind sync
    rw [given_perm infos, same]
  cases kind with
  | none => simp [modifyDefaultTarget]
  | some kind =>
    cases kind with
    | tty =>
      simp only [modifyDefaultTarget]
      rw [made _ _ rfl]
      simp
    | file =>
      simp only [modifyDefaultTarget]
      rw [made _ _ rfl]
      simp

theorem given_onOpen (k : Nat) (result : Int) (freedId : TargetId) :
    (l.onOpen k result freedId).given = l.given := by
  cases at_k : l.opening[k]? with
  | none => simp [onOpen, at_k]
  | some i =>
    have moved : ∀ ready err, ((l.takeOut k).targetReady ready err freedId i).given = l.given := by
      intro ready err
      obtain ⟨j, infos, same, _⟩ :=
        targetReady_becomes (l := l.takeOut k) (i := i) ready err freedId
      rw [given_perm infos, same, given_perm (opened_infos at_k)]
    simp only [onOpen, at_k]
    split
    · exact moved _ _
    · exact moved _ _

theorem given_callTargetCallback : l.callTargetCallback.given = l.given := by
  cases next : l.targetCallbackQueue.remove with
  | none =>
    simp only [callTargetCallback, next]
    rfl
  | some taken =>
    obtain ⟨i, rest⟩ := taken
    have items := BoundedQueue.remove_some next
    simp only [callTargetCallback, next]
    have before : l.infos.Perm
        (i :: ({ l with targetCallbackQueue := rest, calling := true } : TargetStarts).infos) := by
      simp only [infos, items]
      exact List.perm_middle.append_right l.settled
    rw [given_perm settle_infos, given_perm before]

theorem given_act (a : StartAction) : (l.act a).given = l.given + a.accepts.toNat := by
  cases a with
  | addTarget o startCB w => exact given_addTarget o startCB w
  | modifyDefaultTarget kind startCB w => exact given_modifyDefaultTarget kind startCB w
  | onOpen k result freedId => exact given_onOpen k result freedId
  | callTargetCallback => exact given_callTargetCallback

theorem given_run (actions : List StartAction) (l : TargetStarts) :
    (actions.foldl act l).given = l.given + actions.countP StartAction.accepts := by
  induction actions generalizing l with
  | nil => rfl
  | cons a actions ih =>
    rw [List.foldl_cons, ih, given_act, List.countP_cons]
    cases a.accepts with
    | true =>
      simp only [Bool.toNat_true, if_true]
      omega
    | false =>
      simp only [Bool.toNat_false, Bool.false_eq_true, if_false]
      omega

theorem callTargetCallback_empties (l : TargetStarts) :
    ∃ turns, (callTargetCallback^[turns] l).targetCallbackQueue.items = [] := by
  induction waiting : l.targetCallbackQueue.items generalizing l with
  | nil => exact ⟨0, waiting⟩
  | cons i rest ih =>
    obtain ⟨q, next, items⟩ := BoundedQueue.remove_cons waiting
    have turn : l.callTargetCallback.targetCallbackQueue.items = rest := by
      simp only [callTargetCallback, next]
      exact items
    obtain ⟨turns, empty⟩ := ih _ turn
    exact ⟨turns + 1, empty⟩

/-- Each function that is accepted is called once, and its info deleted after that,
    exactly if every step of the run keeps it so. -/
theorem start_callbacks_once_iff (actions : List StartAction) :
    ((∀ n, ((actions.take n).foldl act {}).Once) ↔ Runs.Checked KeepsOnce act {} actions) ∧
      (actions.foldl act {}).given = actions.countP StartAction.accepts ∧
      ∃ turns, (callTargetCallback^[turns] (actions.foldl act {})).targetCallbackQueue.items = [] := by
  have each : ∀ (l : TargetStarts) (a : StartAction), l.Once → ((l.act a).Once ↔ l.KeepsOnce a) :=
    fun _ a once => act_once once a
  refine ⟨?_, ?_, callTargetCallback_empties _⟩
  · rw [Runs.always_iff_checked each, and_iff_right start_once]
  · rw [given_run]
    exact Nat.zero_add _

/-- modifyDefaultTarget sets no cb, and the function is not called. -/
theorem default_start_not_told :
    ([.modifyDefaultTarget (some .file) true { freedId := 0 }, .onOpen 0 3 0].foldl act
        {}).settled.map (·.events) = [[.deleted]] ∧
      ¬ ([.modifyDefaultTarget (some .file) true { freedId := 0 }, .onOpen 0 3 0].foldl act {}).Once := by
  constructor
  · decide
  · intro once
    have opened := (act_once start_once (.modifyDefaultTarget (some .file) true { freedId := 0 })).mpr
      (by simp [KeepsOnce])
    have keeps := (act_once opened (.onOpen 0 3 0)).mp once
    cases (keeps _ rfl rfl).1

end TargetStarts

end GreaseLog
