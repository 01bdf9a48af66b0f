import GreaseLog.Lib.BoundedQueue
import GreaseLog.Lib.Runs
import GreaseLog.Lib.Totals
import GreaseLog.Meta

/- How targets start (logger.cc): a target_start_info goes through the constructor of
   its target, targetReady and start_target_cb to the function that is told of the start,
   directly or through targetCallbackQueue. -/
namespace GreaseLog

def MAX_TARGET_CALLBACK_STACK : Nat := 20
def GREASE_UNKNOWN_NO_PATH : Int := 4003

structure ErrEv where
  errno : Int := 0
  deriving DecidableEq

def ErrEv.hasErr (e : ErrEv) : Bool := e.errno != 0

inductive ActionCB where
  | startTargetCb
  | null
  deriving DecidableEq

structure TargetStartInfo where
  needsAsyncQueue : Bool := false
  err : ErrEv := {}
  cb : ActionCB := .null
  targetStartCB : Bool := false
  targId : TargetId := 0
  deriving DecidableEq

/-- What happens to a target_start_info: targetStartCB is called with the id, or with -1
    and an error, and the info is deleted. -/
inductive StartEvent where
  | started (id : TargetId)
  | failed (errno : Int)
  | deleted
  deriving DecidableEq

def TargetStartInfo.call (i : TargetStartInfo) (err : ErrEv) : List StartEvent :=
  if i.targetStartCB then [if err.hasErr then .failed err.errno else .started i.targId] else []

structure TargetStart where
  info : TargetStartInfo
  ready : Bool := false
  events : List StartEvent := []
  deriving DecidableEq

/-- What the calls behind a constructor return, and what t->myId reads after delete t. -/
structure Opening where
  fd : Int := 0
  errno : Int := 0
  ttyInit : Int := 0
  hasPath : Bool := true
  fsOpen : Int := 0
  freedId : TargetId
  deriving DecidableEq

/-- The end of both constructors of ttyTarget: what readyCB is called with. -/
def Opening.ttyReady (w : Opening) (fd : Int) : Bool × ErrEv :=
  if fd ≥ 0 then
    if w.ttyInit = 0 then (true, {}) else (false, { errno := w.ttyInit })
  else (false, { errno := w.errno })

inductive TtyProperty where
  | string
  | int32 (n : Int)
  | other
  deriving DecidableEq

/-- What AddTarget asks of its object. Reading the property file is empty only when it
    throws. -/
structure TargetObject where
  tty : TtyProperty := .other
  fileThrows : Bool := false
  callbackIsFunction : Bool := false
  deriving DecidableEq

inductive StartKind where
  | ttyPath
  | ttyDescriptor (fd : Int)
  | file
  | callback
  deriving DecidableEq

def TargetObject.kind (o : TargetObject) : Option StartKind :=
  match o.tty with
  | .string => some .ttyPath
  | .int32 n => some (.ttyDescriptor n)
  | .other =>
    if o.fileThrows then if o.callbackIsFunction then some .callback else none else some .file

inductive DefaultKind where
  | tty
  | file
  deriving DecidableEq

/-- The handle, and the infos that are on their way or that nothing comes back to. -/
structure TargetStarts where
  asyncReferenced : Bool := false
  nextTargetId : TargetId := 1
  /-- uv_fs_open requests in flight. -/
  opening : List TargetStart := []
  queued : ∀ i ∈ opening, i.info.needsAsyncQueue = true := by simp
  targetCallbackQueue : BoundedQueue TargetStart MAX_TARGET_CALLBACK_STACK := .empty
  /-- callTargetCallback is in its loop. -/
  calling : Bool := false
  settled : List TargetStart := []

inductive StartAction where
  | addTarget (o : TargetObject) (startCB : Bool) (w : Opening)
  | modifyDefaultTarget (kind : Option DefaultKind) (startCB : Bool) (w : Opening)
  | onOpen (k : Nat) (result : Int) (freedId : TargetId)
  /-- One turn of the loop, or its end. libuv may start it with nothing in the queue. -/
  | callTargetCallback

namespace TargetStarts

def settle (l : TargetStarts) (i : TargetStart) : TargetStarts := { l with settled := l.settled ++ [i] }

def enqueue (l : TargetStarts) (i : TargetStart) : TargetStarts :=
  let r := l.targetCallbackQueue.addIfRoom i
  if r.2 then { l with targetCallbackQueue := r.1 } else l.settle i

def startTargetCb (l : TargetStarts) (i : TargetStart) (err : ErrEv) (later : List StartEvent) :
    TargetStarts :=
  if i.info.needsAsyncQueue then
    l.enqueue { i with info.err := err, events := i.events ++ later }
  else l.settle { i with events := i.events ++ i.info.call err ++ [StartEvent.deleted] ++ later }

/-- Its last line deletes the info when t->myId, of a target that may be deleted by then,
    reads DEFAULT_TARGET. Only the infos of ModifyDefaultTarget have no cb. -/
def targetReady (l : TargetStarts) (ready : Bool) (err : ErrEv) (freedId : TargetId)
    (i : TargetStart) : TargetStarts :=
  let i := { i with ready := ready }
  let myId := if ready then i.info.targId else freedId
  let last := if myId = DEFAULT_TARGET then [StartEvent.deleted] else []
  match i.info.cb with
  | .startTargetCb => l.startTargetCb i err last
  | .null => l.settle { i with events := i.events ++ last }

theorem queued_append (l : TargetStarts) {i : TargetStart} (async : i.info.needsAsyncQueue = true) :
    ∀ j ∈ l.opening ++ [i], j.info.needsAsyncQueue = true := by
  intro j mem
  rw [List.mem_append] at mem
  cases mem with
  | inl earlier => exact l.queued j earlier
  | inr last =>
    rw [List.mem_singleton.mp last]
    exact async

theorem queued_erase (l : TargetStarts) (k : Nat) :
    ∀ j ∈ l.opening.eraseIdx k, j.info.needsAsyncQueue = true := by
  intro j mem
  exact l.queued j (List.mem_of_mem_eraseIdx mem)

/-- post_cstor of a fileTarget. A request that uv_fs_open refuses never calls on_open. -/
def postCstor (l : TargetStarts) (w : Opening) (i : TargetStart) : TargetStarts :=
  let i := { i with info.needsAsyncQueue := true }
  if w.hasPath then
    if w.fsOpen < 0 then l.settle i
    else { l with opening := l.opening ++ [i], queued := l.queued_append rfl }
  else l.targetReady false { errno := GREASE_UNKNOWN_NO_PATH } w.freedId i

def construct (l : TargetStarts) (w : Opening) (i : TargetStart) : StartKind → TargetStarts
  | .ttyPath =>
    let r := w.ttyReady w.fd
    l.targetReady r.1 r.2 w.freedId i
  | .ttyDescriptor fd =>
    let r := w.ttyReady fd
    l.targetReady r.1 r.2 w.freedId i
  | .file => l.postCstor w i
  | .callback => l.targetReady true {} w.freedId i

def addTarget (l : TargetStarts) (o : TargetObject) (startCB : Bool) (w : Opening) :
    TargetStarts :=
  let id := l.nextTargetId
  let l := { l with nextTargetId := id + 1 }
  match o.kind with
  | none => l
  | some kind =>
    let i : TargetStart :=
      { info := { cb := .startTargetCb, targId := id, targetStartCB := startCB } }
    let l := if startCB then { l with asyncReferenced := true } else l
    l.construct w i kind

/-- The tty branch takes no function, and neither branch sets cb. -/
def modifyDefaultTarget (l : TargetStarts) (kind : Option DefaultKind) (startCB : Bool)
    (w : Opening) : TargetStarts :=
  match kind with
  | none => l
  | some .tty => l.construct w { info := { targId := DEFAULT_TARGET } } .ttyPath
  | some .file =>
    l.construct w { info := { targId := DEFAULT_TARGET, targetStartCB := startCB } } .file

def onOpen (l : TargetStarts) (k : Nat) (result : Int) (freedId : TargetId) : TargetStarts :=
  match l.opening[k]? with
  | none => l
  | some i =>
    let l := { l with opening := l.opening.eraseIdx k, queued := l.queued_erase k }
    if result ≥ 0 then l.targetReady true {} freedId i
    else l.targetReady false { errno := result } freedId i

def callTargetCallback (l : TargetStarts) : TargetStarts :=
  match l.targetCallbackQueue.remove with
  | some (i, rest) =>
    { l with targetCallbackQueue := rest, calling := true }.settle
      { i with events := i.events ++ i.info.call i.info.err ++ [StartEvent.deleted] }
  | none => { l with asyncReferenced := false, calling := false }

def act (l : TargetStarts) : StartAction → TargetStarts
  | .addTarget o startCB w => l.addTarget o startCB w
  | .modifyDefaultTarget kind startCB w => l.modifyDefaultTarget kind startCB w
  | .onOpen k result freedId => l.onOpen k result freedId
  | .callTargetCallback => l.callTargetCallback

end TargetStarts

/-- addTarget was given a function with it that has not been called. -/
def TargetStart.Pending (i : TargetStart) : Prop :=
  i.info.cb = .startTargetCb ∧ i.info.targetStartCB = true ∧ ∀ e ∈ i.events, e = .deleted

instance (i : TargetStart) : Decidable i.Pending := inferInstanceAs (Decidable (_ ∧ _ ∧ _))

namespace TargetStarts

def infos (l : TargetStarts) : List TargetStart :=
  l.opening ++ l.targetCallbackQueue.items ++ l.settled

def Waiting (l : TargetStarts) : Prop := ∃ i ∈ l.infos, i.Pending

instance (l : TargetStarts) : Decidable l.Waiting := inferInstanceAs (Decidable (∃ i ∈ _, _))

/-- Between two steps the handle keeps the event loop alive for the callbacks that are
    still to come. -/
def Held (l : TargetStarts) : Prop :=
  l.calling = false → (l.asyncReferenced = true ↔ l.Waiting)

/-- A target that is ready or has failed when AddTarget returns finds another one
    pending, and the queue is left with nothing pending elsewhere. -/
def KeepsHeld (l : TargetStarts) : StartAction → Prop
  | .addTarget o startCB _ =>
    l.calling = true ∨ startCB = false ∨ o.kind = none ∨ o.kind = some .file ∨ l.Waiting
  | .modifyDefaultTarget .. => True
  | .onOpen .. => True
  | .callTargetCallback => l.targetCallbackQueue.items ≠ [] ∨ ¬ l.Waiting

variable {l : TargetStarts} {i : TargetStart}

instance (l : TargetStarts) : Decidable l.Held := inferInstanceAs (Decidable (_ → _))

theorem settle_infos : (l.settle i).infos.Perm (i :: l.infos) := by
  simp only [infos, settle, ← List.append_assoc]
  exact List.perm_append_singleton i _

theorem enqueue_infos : (l.enqueue i).infos.Perm (i :: l.infos) := by
  rcases l.targetCallbackQueue.addIfRoom_cases i with ⟨_, added, items⟩ | ⟨_, full⟩
  · simp only [enqueue, added, if_true, infos, items]
    rw [← List.append_assoc]
    exact (List.perm_append_singleton i _).append_right l.settled
  · simp only [enqueue, full, Bool.false_eq_true, if_false]
    exact settle_infos

theorem opening_infos {queued} :
    ({ l with opening := l.opening ++ [i], queued := queued } : TargetStarts).infos.Perm
      (i :: l.infos) := by
  simp only [infos, List.append_assoc]
  exact List.perm_middle

theorem waiting_perm {l' : TargetStarts} (perm : l'.infos.Perm (i :: l.infos)) :
    l'.Waiting ↔ l.Waiting ∨ i.Pending := by
  simp only [Waiting, perm.mem_iff, List.mem_cons, or_and_right, exists_or, exists_eq_left]
  exact or_comm

theorem pending_later {later : List StartEvent} (deletes : ∀ e ∈ later, e = .deleted)
    {j : TargetStart} (cb : j.info.cb = i.info.cb) (given : j.info.targetStartCB = i.info.targetStartCB)
    (events : j.events = i.events ++ later) : j.Pending ↔ i.Pending := by
  simp only [TargetStart.Pending, cb, given, events, List.mem_append]
  constructor
  · rintro ⟨cb, given, uncalled⟩
    exact ⟨cb, given, fun e mem => uncalled e (Or.inl mem)⟩
  · rintro ⟨cb, given, uncalled⟩
    exact ⟨cb, given, fun e mem => mem.elim (uncalled e) (deletes e)⟩

theorem not_pending_called {j : TargetStart} {err : ErrEv} {later : List StartEvent}
    (events : j.events = i.events ++ j.info.call err ++ later) : ¬ j.Pending := by
  intro ⟨_, given, uncalled⟩
  rw [TargetStartInfo.call, if_pos given] at events
  cases failed : err.hasErr with
  | true =>
    have called : StartEvent.failed err.errno ∈ j.events := by simp [events, failed]
    cases uncalled _ called
  | false =>
    have called : StartEvent.started j.info.targId ∈ j.events := by simp [events, failed]
    cases uncalled _ called

/-- What becomes of an info whose target is made: it is still pending only when the
    call has to come through the queue. -/
structure Becomes (l l' : TargetStarts) (i j : TargetStart) : Prop where
  infos : l'.infos.Perm (j :: l.infos)
  given : j.info.targetStartCB = i.info.targetStartCB
  pending : j.Pending ↔ i.info.needsAsyncQueue = true ∧ i.Pending

theorem startTargetCb_becomes {later : List StartEvent} (deletes : ∀ e ∈ later, e = .deleted)
    (err : ErrEv) : ∃ j, l.Becomes (l.startTargetCb i err later) i j := by
  rw [startTargetCb]
  by_cases async : i.info.needsAsyncQueue = true
  · rw [if_pos async]
    refine ⟨_, enqueue_infos, rfl, ?_⟩
    rw [and_iff_right async]
    exact pending_later deletes rfl rfl rfl
  · rw [if_neg async]
    refine ⟨_, settle_infos, rfl, ?_⟩
    apply iff_of_false
    · exact not_pending_called (List.append_assoc _ _ _)
    · exact fun both => async both.1

theorem targetReady_becomes (ready : Bool) (err : ErrEv) (freedId : TargetId) :
    ∃ j, l.Becomes (l.targetReady ready err freedId i) i j := by
  have deletes : ∀ id : TargetId,
      ∀ e ∈ (if id = DEFAULT_TARGET then [StartEvent.deleted] else []), e = .deleted := by
    intro id e mem
    split at mem
    · exact List.mem_singleton.mp mem
    · cases mem
  cases cb : i.info.cb with
  | startTargetCb =>
    simp only [targetReady, cb]
    obtain ⟨j, infos, given, pending⟩ :=
      startTargetCb_becomes (l := l) (i := { i with ready := ready }) (deletes _) err
    exact ⟨j, infos, given, pending⟩
  | null =>
    simp only [targetReady, cb]
    refine ⟨_, settle_infos, rfl, ?_⟩
    apply iff_of_false
    · intro pending
      rw [pending.1] at cb
      cases cb
    · intro both
      rw [both.2.1] at cb
      cases cb

structure SameHandle (l l' : TargetStarts) : Prop where
  asyncReferenced : l'.asyncReferenced = l.asyncReferenced
  calling : l'.calling = l.calling

theorem enqueue_handle : l.SameHandle (l.enqueue i) := by
  rcases l.targetCallbackQueue.addIfRoom_cases i with ⟨_, added, _⟩ | ⟨_, full⟩
  · simp only [enqueue, added, if_true]
    exact ⟨rfl, rfl⟩
  · simp only [enqueue, full, Bool.false_eq_true, if_false]
    exact ⟨rfl, rfl⟩

theorem targetReady_handle (ready : Bool) (err : ErrEv) (freedId : TargetId) :
    l.SameHandle (l.targetReady ready err freedId i) := by
  cases cb : i.info.cb with
  | startTargetCb =>
    simp only [targetReady, cb, startTargetCb]
    split
    · exact enqueue_handle
    · exact ⟨rfl, rfl⟩
  | null =>
    simp only [targetReady, cb]
    exact ⟨rfl, rfl⟩

theorem construct_handle (w : Opening) (kind : StartKind) : l.SameHandle (l.construct w i kind) := by
  cases kind with
  | file =>
    simp only [construct, postCstor]
    split
    · split <;> exact ⟨rfl, rfl⟩
    · exact targetReady_handle _ _ _
  | _ => exact targetReady_handle _ _ _

theorem construct_becomes (w : Opening) (kind : StartKind) (sync : i.info.needsAsyncQueue = false) :
    ∃ j, (l.construct w i kind).infos.Perm (j :: l.infos) ∧
      j.info.targetStartCB = i.info.targetStartCB ∧ (j.Pending ↔ kind = .file ∧ i.Pending) := by
  have made : ∀ ready err, kind ≠ .file → ∃ j,
      (l.targetReady ready err w.freedId i).infos.Perm (j :: l.infos) ∧
        j.info.targetStartCB = i.info.targetStartCB ∧ (j.Pending ↔ kind = .file ∧ i.Pending) := by
    intro ready err other
    obtain ⟨j, infos, given, pending⟩ := targetReady_becomes (l := l) (i := i) ready err w.freedId
    refine ⟨j, infos, given, ?_⟩
    rw [pending, sync]
    simp [other]
  cases kind with
  | file =>
    simp only [construct, postCstor, true_and]
    split
    · split
      · exact ⟨_, settle_infos, rfl, Iff.rfl⟩
      · exact ⟨_, opening_infos, rfl, Iff.rfl⟩
    · obtain ⟨j, infos, given, pending⟩ := targetReady_becomes (l := l)
        (i := { i with info.needsAsyncQueue := true }) false { errno := GREASE_UNKNOWN_NO_PATH }
        w.freedId
      exact ⟨j, infos, given, pending.trans (and_iff_right rfl)⟩
  | _ => exact made _ _ (by simp)

abbrev register (l : TargetStarts) (startCB : Bool) : TargetStarts :=
  { l with
    nextTargetId := l.nextTargetId + 1
    asyncReferenced := l.asyncReferenced || startCB }

abbrev newStart (l : TargetStarts) (startCB : Bool) : TargetStart :=
  { info := { cb := .startTargetCb, targId := l.nextTargetId, targetStartCB := startCB } }

theorem addTarget_construct {o : TargetObject} {kind : StartKind} (chosen : o.kind = some kind)
    (startCB : Bool) (w : Opening) :
    l.addTarget o startCB w = (l.register startCB).construct w (l.newStart startCB) kind := by
  simp only [addTarget, chosen, register]
  cases startCB with
  | true =>
    rw [Bool.or_true]
    rfl
  | false =>
    rw [Bool.or_false]
    rfl

theorem addTarget_some {o : TargetObject} {kind : StartKind} (chosen : o.kind = some kind)
    (startCB : Bool) (w : Opening) :
    (l.addTarget o startCB w).asyncReferenced = (l.asyncReferenced || startCB) ∧
      (l.addTarget o startCB w).calling = l.calling ∧
      ((l.addTarget o startCB w).Waiting ↔ l.Waiting ∨ (kind = .file ∧ startCB = true)) := by
  rw [addTarget_construct chosen]
  have handle := construct_handle (l := l.register startCB) (i := l.newStart startCB) w kind
  refine ⟨handle.asyncReferenced, handle.calling, ?_⟩
  obtain ⟨j, infos, _, same⟩ :=
    construct_becomes (l := l.register startCB) (i := l.newStart startCB) w kind rfl
  have pending : (l.newStart startCB).Pending ↔ startCB = true := by
    simp [TargetStart.Pending]
  rw [waiting_perm infos, same, pending]
  rfl

theorem addTarget_held (held : l.Held) (o : TargetObject) (startCB : Bool) (w : Opening) :
    (l.addTarget o startCB w).Held ↔ l.KeepsHeld (.addTarget o startCB w) := by
  cases chosen : o.kind with
  | none =>
    simp only [addTarget, chosen, KeepsHeld]
    exact iff_of_true held (by simp)
  | some kind =>
    obtain ⟨referenced, calling, waiting⟩ := addTarget_some (l := l) chosen startCB w
    rw [Held] at held
    rw [Held, referenced, calling, waiting]
    simp only [KeepsHeld, chosen]
    cases startCB with
    | false => simpa using held
    | true =>
      cases during : l.calling with
      | true => simp
      | false => simp [or_comm]

abbrev takeOut (l : TargetStarts) (k : Nat) : TargetStarts :=
  { l with opening := l.opening.eraseIdx k, queued := l.queued_erase k }

theorem opened_infos {k : Nat} (at_k : l.opening[k]? = some i) :
    l.infos.Perm (i :: (l.takeOut k).infos) := by
  have taken := Totals.perm_eraseIdx at_k
  simp only [infos]
  exact (taken.append_right _).append_right _

theorem onOpen_held (held : l.Held) (k : Nat) (result : Int) (freedId : TargetId) :
    (l.onOpen k result freedId).Held := by
  cases at_k : l.opening[k]? with
  | none =>
    simp only [onOpen, at_k]
    exact held
  | some i =>
    have async := l.queued i (List.mem_of_getElem? at_k)
    have kept : ∀ ready err, ((l.takeOut k).targetReady ready err freedId i).Held := by
      intro ready err
      have handle := targetReady_handle (l := l.takeOut k) (i := i) ready err freedId
      obtain ⟨j, perm, _, pending⟩ :=
        targetReady_becomes (l := l.takeOut k) (i := i) ready err freedId
      have moved : ((l.takeOut k).targetReady ready err freedId i).Waiting ↔ l.Waiting := by
        rw [waiting_perm perm, pending, and_iff_right async, waiting_perm (opened_infos at_k)]
      rw [Held, handle.asyncReferenced, handle.calling, moved]
      exact held
    simp only [onOpen, at_k]
    split
    · exact kept _ _
    · exact kept _ _

theorem callTargetCallback_held :
    l.callTargetCallback.Held ↔ l.KeepsHeld .callTargetCallback := by
  cases next : l.targetCallbackQueue.remove with
  | some taken =>
    have some := BoundedQueue.remove_some next
    simp only [callTargetCallback, next, KeepsHeld, some]
    apply iff_of_true
    · intro calling
      cases calling
    · simp
  | none =>
    have empty := (BoundedQueue.remove_none_iff _).mp next
    simp only [callTargetCallback, next, KeepsHeld, empty, Held]
    simp [Waiting, infos]

/-- The infos of ModifyDefaultTarget have no cb, so that none of them is pending. -/
theorem modifyDefaultTarget_held (held : l.Held) (kind : Option DefaultKind) (startCB : Bool)
    (w : Opening) : (l.modifyDefaultTarget kind startCB w).Held := by
  have kept : ∀ (i : TargetStart) (kind : StartKind), i.info.cb = .null →
      i.info.needsAsyncQueue = false → (l.construct w i kind).Held := by
    intro i kind cb sync
    have unasked : ¬ i.Pending := by
      intro pending
      rw [pending.1] at cb
      cases cb
    have handle := construct_handle (l := l) (i := i) w kind
    obtain ⟨j, infos, _, pending⟩ := construct_becomes (l := l) w kind sync
    rw [Held] at held
    rw [Held, handle.asyncReferenced, handle.calling, waiting_perm infos, pending]
    simpa [unasked] using held
  cases kind with
  | none => exact held
  | some kind =>
    cases kind with
    | tty => exact kept _ _ rfl rfl
    | file => exact kept _ _ rfl rfl

theorem act_held (held : l.Held) (a : StartAction) : (l.act a).Held ↔ l.KeepsHeld a := by
  cases a with
  | addTarget o startCB w => exact addTarget_held held o startCB w
  | modifyDefaultTarget kind startCB w =>
    exact iff_of_true (modifyDefaultTarget_held held kind startCB w) trivial
  | onOpen k result freedId => exact iff_of_true (onOpen_held held k result freedId) trivial
  | callTargetCallback => exact callTargetCallback_held

theorem start_held : Held {} := by
  intro _
  simp [Waiting, infos]

/-- The handle is referenced while a start callback is pending, in every state of a run,
    exactly if each step keeps it so. -/
theorem held_iff (actions : List StartAction) :
    (∀ n, ((actions.take n).foldl act {}).Held) ↔ Runs.Checked KeepsHeld act {} actions := by
  have each : ∀ (l : TargetStarts) (a : StartAction), l.Held → ((l.act a).Held ↔ l.KeepsHeld a) :=
    fun _ a held => act_held held a
  rw [Runs.always_iff_checked each, and_iff_right start_held]

/-- A tty target is ready in the call and leaves the handle referenced. Of two files, the
    one that is open drops the reference of the other. -/
theorem handle_not_held :
    ¬ ([.addTarget { tty := .string } true { freedId := 1 }].foldl act {}).Held ∧
      ¬ ([.addTarget {} true { freedId := 1 }, .addTarget {} true { freedId := 2 }, .onOpen 0 3 1,
        .callTargetCallback, .callTargetCallback].foldl act {}).Held := by
  decide

end TargetStarts

end GreaseLog
