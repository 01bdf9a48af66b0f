import GreaseLog.Flushing
import GreaseLog.LoggerRuns
import GreaseLog.RotationTriggers

/- Whether handleInternalCmd comes to its end. With the logger there are the files
   of the fileTargets and the mutexes of the buffers: `none` is a logger thread
   that waits for ever. -/
namespace GreaseLog
open FileRotation FileShift

namespace FileWrites

def rotates (s : FileWrites) (a : Action) : Bool :=
  (s.ended a).any fun call => decide (call.1.submittedWrites - 1 < 1 ∧ call.1.enabled = true ∧
    call.1.sizeAfter call.2 > call.1.maxFileSize)

theorem rotates_iff (s : FileWrites) (a : Action) : s.rotates a = true ↔ s.Rotating a := by
  simp only [rotates, Option.any_eq_true, decide_eq_true_eq, Rotating, Rotates, Prod.exists]

end FileWrites

/-- What a fileTarget has beside its buffers; so many rotated files are listed. -/
structure TargetFile where
  writes : FileWrites
  opts : RotationOpts
  target : FileTarget
  rotated : Nat
  lists : Lists target (listed rotated)

namespace TargetFile

theorem lists_rotated {opts : RotationOpts} {target target' : FileTarget} {n : Nat}
    (lists : Lists target (listed n)) (result : FileShift.rotateFiles opts (target.write []) = some target') :
    Lists target' (listed (grown opts.maxFiles n)) := by
  obtain ⟨ends, hangs⟩ := rotation_limits opts lists []
  by_cases room : grown opts.maxFiles n ≤ MAX_ROTATED_FILES
  · obtain ⟨other, ended, lists', _⟩ := ends room
    obtain rfl := Option.some.inj (ended.symm.trans result)
    exact lists'
  · rw [hangs (Nat.lt_of_not_le room)] at result
    cases result

/-- rotate_files, with the current file there; what is in it makes no difference. -/
def rotateFiles (f : TargetFile) : Option TargetFile :=
  match result : FileShift.rotateFiles f.opts (f.target.write []) with
  | none => none
  | some target =>
    some { f with
      target := target
      rotated := grown f.opts.maxFiles f.rotated
      lists := lists_rotated f.lists result }

def act (f : TargetFile) (a : FileWrites.Action) : Option TargetFile :=
  let done := { f with writes := f.writes.apply a }
  if f.writes.rotates a then done.rotateFiles else some done

/-- The action does not rotate, or the list has room for one more file. -/
def Fits (f : TargetFile) (a : FileWrites.Action) : Prop :=
  f.writes.Rotating a → grown f.opts.maxFiles f.rotated ≤ MAX_ROTATED_FILES

theorem rotateFiles_isSome (f : TargetFile) :
    f.rotateFiles.isSome = true ↔ grown f.opts.maxFiles f.rotated ≤ MAX_ROTATED_FILES := by
  obtain ⟨ends, hangs⟩ := rotation_limits f.opts f.lists []
  unfold rotateFiles
  split
  · next waits =>
    refine iff_of_false Bool.false_ne_true fun room => ?_
    obtain ⟨_, ended, _⟩ := ends room
    rw [ended] at waits
    cases waits
  · next target result =>
    refine iff_of_true rfl ?_
    by_contra full
    rw [hangs (Nat.lt_of_not_le full)] at result
    cases result

theorem act_isSome (f : TargetFile) (a : FileWrites.Action) : (f.act a).isSome = true ↔ f.Fits a := by
  unfold act Fits
  by_cases rotates : f.writes.Rotating a
  · rw [if_pos ((f.writes.rotates_iff a).mpr rotates)]
    refine (rotateFiles_isSome _).trans ?_
    exact ⟨fun room _ => room, fun fits => fits rotates⟩
  · rw [if_neg fun h => rotates ((f.writes.rotates_iff a).mp h)]
    exact iff_of_true rfl fun h => absurd h rotates

end TargetFile

namespace LogTarget

def flushActions (t : LogTarget) (doRotate : Bool) : List FileWrites.Action :=
  let t := if doRotate then t.rotate.1 else t
  t.writeOutBuffers.items.map fun b => .flush (t.buffers b).data.length

def flushSyncActions (t : LogTarget) : List FileWrites.Action :=
  t.rotate.1.writeOutBuffers.items.map fun b => .flushSync (t.rotate.1.buffers b).data.length

/-- flushAll and writeOverflow, whose writev() returns this. -/
def overflowActions (t : LogTarget) (env : WriteEnv) (got : Option Nat) (l : SingleLog)
    (filter : Filter) : List FileWrites.Action :=
  t.flushActions true ++
    if t.disabled then []
    else [.overflowStart (t.overflowEntry env l filter).flatten.length, .overflowEnd got]

theorem rotate_leaves_none (t : LogTarget) :
    t.rotate.1.writeOutBuffers.items = [] ↔
      t.writeOutBuffers.items = [] ∧ (t.current.data = [] ∨ t.availBuffers.items = []) := by
  unfold rotate
  by_cases data : 0 < t.current.data.length
  · have some : t.current.data ≠ [] := List.ne_nil_of_length_pos data
    rw [if_pos data, or_iff_right some]
    cases removed : t.availBuffers.remove with
    | none => exact (and_iff_left ((BoundedQueue.remove_none_iff _).mp removed)).symm
    | some r =>
      obtain ⟨next, avail⟩ := r
      have free : t.availBuffers.items ≠ [] := by
        rw [BoundedQueue.remove_some removed]
        exact List.cons_ne_nil _ _
      refine iff_of_false ?_ fun both => free both.2
      by_cases room : t.writeOutBuffers.HasRoom
      · obtain ⟨accepted, items⟩ := BoundedQueue.addIfRoom_room t.currentBuffer room
        simp only [accepted, if_true, items]
        exact List.append_ne_nil_of_right_ne_nil _ (List.cons_ne_nil _ _)
      · rw [BoundedQueue.addIfRoom_full _ room]
        intro empty
        have none : t.writeOutBuffers.items = [] := empty
        apply room
        rw [BoundedQueue.HasRoom, none]
        decide
  · have none : t.current.data = [] := List.eq_nil_of_length_eq_zero (Nat.eq_zero_of_not_pos data)
    rw [if_neg data]
    exact (and_iff_left (Or.inl none)).symm

theorem rotateEvents_balanced (t : LogTarget) : HeldLocks.Balanced t.rotateEvents := by
  unfold rotateEvents
  cases t.rotate.2 with
  | rotated => exact HeldLocks.balanced_nil
  | noData => exact HeldLocks.balanced_nil
  | noBuffers => exact HeldLocks.balanced_lock _ _
  | writeOutFull => exact HeldLocks.balanced_lock _ _

theorem flushOutSync_balanced {t : LogTarget} (untangled : t.kind ≠ .tty) (o : Owner)
    (nocallbacks : Bool) (out : List BufId) :
    HeldLocks.Balanced (t.flushOutSyncEvents o nocallbacks out) := by
  induction out generalizing t o with
  | nil => exact HeldLocks.balanced_nil
  | cons b rest ih =>
    have first := (flushSync_events untangled o b nocallbacks).1
    exact first.append (ih (t := (t.flushSync o b).1) untangled (t.flushSync o b).2.1)

/-- flushAllSync waits for itself where a ttyTarget has something to put out. -/
theorem flushAllSync_waits (t : LogTarget) (o : Owner) (nocallbacks : Bool) :
    HeldLocks.after [] (t.flushAllSyncEvents o nocallbacks) = none ↔
      t.kind = .tty ∧ t.rotate.1.writeOutBuffers.items ≠ [] := by
  let ready : LogTarget := { t.rotate.1 with writeOutBuffers := .empty }
  have kind : ready.kind = t.kind := (onlyClears_rotate t).config.kind
  have turned : HeldLocks.after [] (t.flushAllSyncEvents o nocallbacks) =
      HeldLocks.after [] (ready.flushOutSyncEvents o nocallbacks t.rotate.1.writeOutBuffers.items) := by
    have first : HeldLocks.after [] t.rotateEvents = some [] := t.rotateEvents_balanced
    rw [flushAllSyncEvents, HeldLocks.after_append, first]
    rfl
  rw [turned]
  by_cases tty : t.kind = .tty
  · rw [and_iff_right tty]
    cases out : t.rotate.1.writeOutBuffers.items with
    | nil =>
      refine iff_of_false ?_ fun some => some rfl
      rintro ⟨⟩
    | cons b rest =>
      exact iff_of_true (flushOutSync_tty (kind.trans tty) o nocallbacks b rest) (List.cons_ne_nil b rest)
  · have balanced := flushOutSync_balanced (fun h => tty (kind.symm.trans h)) o nocallbacks
      t.rotate.1.writeOutBuffers.items
    refine iff_of_false ?_ fun both => tty both.1
    rw [balanced]
    rintro ⟨⟩

end LogTarget

structure Drain where
  L : Logger
  files : TargetId → TargetFile

structure DrainEnv where
  write : Nat → WriteEnv
  writev : Nat → Option Nat

namespace Drain

/-- The actions on the file, if it has one, of a target; the logger is this then. -/
def onFile (d : Drain) (id : TargetId) (t : LogTarget) (actions : List FileWrites.Action) (L : Logger) :
    Option Drain :=
  match t.kind with
  | .file =>
    (actions.foldlM TargetFile.act (d.files id)).map fun f =>
      { L := L, files := Function.update d.files id f }
  | .tty | .callback => some { d with L := L }

variable (env : DrainEnv)

/-- masterBufferAvail.add(l) waits for room. -/
def handleNewLog (d : Drain) (slot : PoolSlot) : Option Drain :=
  if d.L.masterBufferAvail.HasRoom then
    some { d with L := (Logger.handleNewLog env.write d.L slot).1 }
  else none

def handleRotate (d : Drain) (id : TargetId) : Option Drain :=
  let L := (Logger.handleRotate d.L id).1
  match d.L.target id with
  | none => some { d with L := L }
  | some t => d.onFile id t (t.flushActions false) L

def overflowTo (l : SingleLog) (d : Drain) (call : Selected) : Option Drain :=
  let L := (Logger.overflowTo env.write d.L l call).1
  match d.L.target call.target with
  | none => some { d with L := L }
  | some t =>
    d.onFile call.target t
      (t.overflowActions (env.write d.L.calls) (env.writev d.L.calls) l call.filter) L

def handleOverflow (d : Drain) (l : SingleLog) : Option Drain :=
  (d.L.routed l.extraMeta).foldlM (overflowTo env { l with extraMeta := d.L.sifted l.extraMeta }) d

/-- The default target is flushed with its callbacks, the other ones without. -/
def flushTargetSync (d : Drain) (id : TargetId) : Option Drain :=
  let L := d.L.flushTargetSync id
  match d.L.target id with
  | none => some { d with L := L }
  | some t =>
    if HeldLocks.after [] (t.flushAllSyncEvents d.L.owner (id != 0)) = none then none
    else d.onFile id t t.flushSyncActions L

def handleShutdown (d : Drain) : Option Drain := (0 :: d.L.targets.keys).foldlM flushTargetSync d

def handleReq (d : Drain) : InternalCmdReq → Option Drain
  | .newLog slot => d.handleNewLog env slot
  | .targetRotateBuffer id => d.handleRotate id
  | .writeTargetOverflow _ l => d.handleOverflow env l
  | .internalShutdown => d.handleShutdown

def removeReq (d : Drain) : Option (InternalCmdReq × Drain) :=
  d.L.removeReq.map fun r => (r.1, { d with L := r.2 })

/-! Where a command comes to its end. -/

def FilesFit (d : Drain) (id : TargetId) (actions : List FileWrites.Action) : Prop :=
  Runs.Checked TargetFile.Fits (Runs.next TargetFile.act) (d.files id) actions

def OverflowFits (l : SingleLog) (d : Drain) (call : Selected) : Prop :=
  ∀ t, d.L.target call.target = some t → t.kind = .file →
    d.FilesFit call.target
      (t.overflowActions (env.write d.L.calls) (env.writev d.L.calls) l call.filter)

/-- A ttyTarget has nothing to put out. -/
def FlushSyncFits (d : Drain) (id : TargetId) : Prop :=
  ∀ t, d.L.target id = some t →
    match t.kind with
    | .tty => t.writeOutBuffers.items = [] ∧ (t.current.data = [] ∨ t.availBuffers.items = [])
    | .file => d.FilesFit id t.flushSyncActions
    | .callback => True

def Fits (d : Drain) : InternalCmdReq → Prop
  | .newLog _ => d.L.masterBufferAvail.HasRoom
  | .targetRotateBuffer _ => True
  | .writeTargetOverflow _ l =>
    let sent := { l with extraMeta := d.L.sifted l.extraMeta }
    Runs.Checked (OverflowFits env sent) (Runs.next (overflowTo env sent)) d (d.L.routed l.extraMeta)
  | .internalShutdown =>
    Runs.Checked FlushSyncFits (Runs.next flushTargetSync) d (0 :: d.L.targets.keys)

variable {env : DrainEnv} {d d' : Drain}

theorem flushes_fit (f : TargetFile) (lengths : List Nat) :
    Runs.Checked TargetFile.Fits (Runs.next TargetFile.act) f (lengths.map .flush) := by
  induction lengths generalizing f with
  | nil => trivial
  | cons n rest ih =>
    refine ⟨?_, ih _⟩
    rintro ⟨_, _, ends, _⟩
    cases ends

theorem onFile_isSome (d : Drain) (id : TargetId) (t : LogTarget) (actions : List FileWrites.Action)
    (L : Logger) :
    (d.onFile id t actions L).isSome = true ↔ (t.kind = .file → d.FilesFit id actions) := by
  have acted := Runs.foldlM_isSome TargetFile.act_isSome actions (d.files id)
  unfold onFile
  cases t.kind with
  | tty => exact iff_of_true rfl (by rintro ⟨⟩)
  | callback => exact iff_of_true rfl (by rintro ⟨⟩)
  | file =>
    simp only [Option.isSome_map, acted]
    constructor
    · intro fits _
      exact fits
    · intro fits
      exact fits trivial

theorem overflowTo_isSome (env : DrainEnv) (l : SingleLog) (d : Drain) (call : Selected) :
    (overflowTo env l d call).isSome = true ↔ OverflowFits env l d call := by
  unfold overflowTo OverflowFits
  cases found : d.L.target call.target with
  | none => exact iff_of_true rfl (by rintro t ⟨⟩)
  | some t =>
    refine (onFile_isSome d call.target t _ _).trans ?_
    constructor
    · rintro fits u ⟨⟩
      exact fits
    · exact fun fits => fits t rfl

theorem flushTargetSync_isSome (d : Drain) (id : TargetId) :
    (d.flushTargetSync id).isSome = true ↔ d.FlushSyncFits id := by
  cases found : d.L.target id with
  | none =>
    simp only [flushTargetSync, FlushSyncFits, found]
    exact iff_of_true rfl (by rintro t ⟨⟩)
  | some t =>
    have waits := t.flushAllSync_waits d.L.owner (id != 0)
    have acted := onFile_isSome d id t t.flushSyncActions (d.L.flushTargetSync id)
    have own : d.FlushSyncFits id ↔ match t.kind with
        | .tty => t.writeOutBuffers.items = [] ∧ (t.current.data = [] ∨ t.availBuffers.items = [])
        | .file => d.FilesFit id t.flushSyncActions
        | .callback => True :=
      ⟨fun fits => fits t found, fun fits u there => Option.some.inj (found.symm.trans there) ▸ fits⟩
    rw [own, flushTargetSync, found]
    simp only
    cases kind : t.kind with
    | tty =>
      rw [kind, and_iff_right rfl, ne_eq, t.rotate_leaves_none] at waits
      rw [kind] at acted
      split
      · next tangled => exact iff_of_false Bool.false_ne_true (waits.mp tangled)
      · next fits =>
        have through := acted.mpr (by rintro ⟨⟩)
        exact iff_of_true through (not_not.mp fun some => fits (waits.mpr some))
    | file =>
      rw [kind] at waits acted
      rw [if_neg fun tangled => nomatch (waits.mp tangled).1]
      exact acted.trans ⟨fun fits => fits rfl, fun fits _ => fits⟩
    | callback =>
      rw [kind] at waits acted
      rw [if_neg fun tangled => nomatch (waits.mp tangled).1]
      exact iff_of_true (acted.mpr (by rintro ⟨⟩)) trivial

theorem handleReq_isSome (env : DrainEnv) (d : Drain) (req : InternalCmdReq) :
    (d.handleReq env req).isSome = true ↔ d.Fits env req := by
  cases req with
  | newLog slot =>
    simp only [handleReq, handleNewLog, Fits]
    by_cases room : d.L.masterBufferAvail.HasRoom
    · rw [if_pos room]
      exact iff_of_true rfl room
    · rw [if_neg room]
      exact iff_of_false Bool.false_ne_true room
  | targetRotateBuffer id =>
    refine iff_of_true ?_ trivial
    simp only [handleReq, handleRotate]
    cases d.L.target id with
    | none => rfl
    | some t =>
      rw [onFile_isSome]
      intro _
      have fits := flushes_fit (d.files id)
        (t.writeOutBuffers.items.map fun b => (t.buffers b).data.length)
      rw [List.map_map] at fits
      exact fits
  | writeTargetOverflow _ l => exact Runs.foldlM_isSome (overflowTo_isSome env _) _ d
  | internalShutdown => exact Runs.foldlM_isSome flushTargetSync_isSome _ d

/-! A command that comes to its end has done what handleReq does. -/

theorem onFile_logger {id : TargetId} {t : LogTarget} {actions : List FileWrites.Action} {L : Logger}
    (done : d.onFile id t actions L = some d') : d'.L = L := by
  unfold onFile at done
  split at done
  · obtain ⟨f, _, rfl⟩ := Option.map_eq_some_iff.mp done
    rfl
  · obtain rfl := Option.some.inj done
    rfl
  · obtain rfl := Option.some.inj done
    rfl

theorem overflowTo_logger {l : SingleLog} {call : Selected} (done : overflowTo env l d call = some d') :
    d'.L = (Logger.overflowTo env.write d.L l call).1 := by
  unfold overflowTo at done
  split at done
  · obtain rfl := Option.some.inj done
    rfl
  · exact onFile_logger done

theorem flushTargetSync_logger {id : TargetId} (done : d.flushTargetSync id = some d') :
    d'.L = d.L.flushTargetSync id := by
  unfold flushTargetSync at done
  split at done
  · obtain rfl := Option.some.inj done
    rfl
  · split at done
    · cases done
    · exact onFile_logger done

theorem callAll_foldl (act : Logger → Selected → Logger × List Event) (calls : List Selected)
    (L : Logger) : (Logger.callAll act L calls).1 = calls.foldl (fun L call => (act L call).1) L := by
  induction calls generalizing L with
  | nil => rfl
  | cons call rest ih => exact ih (act L call).1

theorem handleReq_logger {req : InternalCmdReq} (done : d.handleReq env req = some d') :
    d'.L = (Logger.handleReq env.write d.L req).1 := by
  cases req with
  | newLog slot =>
    simp only [handleReq, handleNewLog] at done
    split at done
    · obtain rfl := Option.some.inj done
      rfl
    · cases done
  | targetRotateBuffer id =>
    simp only [handleReq, handleRotate] at done
    split at done
    · obtain rfl := Option.some.inj done
      rfl
    · exact onFile_logger done
  | writeTargetOverflow _ l =>
    simp only [Logger.handleReq, Logger.handleOverflow, callAll_foldl]
    exact Runs.foldlM_foldl Drain.L (fun _ _ _ each => overflowTo_logger each) done
  | internalShutdown => exact Runs.foldlM_foldl Drain.L (fun _ _ _ each => flushTargetSync_logger each) done

theorem removeReq_logger {rest : Drain} {req : InternalCmdReq} (took : d.removeReq = some (req, rest)) :
    d.L.removeReq = some (req, rest.L) := by
  obtain ⟨r, removed, same⟩ := Option.map_eq_some_iff.mp took
  obtain ⟨rfl, rfl⟩ := Prod.mk.inj same
  exact removed

theorem goes_drain {n : Nat} {last : Drain} (goes : Worklist.Goes removeReq (handleReq env) d n last)
    (empty : last.removeReq = none) (more : Nat) :
    (Logger.drain env.write (n + more) d.L).1 = last.L := by
  unfold Logger.drain
  induction goes with
  | start d =>
    have none : d.L.removeReq = none := Option.map_eq_none_iff.mp empty
    rw [Worklist.drain_none none]
  | @turn d rest next last req n took handled _ ih =>
    rw [Nat.add_right_comm, Worklist.drain_some (removeReq_logger took), ← handleReq_logger handled]
    exact ih empty

/-! What a command adds to the queue. -/

def Adds (L : Logger) (req : InternalCmdReq) (L' : Logger) : Prop :=
  ∃ added, L'.owner.internalCmdQueue.items = L.owner.internalCmdQueue.items ++ added ∧
    (∀ r ∈ added, r.OfWrite) ∧
    added.length ≤ match req with
      | .newLog slot => (L.routed (L.pool slot).extraMeta).length
      | _ => 0

theorem writes_add (env : Nat → WriteEnv) (s : List Byte) (m : LogMeta) (calls : List Selected)
    (L : Logger) :
    ∃ added, (Logger.callAll (fun L call => Logger.writeTo env L s m call) L calls).1.owner.internalCmdQueue.items =
        L.owner.internalCmdQueue.items ++ added ∧
      (∀ r ∈ added, r.OfWrite) ∧ added.length ≤ calls.length := by
  induction calls generalizing L with
  | nil => exact ⟨[], (List.append_nil _).symm, fun r mem => absurd mem List.not_mem_nil, Nat.le_refl 0⟩
  | cons call rest ih =>
    obtain ⟨added', items', ofWrite', few'⟩ := ih (Logger.writeTo env L s m call).1
    have first : ∃ added, (Logger.writeTo env L s m call).1.owner.internalCmdQueue.items =
        L.owner.internalCmdQueue.items ++ added ∧ (∀ r ∈ added, r.OfWrite) ∧ added.length ≤ 1 := by
      unfold Logger.writeTo
      split
      · exact ⟨[], (List.append_nil _).symm, fun r mem => absurd mem List.not_mem_nil, Nat.zero_le 1⟩
      · next t _ =>
        obtain ⟨added, items, one, ofWrite, _⟩ :=
          LogTarget.write_queue t L.owner (env L.calls) s m call.filter
        exact ⟨added, items, ofWrite, one⟩
    obtain ⟨added, items, ofWrite, one⟩ := first
    refine ⟨added ++ added', ?_, List.forall_mem_append.mpr ⟨ofWrite, ofWrite'⟩, ?_⟩
    · rw [← List.append_assoc, ← items]
      exact items'
    · rw [List.length_append, List.length_cons]
      omega

theorem handleReq_adds (env : Nat → WriteEnv) (L : Logger) (req : InternalCmdReq) :
    Adds L req (Logger.handleReq env L req).1 := by
  cases kind : req.slot? with
  | none =>
    have commands := (Logger.handleReq_pool env L kind).2
    exact ⟨[], by rw [commands, List.append_nil], fun r mem => absurd mem List.not_mem_nil, Nat.zero_le _⟩
  | some slot =>
    obtain rfl : req = .newLog slot := by
      cases req <;> simp_all [InternalCmdReq.slot?]
    exact writes_add env _ _ _ L

theorem ofWrite_costs {added : List InternalCmdReq} (ofWrite : ∀ r ∈ added, r.OfWrite) :
    (added.map Logger.cost).sum = added.length := by
  rw [List.map_congr_left fun r mem => Logger.cost_slotless (ofWrite_slotless (ofWrite r mem)),
    List.map_const', List.sum_replicate_nat, Nat.mul_one]

/-- Every command that is handled lowers what the pending ones can cost. -/
theorem handleReq_lowers {rest : Drain} {req : InternalCmdReq} (took : d.removeReq = some (req, rest))
    (handled : rest.handleReq env req = some d') : d'.L.pendingCost < d.L.pendingCost := by
  have before : d.L.owner.internalCmdQueue.items = req :: rest.L.owner.internalCmdQueue.items :=
    (Logger.removeReq_some (removeReq_logger took)).1
  obtain ⟨added, after, ofWrite, few⟩ := handleReq_adds env.write rest.L req
  rw [← handleReq_logger handled] at after
  have costs := ofWrite_costs ofWrite
  have less : added.length < Logger.cost req := by
    cases req with
    | newLog slot =>
      have calls := Logger.routed_length rest.L (rest.L.pool slot).extraMeta
      exact Nat.lt_one_add_iff.mpr (Nat.le_trans few calls)
    | targetRotateBuffer id => exact Nat.lt_succ_of_le few
    | writeTargetOverflow id l => exact Nat.lt_succ_of_le few
    | internalShutdown => exact Nat.lt_succ_of_le few
  simp only [Logger.pendingCost, before, after, List.map_append, List.sum_append, List.map_cons,
    List.sum_cons, costs]
  omega

theorem ends_handleInternalCmd {n : Nat} {last : Drain}
    (goes : Worklist.Goes removeReq (handleReq env) d n last) (empty : last.removeReq = none) :
    (Logger.handleInternalCmd env.write d.L).1 = last.L := by
  have enough := Worklist.goes_le (fun _ _ _ _ took handled => handleReq_lowers took handled) goes
  obtain ⟨more, fuel⟩ := Nat.exists_eq_add_of_le (Nat.le_of_add_right_le enough)
  have loop : Logger.handleInternalCmd env.write d.L = Logger.drain env.write d.L.pendingCost d.L := rfl
  rw [loop, fuel]
  exact goes_drain goes empty more

theorem newLog_fits (apart : d.L.SlotsApart) {rest : Drain} {slot : PoolSlot}
    (comes : Worklist.Comes removeReq (handleReq env) d rest (.newLog slot)) :
    rest.Fits env (.newLog slot) := by
  obtain ⟨n, last, goes, took⟩ := comes
  have keeps : ∀ (s : Drain) (req : InternalCmdReq) (rest t : Drain), s.L.SlotsApart →
      s.removeReq = some (req, rest) → rest.handleReq env req = some t → t.L.SlotsApart := by
    intro s req rest t apart took handled
    rw [handleReq_logger handled]
    exact Logger.handleReq_slots env.write apart (removeReq_logger took)
  have still : last.L.SlotsApart := Worklist.goes_keeps keeps goes apart
  obtain ⟨⟨first, queue⟩, removed, same⟩ := Option.map_eq_some_iff.mp (removeReq_logger took)
  obtain ⟨rfl, kept⟩ := Prod.mk.inj same
  have items := BoundedQueue.remove_some removed
  have few := still.length_le_card
  rw [Owner.queuedSlots, items, List.length_append, Fintype.card_fin] at few
  have avail : rest.L.masterBufferAvail = last.L.masterBufferAvail := by rw [← kept]
  have more : (InternalCmdReq.newLog slot :: queue.items).filterMap InternalCmdReq.slot? =
      slot :: queue.items.filterMap InternalCmdReq.slot? := rfl
  rw [more, List.length_cons] at few
  simp only [Fits, avail, BoundedQueue.HasRoom]
  omega

/-- The loop ends exactly if it comes to no command that waits: a buffer for which
    the pool has no room, a flushAllSync of a ttyTarget that has something to put out,
    or the rotation of a file whose list is full. It handles no more commands than
    the queue has at first can cost, and only a NEW_LOG adds commands. -/
theorem drain_ends_iff (env : DrainEnv) (d : Drain) :
    (Worklist.Ends removeReq (handleReq env) d ↔
      ∀ rest req, Worklist.Comes removeReq (handleReq env) d rest req → rest.Fits env req) ∧
    (∀ n last, Worklist.Goes removeReq (handleReq env) d n last →
      n + last.L.pendingCost ≤ d.L.pendingCost) ∧
    ∀ before req after, handleReq env before req = some after → Adds before.L req after.L := by
  have lowers : ∀ (s : Drain) (req : InternalCmdReq) (rest t : Drain), s.removeReq = some (req, rest) →
      rest.handleReq env req = some t → t.L.pendingCost < s.L.pendingCost :=
    fun _ _ _ _ took handled => handleReq_lowers took handled
  refine ⟨?_, ?_, ?_⟩
  · rw [Worklist.ends_iff lowers]
    simp only [handleReq_isSome]
  · intro n last goes
    exact Worklist.goes_le lowers goes
  · intro before req after handled
    rw [handleReq_logger handled]
    exact handleReq_adds env.write before.L req

def plainFile : TargetFile where
  writes := .start false false 0 none
  opts := ⟨0, 0, 0⟩
  target := opened fun _ => none
  rotated := 0
  lists := ⟨rfl, SafeCircular.new_holds (by decide) blankFile⟩

def ttyLine : LogTarget := (LogTarget.new .tty 200 0 [10]).store [] [97] []

def ttyShutdown : Drain where
  L := { Logger.new {} (fun _ => .new) (fun _ => []) with
    defaultTarget := some ttyLine
    owner := { internalCmdQueue := ⟨[.internalShutdown], by decide⟩ } }
  files := fun _ => plainFile

theorem shutdown_waits_itself :
    ¬ Worklist.Ends removeReq (handleReq ⟨plainEnvs, fun _ => none⟩) ttyShutdown := by
  rintro ⟨n, last, goes, empty⟩
  have handled := Worklist.handled_of_ends goes empty (.start _) (show ttyShutdown.removeReq = _ from rfl)
  rw [handleReq_isSome] at handled
  obtain ⟨fits, _⟩ := handled
  have nothing : ttyLine.writeOutBuffers.items = [] ∧
      (ttyLine.current.data = [] ∨ ttyLine.availBuffers.items = []) := fits ttyLine rfl
  revert nothing
  decide

end Drain

end GreaseLog
