import GreaseLog.GreaseRefs
import GreaseLog.Unwritten

/- ModifyDefaultTarget and targetReady: the default target gives way to another
   while the logger goes on. A target that is no longer the default one is found by
   nothing but the callbacks of its writes. -/
namespace GreaseLog

inductive Written where
  | buffer (data : List Byte)
  | overflow (data : List Byte)

def Written.buffer? : Written → Option (List Byte)
  | .buffer data => some data
  | .overflow _ => none

def overflowed (data : List Byte) : List Written := if data = [] then [] else [.overflow data]

/-- The entries that write() of a target has accepted, and what the writes that have ended put
    out. Writes may end in any order. -/
structure Journal where
  accepted : List (List Byte) := []
  output : List Written := []

namespace Journal

def buffers (j : Journal) : List (List Byte) := j.output.filterMap Written.buffer?

/-- The buffers that are out divide into the accepted entries, each of them once. An
    entry of no bytes needs no write. -/
def Complete (j : Journal) : Prop :=
  ∃ parts : List (List (List Byte)), j.buffers = parts.map List.flatten ∧
    parts.flatten.Perm (j.accepted.filter (· ≠ []))

end Journal

namespace LogTarget

def accepts (t : LogTarget) (env : WriteEnv) (s : List Byte) (m : LogMeta) (filter : Filter) :
    WriteOutcome → List (List Byte)
  | .stored afterRotate | .overran afterRotate =>
    [(if afterRotate then t.rotate.1 else t).copiedEntry env s m filter]
  | _ => []

def putsOut (t : LogTarget) (k : Nat) : List Written :=
  match t.inflight[k]? with
  | none => []
  | some (.buffer b _) => [.buffer (t.buffers b).data]
  | some (.overflow entry _) => [.overflow entry.flatten]

def unfinished (t : LogTarget) : List BufId := t.inflight.filterMap WriteReq.buf? ++ t.waiting

def Rotates (t : LogTarget) (env : WriteEnv) (s : List Byte) (m : LogMeta) (filter : Filter) : Prop :=
  t.disabled = false ∧ s.length + GREASE_MAX_PREFIX_HEADER ≤ t.bankSize ∧
    t.current.remain < s.length + (t.header env m filter).length + (t.footer env m filter).length

instance (t : LogTarget) (env : WriteEnv) (s : List Byte) (m : LogMeta) (filter : Filter) :
    Decidable (t.Rotates env s m filter) := inferInstanceAs (Decidable (_ ∧ _))

end LogTarget

namespace Logger

def flushDefault (L : Logger) : Logger :=
  match L.defaultTarget with
  | none => L
  | some t =>
    let r := t.flushAll L.owner true false
    { L with defaultTarget := some r.1, owner := r.2.1 }

def flushListed (nocallbacks : Bool) (L : Logger) (id : TargetId) : Logger :=
  match L.targets.lookup id with
  | none => L
  | some t =>
    let r := t.flushAll L.owner true nocallbacks
    { L with targets := L.targets.insert id r.1, owner := r.2.1 }

/-- The default target is not given nocallbacks. -/
def flushAll (L : Logger) (nocallbacks : Bool) : Logger :=
  L.targets.keys.foldl (flushListed nocallbacks) L.flushDefault

end Logger

/-- The logger, the journal of its default target, and the targets that have been
    the default one with theirs. -/
structure DefaultTargets where
  L : Logger
  journal : Journal := {}
  retired : List (LogTarget × Journal) := []

inductive DefaultAction where
  /-- defaultTarget->write(...) of a dispatch. -/
  | write (s : List Byte) (m : LogMeta) (filter : Filter)
  /-- defaultTarget->flushAll(); defaultTarget->writeOverflow(...) -/
  | overflow (l : SingleLog) (filter : Filter)
  /-- TARGET_ROTATE_BUFFER for the target 0 -/
  | rotateBuffer
  | flushAll (nocallbacks : Bool)
  | writeCb (k : Nat)
  | retiredWriteCb (n k : Nat)
  /-- A new target and targetReady for it. -/
  | modifyDefaultTarget (kind : TargetKind) (bufferSize : Nat) (delim : List Byte)
  /-- ModifyDefaultTarget without one. -/
  | configure (formats : TargetFormats) (delim : List Byte)
  | disableWrites (v : Bool)
  /-- The other targets, the commands, the filters. -/
  | others (L : Logger)

def DefaultAction.isWriteCb : DefaultAction → Bool
  | .writeCb _ | .retiredWriteCb _ _ => true
  | _ => false

namespace DefaultTargets
variable (env : Nat → WriteEnv)

def byDefault (filter : Filter) : Selected := ⟨0, none, filter⟩

def accept (d : DefaultTargets) (L : Logger) (entries : List (List Byte)) : DefaultTargets :=
  { d with L := L, journal := { d.journal with accepted := d.journal.accepted ++ entries } }

def put (d : DefaultTargets) (L : Logger) (written : List Written) : DefaultTargets :=
  { d with L := L, journal := { d.journal with output := d.journal.output ++ written } }

def on (d : DefaultTargets) (f : LogTarget → DefaultTargets) : DefaultTargets :=
  match d.L.defaultTarget with
  | none => d
  | some t => f t

def apply (d : DefaultTargets) : DefaultAction → DefaultTargets
  | .write s m filter => d.on fun t =>
    let r := t.write d.L.owner (env d.L.calls) s m filter
    d.accept (d.L.writeTo env s m (byDefault filter)).1 (t.accepts (env d.L.calls) s m filter r.2.2)
  | .overflow l filter => d.on fun t =>
    let flushed := t.flushAll d.L.owner true false
    let r := flushed.1.writeOverflow flushed.2.1 (env d.L.calls) l filter
    d.put (d.L.overflowTo env l (byDefault filter)).1 (overflowed r.2.2.2)
  | .rotateBuffer => { d with L := (d.L.handleRotate 0).1 }
  | .flushAll nocallbacks => { d with L := d.L.flushAll nocallbacks }
  | .writeCb k => d.on fun t =>
    let r := t.endWrite d.L.owner k
    d.put { d.L with defaultTarget := some r.1, owner := r.2 } (t.putsOut k)
  | .retiredWriteCb n k =>
    match d.retired[n]? with
    | none => d
    | some (t, j) =>
      let r := t.endWrite d.L.owner k
      { d with
        L := { d.L with owner := r.2 }
        retired := d.retired.set n (r.1, { j with output := j.output ++ t.putsOut k }) }
  | .modifyDefaultTarget kind bufferSize delim =>
    { L := { d.L with defaultTarget := some (LogTarget.new kind bufferSize 0 delim) }
      retired := d.retired ++ d.L.defaultTarget.toList.map fun t => (t, d.journal) }
  | .configure formats delim => d.on fun t =>
    { d with L := { d.L with defaultTarget := some { t with formats := formats, delim := delim } } }
  | .disableWrites v => d.on fun t =>
    { d with L := { d.L with defaultTarget := some { t with disabled := v } } }
  | .others L => { d with L := L }

/-- The new target is a ttyTarget or a fileTarget. Nothing here sets a callback for
    it, which is for AddTarget to do. -/
def Allowed (d : DefaultTargets) : DefaultAction → Prop
  | .modifyDefaultTarget kind _ _ => kind ≠ .callback
  | .others L => L.defaultTarget = d.L.defaultTarget
  | _ => True

def Step (d : DefaultTargets) (a : DefaultAction) (d' : DefaultTargets) : Prop :=
  d.Allowed a ∧ d' = d.apply env a

structure Start (d : DefaultTargets) : Prop where
  noTarget : d.L.defaultTarget = none
  journal : d.journal = {}
  retired : d.retired = []

/-- The old target has nothing left to be flushed when it is replaced; and rotate()
    finds a free buffer for what is in the current one. -/
def Keeps (d : DefaultTargets) : DefaultAction → Prop
  | .write s m filter => ∀ t ∈ d.L.defaultTarget,
    t.Rotates (env d.L.calls) s m filter → t.RotateFits
  | .overflow _ _ | .flushAll _ => ∀ t ∈ d.L.defaultTarget, t.RotateFits
  | .modifyDefaultTarget _ _ _ => ∀ t ∈ d.L.defaultTarget, bytesIn t.buffers t.waiting = []
  | _ => True

instance (d : DefaultTargets) : ∀ a, Decidable (d.Keeps env a)
  | .write s m filter => inferInstanceAs (Decidable (∀ t ∈ d.L.defaultTarget,
    t.Rotates (env d.L.calls) s m filter → t.RotateFits))
  | .overflow _ _ | .flushAll _ =>
    inferInstanceAs (Decidable (∀ t ∈ d.L.defaultTarget, t.RotateFits))
  | .modifyDefaultTarget _ _ _ =>
    inferInstanceAs (Decidable (∀ t ∈ d.L.defaultTarget, bytesIn t.buffers t.waiting = []))
  | .rotateBuffer | .writeCb _ | .retiredWriteCb _ _ | .configure _ _ | .disableWrites _ | .others _ =>
    inferInstanceAs (Decidable True)

def Ended (d : DefaultTargets) : Prop :=
  (∀ t ∈ d.L.defaultTarget, t.inflight = []) ∧ ∀ r ∈ d.retired, r.1.inflight = []

def Complete (d : DefaultTargets) : Prop :=
  d.journal.Complete ∧ ∀ r ∈ d.retired, r.2.Complete

end DefaultTargets

/-! One target and its journal. -/

namespace LogTarget

structure Plain (t : LogTarget) : Prop where
  wf : t.BankWf {} []
  asynchronous : t.kind ≠ .callback
  noCallback : t.logCallbackSet = false

/-- The accepted entries are in the buffers that are out, in those that are to come
    out, or lost. -/
structure Tracks (t : LogTarget) (j : Journal) (entries : BufId → List (List Byte))
    (done : List (List (List Byte))) (lost : List (List Byte)) : Prop where
  data : ∀ b, (t.buffers b).data = (entries b).flatten
  out : j.buffers = done.map List.flatten
  accepted : j.accepted.Perm (done.flatten ++ t.unfinished.flatMap entries ++ lost)

structure Account (t : LogTarget) (j : Journal) : Prop where
  plain : t.Plain
  tracks : ∃ entries done lost, t.Tracks j entries done lost

def Lossless (t : LogTarget) (j : Journal) : Prop :=
  j.accepted.flatten.length = j.buffers.flatten.length + (bytesIn t.buffers t.unfinished).length

structure Passes (t : LogTarget) (j : Journal) (t' : LogTarget) (j' : Journal) (keeps : Prop) : Prop where
  account : t'.Account j'
  lossless : t'.Lossless j' ↔ t.Lossless j ∧ keeps

variable {t t' t'' : LogTarget} {j j' j'' : Journal} {o : Owner} {entries entries' : BufId → List (List Byte)}
  {done done' : List (List (List Byte))} {lost lost' : List (List Byte)} {keeps keeps' : Prop}

theorem Tracks.bytes (tracks : t.Tracks j entries done lost) (bs : List BufId) :
    bytesIn t.buffers bs = (bs.flatMap entries).flatten := by
  rw [List.flatMap_def, List.flatten_flatten, List.map_map]
  exact congrArg List.flatten (List.map_congr_left fun b _ => tracks.data b)

theorem Tracks.lossless_iff (tracks : t.Tracks j entries done lost) :
    t.Lossless j ↔ lost.flatten = [] := by
  have total := tracks.accepted.flatten.length_eq
  have out : j.buffers.flatten.length = done.flatten.flatten.length := by
    rw [tracks.out, List.flatten_flatten]
  have left := congrArg List.length (tracks.bytes t.unfinished)
  simp only [List.flatten_append, List.length_append] at total
  rw [Lossless, ← List.length_eq_zero_iff]
  omega

theorem passes_of (plain : t'.Plain) (tracks : t.Tracks j entries done lost)
    (tracks' : t'.Tracks j' entries' done' lost')
    (iff : lost'.flatten = [] ↔ lost.flatten = [] ∧ keeps) : t.Passes j t' j' keeps :=
  ⟨⟨plain, _, _, _, tracks'⟩, by rw [tracks'.lossless_iff, tracks.lossless_iff, iff]⟩

theorem Passes.trans (first : t.Passes j t' j' keeps) (second : t'.Passes j' t'' j'' keeps') :
    t.Passes j t'' j'' (keeps ∧ keeps') :=
  ⟨second.account, by rw [second.lossless, first.lossless, and_assoc]⟩

theorem Passes.congr (passes : t.Passes j t' j' keeps) (iff : keeps ↔ keeps') :
    t.Passes j t' j' keeps' :=
  ⟨passes.account, by rw [passes.lossless, iff]⟩

theorem Account.moved (account : t.Account j) (plain : t'.Plain)
    (data : ∀ b, (t'.buffers b).data = (t.buffers b).data) (moved : t'.unfinished.Perm t.unfinished)
    (accepted : j'.accepted = j.accepted) (out : j'.buffers = j.buffers) : t.Passes j t' j' True := by
  obtain ⟨_, entries, done, lost, tracks⟩ := account
  have tracks' : t'.Tracks j' entries done lost := by
    refine ⟨fun b => (data b).trans (tracks.data b), out.trans tracks.out, ?_⟩
    rw [accepted]
    exact tracks.accepted.trans
      (((moved.symm.flatMap_right entries).append_left done.flatten).append_right lost)
  exact passes_of plain tracks tracks' (and_iff_left trivial).symm

theorem Account.same (account : t.Account j) : t.Passes j t j True :=
  account.moved account.plain (fun _ => rfl) (.refl _) rfl rfl

theorem flatMap_update {bs : List BufId} {b : BufId} (apart : b ∉ bs) (f : BufId → List (List Byte))
    (x : List (List Byte)) : bs.flatMap (Function.update f b x) = bs.flatMap f := by
  apply List.flatMap_congr
  intro c mem
  have other : c ≠ b := fun same => apart (same ▸ mem)
  rw [Function.update_of_ne other]

def sent (t : LogTarget) : List BufId := t.inflight.filterMap WriteReq.buf? ++ t.writeOutBuffers.items

theorem unfinished_eq (t : LogTarget) : t.unfinished = t.sent ++ [t.currentBuffer] := by
  simp only [unfinished, sent, waiting, List.append_assoc]

theorem Plain.current_not_sent (plain : t.Plain) : t.currentBuffer ∉ t.sent := by
  obtain ⟨submitted, waiting⟩ := current_elsewhere plain.wf
  intro mem
  exact (List.mem_append.mp mem).elim submitted waiting

theorem Plain.free_apart (plain : t.Plain) {b : BufId} (free : b ∈ t.availBuffers.items) :
    b ∉ t.unfinished := by
  have once := List.nodup_iff_count_le_one.mp plain.wf.nodup b
  have listed : 0 < t.availBuffers.items.count b := List.count_pos_iff.mpr free
  have none : ({} : Owner).pending t.myId = [] := rfl
  simp only [locations, none, List.append_nil, List.count_cons, List.count_append] at once
  rw [← List.count_eq_zero]
  simp only [unfinished, waiting, List.count_append, List.count_cons, List.count_nil]
  omega

theorem rotate_passes (account : t.Account j) : t.Passes j t.rotate.1 j t.RotateFits := by
  obtain ⟨plain, entries, done, lost, tracks⟩ := account
  have wf := rotate_wf plain.wf
  rcases rotate_wf_cases plain.wf with ⟨empty, h⟩ | ⟨data, none, h⟩ |
    ⟨data, next, avail, writeOut, first, out, h⟩
  · rw [h]
    exact (Account.same ⟨plain, _, _, _, tracks⟩).congr (iff_of_true trivial (Or.inl empty))
  · rw [h] at wf ⊢
    have unfits : ¬ t.RotateFits := fun fits => fits.elim data fun free => free none
    have tracks' : (t.clearBuffer t.currentBuffer).Tracks j
        (Function.update entries t.currentBuffer []) done (lost ++ entries t.currentBuffer) := by
      refine ⟨fun b => ?_, tracks.out, ?_⟩
      · by_cases same : b = t.currentBuffer
        · rw [same, clearBuffer, setBuffer_same, Function.update_self]
          rfl
        · rw [clearBuffer, setBuffer_other _ same, Function.update_of_ne same]
          exact tracks.data b
      · have accepted := tracks.accepted
        have unfinished : (t.clearBuffer t.currentBuffer).unfinished = t.sent ++ [t.currentBuffer] :=
          t.unfinished_eq
        rw [unfinished_eq, List.flatMap_append, List.flatMap_singleton] at accepted
        rw [unfinished, List.flatMap_append, List.flatMap_singleton, Function.update_self,
          flatMap_update plain.current_not_sent, List.append_nil]
        refine accepted.trans ?_
        simp only [List.append_assoc]
        exact ((List.perm_append_comm).append_left _).append_left _
    have lostNow : (lost ++ entries t.currentBuffer).flatten ≠ [] := by
      rw [List.flatten_append, ← tracks.data]
      exact fun none => data (List.append_eq_nil_iff.mp none).2
    refine passes_of ⟨wf, plain.asynchronous, plain.noCallback⟩ tracks tracks' ?_
    exact iff_of_false lostNow fun both => unfits both.2
  · have fits : t.RotateFits := Or.inr (by simp [first])
    have free : next ∈ t.availBuffers.items := by simp [first]
    rw [h] at wf ⊢
    have tracks' : ({ t with
        availBuffers := avail, writeOutBuffers := writeOut, currentBuffer := next } : LogTarget).Tracks
        j (Function.update entries next []) done lost := by
      refine ⟨fun b => ?_, tracks.out, ?_⟩
      · by_cases same : b = next
        · rw [same, Function.update_self]
          exact plain.wf.availCleared next free
        · rw [Function.update_of_ne same]
          exact tracks.data b
      · have unfinished : ({ t with
            availBuffers := avail, writeOutBuffers := writeOut, currentBuffer := next } :
            LogTarget).unfinished = t.unfinished ++ [next] := by
          simp only [LogTarget.unfinished, waiting, out, List.append_assoc]
        rw [unfinished, List.flatMap_append, List.flatMap_singleton, Function.update_self,
          flatMap_update (plain.free_apart free), List.append_nil]
        exact tracks.accepted
    refine passes_of ⟨wf, plain.asynchronous, plain.noCallback⟩ tracks tracks' ?_
    exact (and_iff_left fits).symm

theorem store_passes (account : t.Account j) (env : WriteEnv) (s : List Byte) (m : LogMeta)
    (filter : Filter) :
    t.Passes j (t.store (t.header env m filter) s (t.footer env m filter))
      { j with accepted := j.accepted ++ [t.copiedEntry env s m filter] } True := by
  obtain ⟨plain, entries, done, lost, tracks⟩ := account
  have wf := store_wf plain.wf (t.header env m filter) s (t.footer env m filter)
  let entry := t.copiedEntry env s m filter
  let entries' := Function.update entries t.currentBuffer (entries t.currentBuffer ++ [entry])
  have tracks' : (t.store (t.header env m filter) s (t.footer env m filter)).Tracks
      { j with accepted := j.accepted ++ [entry] } entries' done lost := by
    refine ⟨fun b => ?_, tracks.out, ?_⟩
    · by_cases same : b = t.currentBuffer
      · have before : t.current.data = (entries t.currentBuffer).flatten := tracks.data _
        rw [same, store, setBuffer_same, copyEntry_data]
        simp only [entries', Function.update_self, List.flatten_append, List.flatten_singleton, before,
          entry, copiedEntry, List.append_assoc]
      · rw [store, setBuffer_other _ same]
        simp only [entries', Function.update_of_ne same]
        exact tracks.data b
    · have accepted := tracks.accepted
      have unfinished : (t.store (t.header env m filter) s (t.footer env m filter)).unfinished =
          t.sent ++ [t.currentBuffer] := t.unfinished_eq
      rw [unfinished_eq, List.flatMap_append, List.flatMap_singleton] at accepted
      rw [unfinished, List.flatMap_append, List.flatMap_singleton]
      simp only [entries', Function.update_self, flatMap_update plain.current_not_sent]
      refine (accepted.append_right [entry]).trans ?_
      simp only [List.append_assoc]
      exact ((((List.perm_append_comm).append_left _).append_left _).append_left _)
  exact passes_of ⟨wf, plain.asynchronous, plain.noCallback⟩ tracks tracks' (and_iff_left trivial).symm

theorem submit_passes (account : t.Account j) (nocallbacks : Bool) :
    t.Passes j { t with
      writeOutBuffers := .empty
      inflight := t.inflight ++ t.writeOutBuffers.items.map (.buffer · nocallbacks) } j True := by
  have plain := account.plain
  have bufs : (t.inflight ++ t.writeOutBuffers.items.map (WriteReq.buffer · nocallbacks)).filterMap
      WriteReq.buf? = t.inflight.filterMap WriteReq.buf? ++ t.writeOutBuffers.items := by
    rw [List.filterMap_append, List.filterMap_map]
    exact congrArg _ List.filterMap_some
  have wf : ({ t with
      writeOutBuffers := .empty
      inflight := t.inflight ++ t.writeOutBuffers.items.map (.buffer · nocallbacks) } :
      LogTarget).BankWf {} [] := by
    refine plain.wf.moved rfl rfl (fun _ mem => mem) fun b => ?_
    simp only [locations, bufs, BoundedQueue.empty_items, List.count_append, List.count_cons,
      List.count_nil]
    omega
  refine account.moved ⟨wf, plain.asynchronous, plain.noCallback⟩ (fun _ => rfl) ?_ rfl rfl
  simp only [unfinished, waiting, bufs, BoundedQueue.empty_items, List.nil_append, List.append_assoc]
  rfl

theorem flushAll_passes (account : t.Account j) (o : Owner) (doRotate nocallbacks : Bool) :
    t.Passes j (t.flushAll o doRotate nocallbacks).1 j (doRotate = true → t.RotateFits) := by
  rw [flushAll_eq account.plain.asynchronous]
  cases doRotate with
  | true =>
    have rotated := rotate_passes account
    exact (rotated.trans (submit_passes rotated.account nocallbacks)).congr (by simp)
  | false => exact (submit_passes account nocallbacks).congr (by simp)

theorem write_passes (account : t.Account j) (o : Owner) (env : WriteEnv) (s : List Byte) (m : LogMeta)
    (filter : Filter) :
    let r := t.write o env s m filter
    t.Passes j r.1 { j with accepted := j.accepted ++ t.accepts env s m filter r.2.2 }
      (t.Rotates env s m filter → t.RotateFits) := by
  intro r
  have nothing : ({ j with accepted := j.accepted ++ [] } : Journal) = j := by rw [List.append_nil]
  have kept : ∀ (t : LogTarget) afterRotate, t.stored afterRotate = .stored afterRotate ∨
      t.stored afterRotate = .overran afterRotate := by
    intro t afterRotate
    unfold stored
    split
    · exact Or.inl rfl
    · exact Or.inr rfl
  obtain ⟨o', _, ⟨off, h⟩ | ⟨_, large, h⟩ | ⟨_, fit, h⟩ | ⟨⟨on, small⟩, unfit, _, _, h⟩ |
    ⟨⟨on, small⟩, unfit, _, _, h⟩ | ⟨⟨on, small⟩, unfit, _, h⟩⟩ := write_cases t o env s m filter
  · have stays : ¬ t.Rotates env s m filter := fun rotates => by simp [rotates.1] at off
    simp only [r, h, accepts, nothing]
    exact account.same.congr (iff_of_true trivial fun rotates => absurd rotates stays)
  · have stays : ¬ t.Rotates env s m filter := fun rotates => Nat.not_lt.mpr rotates.2.1 large
    have dropped : t.accepts env s m filter
        (if o.HasRoom then .requeued else .requeueDropped) = [] := by
      split <;> rfl
    simp only [r, h, dropped, nothing]
    exact account.same.congr (iff_of_true trivial fun rotates => absurd rotates stays)
  · have stays : ¬ t.Rotates env s m filter := fun rotates => Nat.not_lt.mpr fit rotates.2.2
    have accepted : t.accepts env s m filter
        ((t.store (t.header env m filter) s (t.footer env m filter)).stored false) =
        [t.copiedEntry env s m filter] := by
      rcases kept (t.store (t.header env m filter) s (t.footer env m filter)) false with h | h <;>
        rw [h] <;> rfl
    simp only [r, h, accepted]
    exact (store_passes account env s m filter).congr
      (iff_of_true trivial fun rotates => absurd rotates stays)
  · have rotates : t.Rotates env s m filter := ⟨on, small, Nat.lt_of_not_le unfit⟩
    obtain ⟨header, footer⟩ := (onlyClears_rotate t).config.texts
    have accepted : t.accepts env s m filter
        ((t.rotate.1.store (t.header env m filter) s (t.footer env m filter)).stored true) =
        [t.rotate.1.copiedEntry env s m filter] := by
      rcases kept (t.rotate.1.store (t.header env m filter) s (t.footer env m filter)) true with h | h <;>
        rw [h] <;> rfl
    have turned := rotate_passes account
    have stored := store_passes turned.account env s m filter
    rw [header, footer] at stored
    simp only [r, h, accepted]
    exact (turned.trans stored).congr ⟨fun both _ => both.1, fun fits => ⟨fits rotates, trivial⟩⟩
  · have rotates : t.Rotates env s m filter := ⟨on, small, Nat.lt_of_not_le unfit⟩
    simp only [r, h, accepts, nothing]
    exact (rotate_passes account).congr ⟨fun fits _ => fits, fun fits => fits rotates⟩
  · have rotates : t.Rotates env s m filter := ⟨on, small, Nat.lt_of_not_le unfit⟩
    simp only [r, h, accepts, nothing]
    exact (rotate_passes account).congr ⟨fun fits _ => fits, fun fits => fits rotates⟩

theorem overflowed_buffers (j : Journal) (data : List Byte) :
    ({ j with output := j.output ++ overflowed data } : Journal).buffers = j.buffers := by
  unfold Journal.buffers overflowed
  split
  · simp
  · simp [Written.buffer?]

theorem writeOverflow_passes (account : t.Account j) (o : Owner) (env : WriteEnv) (log : SingleLog)
    (filter : Filter) :
    let r := t.writeOverflow o env log filter
    t.Passes j r.1 { j with output := j.output ++ overflowed r.2.2.2 } True := by
  intro r
  have plain := account.plain
  have stays : ∀ data, t.Passes j t { j with output := j.output ++ overflowed data } True := fun data =>
    account.moved plain (fun _ => rfl) (.refl _) rfl (overflowed_buffers j data)
  cases off : t.disabled with
  | true =>
    have result : r = (t, o, false, []) := by simp [r, writeOverflow, off]
    rw [result]
    exact stays []
  | false =>
    let entry := t.overflowEntry env log filter
    have result : r.1 = (t.writeAsyncOverflow o.refGreaseInGrease entry false).1 ∧
        r.2.2.2 = (t.writeAsyncOverflow o.refGreaseInGrease entry false).2.2 := by
      simp [r, writeOverflow, off, entry]
    rw [result.1, result.2]
    cases kind : t.kind with
    | callback => exact absurd kind plain.asynchronous
    | file =>
      simp only [writeAsyncOverflow, kind]
      exact stays _
    | tty =>
      have bufs : (t.inflight ++ [WriteReq.overflow entry false]).filterMap WriteReq.buf? =
          t.inflight.filterMap WriteReq.buf? := by
        simp [WriteReq.buf?]
      have wf : ({ t with inflight := t.inflight ++ [.overflow entry false] } : LogTarget).BankWf
          {} [] := submit_wf (w := .overflow entry false) plain.wf
      have plain' : ({ t with inflight := t.inflight ++ [.overflow entry false] } : LogTarget).Plain :=
        ⟨wf, plain.asynchronous, plain.noCallback⟩
      have unfinished : ({ t with inflight := t.inflight ++ [.overflow entry false] } :
          LogTarget).unfinished = t.unfinished := by
        simp only [LogTarget.unfinished, bufs]
        rfl
      have passes : t.Passes j { t with inflight := t.inflight ++ [.overflow entry false] }
          { j with output := j.output ++ overflowed [] } True :=
        account.moved plain' (fun _ => rfl) (.of_eq unfinished) rfl (overflowed_buffers j [])
      simpa only [writeAsyncOverflow, kind] using passes

theorem release_passes {b : BufId} {nocallback : Bool} (account : t.Account j)
    {inflight : List WriteReq} (taken : t.inflight.Perm (.buffer b nocallback :: inflight)) :
    t.Passes j ((({ t with inflight := inflight } : LogTarget).clearBuffer b).addAvail b)
      { j with output := j.output ++ [.buffer (t.buffers b).data] } True := by
  obtain ⟨plain, entries, done, lost, tracks⟩ := account
  let rest : LogTarget := { t with inflight := inflight }
  have held : rest.BankWf {} (b :: []) := takeInflight_wf plain.wf taken
  have apart : b ∉ rest.unfinished := by
    obtain ⟨notSubmitted, notWaiting, notCurrent⟩ := held_elsewhere held
    intro mem
    rw [unfinished_eq] at mem
    rcases List.mem_append.mp mem with sent | current
    · exact (List.mem_append.mp sent).elim notSubmitted notWaiting
    · exact notCurrent (List.mem_singleton.mp current)
  have unfinished : t.unfinished.Perm (b :: rest.unfinished) :=
    (taken.filterMap WriteReq.buf?).append_right t.waiting
  have tracks' : ((rest.clearBuffer b).addAvail b).Tracks
      { j with output := j.output ++ [.buffer (t.buffers b).data] } (Function.update entries b [])
      (done ++ [entries b]) lost := by
    refine ⟨fun c => ?_, ?_, ?_⟩
    · by_cases same : c = b
      · rw [same, Function.update_self]
        exact congrArg LogBuf.data (setBuffer_same (t := rest) b _)
      · rw [Function.update_of_ne same]
        exact (congrArg LogBuf.data (setBuffer_other (t := rest) _ same)).trans (tracks.data c)
    · have out := tracks.out
      unfold Journal.buffers at out ⊢
      rw [List.filterMap_append, out, tracks.data, List.map_append]
      rfl
    · have same : ((rest.clearBuffer b).addAvail b).unfinished = rest.unfinished := rfl
      have moved := unfinished.flatMap_right entries
      rw [List.flatMap_cons] at moved
      rw [same, flatMap_update apart, List.flatten_append, List.flatten_singleton, List.append_assoc]
      refine tracks.accepted.trans ((moved.append_left _).append_right _ |>.trans ?_)
      simp only [List.append_assoc]
      exact .refl _
  have wf := release_wf held
  exact passes_of ⟨wf, plain.asynchronous, plain.noCallback⟩ tracks tracks' (and_iff_left trivial).symm

theorem endWrite_passes (account : t.Account j) (o : Owner) (k : Nat) :
    t.Passes j (t.endWrite o k).1 { j with output := j.output ++ t.putsOut k } True := by
  have plain := account.plain
  cases at_k : t.inflight[k]? with
  | none =>
    simp only [endWrite, putsOut, at_k, List.append_nil]
    exact account.same
  | some req =>
    have perm := Totals.perm_eraseIdx at_k
    cases req with
    | buffer b nocallback =>
      have released : (({ t with inflight := t.inflight.eraseIdx k } : LogTarget).returnBuffer o b
          nocallback).1 =
          (({ t with inflight := t.inflight.eraseIdx k } : LogTarget).clearBuffer b).addAvail b := by
        simp [returnBuffer, callbackOrRelease, plain.noCallback]
      simp only [endWrite, putsOut, at_k, released]
      exact release_passes account perm
    | overflow entry nocallback =>
      have bufs : (t.inflight.filterMap WriteReq.buf?).Perm
          ((t.inflight.eraseIdx k).filterMap WriteReq.buf?) := perm.filterMap WriteReq.buf?
      have wf : ({ t with inflight := t.inflight.eraseIdx k } : LogTarget).BankWf {} [] :=
        takeInflight_wf plain.wf perm
      have plain' : ({ t with inflight := t.inflight.eraseIdx k } : LogTarget).Plain :=
        ⟨wf, plain.asynchronous, plain.noCallback⟩
      simp only [endWrite, putsOut, at_k]
      exact account.moved plain' (fun _ => rfl) (bufs.symm.append_right t.waiting) rfl
        (by simp [Journal.buffers, Written.buffer?])

theorem endWrite_waiting (plain : t.Plain) (o : Owner) (k : Nat) :
    bytesIn (t.endWrite o k).1.buffers (t.endWrite o k).1.waiting = bytesIn t.buffers t.waiting := by
  unfold endWrite
  split
  · rfl
  · rename_i b nocallback at_k
    have submitted : b ∈ t.inflight.filterMap WriteReq.buf? :=
      List.mem_filterMap.mpr ⟨_, List.mem_of_getElem? at_k, rfl⟩
    have notWaiting : ∀ c ∈ t.waiting, c ≠ b := by
      have once := List.nodup_iff_count_le_one.mp plain.wf.nodup b
      have listed := List.count_pos_iff.mpr submitted
      simp only [locations, List.count_cons, List.count_append] at once
      rintro c mem rfl
      have twice := List.count_pos_iff.mpr mem
      simp only [waiting, List.count_append, List.count_cons, List.count_nil] at twice
      omega
    have released : (({ t with inflight := t.inflight.eraseIdx k } : LogTarget).returnBuffer o b
        nocallback).1 = (({ t with inflight := t.inflight.eraseIdx k } : LogTarget).clearBuffer b).addAvail
        b := by
      simp [returnBuffer, callbackOrRelease, plain.noCallback]
    simp only [released]
    exact bytesIn_congr fun c mem => setBuffer_other _ (notWaiting c mem)
  · rfl

theorem flushAll_waiting (account : t.Account j) (o : Owner) (nocallbacks : Bool)
    (fits : t.RotateFits) :
    bytesIn (t.flushAll o true nocallbacks).1.buffers (t.flushAll o true nocallbacks).1.waiting = [] := by
  have empty : t.rotate.1.current.data = [] := by
    rcases fits with empty | free
    · rw [rotate_empty empty]
      exact empty
    · exact rotate_current account.plain.wf free
  rw [flushAll_eq account.plain.asynchronous]
  simp only [if_true, waiting, BoundedQueue.empty_items, List.nil_append, bytesIn,
    List.flatMap_singleton]
  exact empty

theorem new_account {kind : TargetKind} (asynchronous : kind ≠ .callback) (bufferSize : Nat)
    (delim : List Byte) :
    (LogTarget.new kind bufferSize 0 delim).Account {} ∧
      (LogTarget.new kind bufferSize 0 delim).Lossless {} := by
  have wf : (LogTarget.new kind bufferSize 0 delim).BankWf {} [] :=
    BankState.start_wf (s := ⟨LogTarget.new kind bufferSize 0 delim, {}⟩)
      ⟨⟨kind, bufferSize, 0, delim, {}, false, rfl⟩, rfl⟩
  have tracks : (LogTarget.new kind bufferSize 0 delim).Tracks {} (fun _ => []) [] [] :=
    ⟨fun _ => rfl, rfl, .refl _⟩
  exact ⟨⟨⟨wf, asynchronous, rfl⟩, _, _, _, tracks⟩, tracks.lossless_iff.mpr rfl⟩

/-- When its writes have ended, everything is out unless something has been lost or
    is left to be flushed. -/
theorem Account.complete_iff (account : t.Account j) (ended : t.inflight = []) :
    j.Complete ↔ t.Lossless j ∧ bytesIn t.buffers t.waiting = [] := by
  obtain ⟨_, entries, done, lost, tracks⟩ := account
  have unfinished : t.unfinished = t.waiting := by
    rw [LogTarget.unfinished, ended]
    rfl
  constructor
  · rintro ⟨parts, out, perm⟩
    have bytes := perm.flatten.length_eq
    rw [List.flatten_filter_ne_nil, List.flatten_flatten, ← out] at bytes
    have accepted := tracks.accepted.flatten.length_eq
    have outLength : j.buffers.flatten.length = done.flatten.flatten.length := by
      rw [tracks.out, List.flatten_flatten]
    have left := congrArg List.length (tracks.bytes t.waiting)
    rw [unfinished] at accepted
    simp only [List.flatten_append, List.length_append] at accepted
    refine ⟨tracks.lossless_iff.mpr ?_, ?_⟩
    · rw [← List.length_eq_zero_iff]
      omega
    · rw [← List.length_eq_zero_iff]
      omega
  · rintro ⟨lossless, nothing⟩
    have lostNone := tracks.lossless_iff.mp lossless
    have leftNone := (tracks.bytes t.waiting).symm.trans nothing
    have none : ∀ l : List (List Byte), l.flatten = [] → l.filter (· ≠ []) = [] := by
      intro l empty
      rw [List.filter_eq_nil_iff]
      intro e mem
      simp [List.flatten_eq_nil_iff.mp empty e mem]
    refine ⟨done.map fun part => part.filter (· ≠ []), ?_, ?_⟩
    · rw [tracks.out, List.map_map]
      exact List.map_congr_left fun part _ => List.flatten_filter_ne_nil.symm
    · have accepted := tracks.accepted.filter (· ≠ [])
      rw [unfinished, List.filter_append, List.filter_append, none _ lostNone, none _ leftNone,
        List.append_nil, List.append_nil, List.filter_flatten] at accepted
      exact accepted.symm

end LogTarget

/-! The default target among the others. -/

namespace Logger
variable {L : Logger} {t : LogTarget}

theorem writeTo_default (env : Nat → WriteEnv) (found : L.defaultTarget = some t) (s : List Byte)
    (m : LogMeta) (call : Selected) (default : call.target = 0) :
    (L.writeTo env s m call).1.defaultTarget =
      some (t.write L.owner (env L.calls) s m call.filter).1 := by
  simp [writeTo, target, putTarget, setTarget, default, found]

theorem overflowTo_default (env : Nat → WriteEnv) (found : L.defaultTarget = some t) (l : SingleLog)
    (call : Selected) (default : call.target = 0) :
    let flushed := t.flushAll L.owner true false
    (L.overflowTo env l call).1.defaultTarget =
      some (flushed.1.writeOverflow flushed.2.1 (env L.calls) l call.filter).1 := by
  simp [overflowTo, target, putTarget, setTarget, default, found]

theorem handleRotate_default (found : L.defaultTarget = some t) :
    (L.handleRotate 0).1.defaultTarget = some (t.flushAll L.owner false false).1 := by
  simp [handleRotate, target, putTarget, setTarget, found]

theorem flushAll_default (L : Logger) (nocallbacks : Bool) :
    (L.flushAll nocallbacks).defaultTarget =
      L.defaultTarget.map fun t => (t.flushAll L.owner true false).1 := by
  have listed : ∀ (ids : List TargetId) (L : Logger),
      (ids.foldl (flushListed nocallbacks) L).defaultTarget = L.defaultTarget := by
    intro ids
    induction ids with
    | nil => exact fun _ => rfl
    | cons id rest ih =>
      intro L
      rw [List.foldl_cons, ih]
      unfold flushListed
      split <;> rfl
  rw [flushAll, listed, flushDefault]
  split
  · rename_i none
    rw [none]
    rfl
  · rename_i t found
    rw [found]
    rfl

end Logger

namespace DefaultTargets
open LogTarget
variable {env : Nat → WriteEnv} {d d' start : DefaultTargets} {t t' : LogTarget} {keeps : Prop}

structure Accounts (d : DefaultTargets) : Prop where
  now : ∀ t ∈ d.L.defaultTarget, t.Account d.journal
  before : ∀ r ∈ d.retired, r.1.Account r.2
  unused : d.L.defaultTarget = none → d.journal = {}

/-- Nothing has been lost so far, and no target has been replaced with something
    left in it. -/
def Lossless (d : DefaultTargets) : Prop :=
  (∀ t ∈ d.L.defaultTarget, t.Lossless d.journal) ∧
    ∀ r ∈ d.retired, r.1.Lossless r.2 ∧ bytesIn r.1.buffers r.1.waiting = []

theorem step_now (accounts : d.Accounts) (found : d.L.defaultTarget = some t)
    (found' : d'.L.defaultTarget = some t') (retired : d'.retired = d.retired)
    (passes : t.Passes d.journal t' d'.journal keeps) :
    d'.Accounts ∧ (d'.Lossless ↔ d.Lossless ∧ keeps) := by
  refine ⟨⟨?_, ?_, ?_⟩, ?_⟩
  · rw [found']
    rintro u ⟨⟩
    exact passes.account
  · rw [retired]
    exact accounts.before
  · intro none
    rw [found'] at none
    cases none
  · have now : (∀ u ∈ d'.L.defaultTarget, u.Lossless d'.journal) ↔ t'.Lossless d'.journal := by
      simp [found']
    have now₀ : (∀ u ∈ d.L.defaultTarget, u.Lossless d.journal) ↔ t.Lossless d.journal := by
      simp [found]
    rw [Lossless, Lossless, now, now₀, retired, passes.lossless]
    exact and_right_comm

theorem on_step (accounts : d.Accounts) {f : LogTarget → DefaultTargets} {keeps : LogTarget → Prop}
    (each : ∀ t, d.L.defaultTarget = some t →
      (f t).Accounts ∧ ((f t).Lossless ↔ d.Lossless ∧ keeps t)) :
    (d.on f).Accounts ∧ ((d.on f).Lossless ↔ d.Lossless ∧ ∀ t ∈ d.L.defaultTarget, keeps t) := by
  unfold on
  split
  · rename_i none
    have nothing : ∀ t ∈ d.L.defaultTarget, keeps t := by simp [none]
    exact ⟨accounts, (and_iff_left nothing).symm⟩
  · rename_i t found
    obtain ⟨accounts', iff⟩ := each t found
    have all : (∀ u ∈ d.L.defaultTarget, keeps u) ↔ keeps t := by simp [found]
    exact ⟨accounts', by rw [iff, all]⟩

theorem on_step_kept (accounts : d.Accounts) {f : LogTarget → DefaultTargets}
    (each : ∀ t, d.L.defaultTarget = some t → (f t).Accounts ∧ ((f t).Lossless ↔ d.Lossless ∧ True)) :
    (d.on f).Accounts ∧ ((d.on f).Lossless ↔ d.Lossless ∧ True) := by
  obtain ⟨accounts', iff⟩ : (d.on f).Accounts ∧ ((d.on f).Lossless ↔
      d.Lossless ∧ ∀ t ∈ d.L.defaultTarget, True) := on_step accounts each
  exact ⟨accounts', iff.trans (and_congr_right fun _ => iff_true_intro fun _ _ => trivial)⟩

theorem others_step (accounts : d.Accounts) {L : Logger} (same : L.defaultTarget = d.L.defaultTarget) :
    ({ d with L := L }).Accounts ∧ (({ d with L := L }).Lossless ↔ d.Lossless) := by
  refine ⟨⟨?_, accounts.before, ?_⟩, ?_⟩
  · rw [same]
    exact accounts.now
  · rw [same]
    exact accounts.unused
  · rw [Lossless, same]
    rfl

theorem set_step (accounts : d.Accounts) {change : LogTarget → LogTarget}
    (is : ∀ t, ∃ formats delim disabled,
      change t = { t with formats := formats, delim := delim, disabled := disabled }) :
    let f := fun t => { d with L := { d.L with defaultTarget := some (change t) } }
    (d.on f).Accounts ∧ ((d.on f).Lossless ↔ d.Lossless ∧ True) := by
  intro f
  refine on_step_kept accounts fun t found => ?_
  have account := accounts.now t found
  have wf := account.plain.wf
  have passes : t.Passes d.journal (change t) d.journal True := by
    obtain ⟨formats, delim, disabled, eq⟩ := is t
    rw [eq]
    exact account.moved ⟨⟨wf.located, wf.availCleared, wf.spaces⟩, account.plain.asynchronous,
      account.plain.noCallback⟩ (fun _ => rfl) (.refl _) rfl rfl
  exact step_now accounts found rfl rfl passes

theorem retiredWriteCb_step (accounts : d.Accounts) (n k : Nat) :
    (d.apply env (.retiredWriteCb n k)).Accounts ∧
      ((d.apply env (.retiredWriteCb n k)).Lossless ↔ d.Lossless ∧ True) := by
  simp only [apply]
  split
  · exact ⟨accounts, (and_iff_left trivial).symm⟩
  · rename_i t j at_n
    obtain ⟨bound, is⟩ := List.getElem?_eq_some_iff.mp at_n
    have account := accounts.before _ (List.mem_of_getElem? at_n)
    have passes := endWrite_passes account d.L.owner k
    have waiting := endWrite_waiting account.plain d.L.owner k
    constructor
    · refine ⟨accounts.now, fun r mem => ?_, accounts.unused⟩
      rcases List.mem_or_eq_of_mem_set mem with old | rfl
      · exact accounts.before r old
      · exact passes.account
    · rw [and_true]
      refine and_congr_right fun _ => ?_
      simp only [List.forall_mem_iff_getElem, List.length_set, List.getElem_set]
      refine forall_congr' fun m => forall_congr' fun inside => ?_
      by_cases same : n = m
      · subst same
        rw [if_pos rfl, is]
        simp only
        rw [passes.lossless, waiting, and_true]
      · rw [if_neg same]

theorem modifyDefaultTarget_step (accounts : d.Accounts) {kind : TargetKind} (bufferSize : Nat)
    (delim : List Byte) (allowed : kind ≠ .callback) :
    let d' := d.apply env (.modifyDefaultTarget kind bufferSize delim)
    d'.Accounts ∧ (d'.Lossless ↔
      d.Lossless ∧ ∀ t ∈ d.L.defaultTarget, bytesIn t.buffers t.waiting = []) := by
  intro d'
  obtain ⟨account, lossless⟩ := new_account allowed bufferSize delim
  have retired : ∀ r, r ∈ d'.retired ↔
      r ∈ d.retired ∨ ∃ t, d.L.defaultTarget = some t ∧ (t, d.journal) = r := by
    intro r
    simp [d', apply, List.mem_append, List.mem_map]
  constructor
  · refine ⟨?_, fun r mem => ?_, fun none => by cases none⟩
    · rintro t ⟨⟩
      exact account
    · rcases (retired r).mp mem with old | ⟨t, found, rfl⟩
      · exact accounts.before r old
      · exact accounts.now t found
  · constructor
    · rintro ⟨_, each⟩
      have now := fun t found => each (t, d.journal) ((retired _).mpr (Or.inr ⟨t, found, rfl⟩))
      exact ⟨⟨fun t found => (now t found).1, fun r mem => each r ((retired r).mpr (Or.inl mem))⟩,
        fun t found => (now t found).2⟩
    · rintro ⟨⟨now, before⟩, nothing⟩
      refine ⟨?_, fun r mem => ?_⟩
      · rintro t ⟨⟩
        exact lossless
      · rcases (retired r).mp mem with old | ⟨t, found, rfl⟩
        · exact before r old
        · exact ⟨now t found, nothing t found⟩

theorem apply_step (env : Nat → WriteEnv) (accounts : d.Accounts) {a : DefaultAction} (allowed : d.Allowed a) :
    (d.apply env a).Accounts ∧ ((d.apply env a).Lossless ↔ d.Lossless ∧ d.Keeps env a) := by
  cases a with
  | write s m filter =>
    exact on_step accounts fun t found => step_now accounts found
      (Logger.writeTo_default env found s m _ rfl) rfl
      (write_passes (accounts.now t found) d.L.owner (env d.L.calls) s m filter)
  | overflow l filter =>
    refine on_step accounts fun t found => step_now accounts found
      (Logger.overflowTo_default env found l _ rfl) rfl ?_
    have flushed := flushAll_passes (accounts.now t found) d.L.owner true false
    have written := writeOverflow_passes flushed.account
      (t.flushAll d.L.owner true false).2.1 (env d.L.calls) l filter
    exact (flushed.trans written).congr ⟨fun both => both.1 rfl, fun fits => ⟨fun _ => fits, trivial⟩⟩
  | rotateBuffer =>
    cases found : d.L.defaultTarget with
    | none =>
      have same : (d.L.handleRotate 0).1 = d.L := by
        simp [Logger.handleRotate, Logger.target, found]
      obtain ⟨accounts', iff⟩ := others_step accounts (congrArg Logger.defaultTarget same)
      exact ⟨accounts', iff.trans (and_iff_left trivial).symm⟩
    | some t =>
      have passes := flushAll_passes (accounts.now t found) d.L.owner false false
      exact step_now accounts found (Logger.handleRotate_default found) rfl
        (passes.congr (iff_of_true (fun no => by cases no) trivial))
  | flushAll nocallbacks =>
    have after := d.L.flushAll_default nocallbacks
    cases found : d.L.defaultTarget with
    | none =>
      rw [found] at after
      obtain ⟨accounts', iff⟩ := others_step accounts (after.trans found.symm)
      have nothing : d.Keeps env (.flushAll nocallbacks) := fun t mem => by
        rw [found] at mem
        cases mem
      exact ⟨accounts', iff.trans (and_iff_left nothing).symm⟩
    | some t =>
      rw [found] at after
      have passes := flushAll_passes (accounts.now t found) d.L.owner true false
      have all : (∀ u ∈ d.L.defaultTarget, u.RotateFits) ↔ (true = true → t.RotateFits) := by
        simp [found]
      exact step_now accounts found after rfl
        (passes.congr all.symm)
  | writeCb k =>
    exact on_step_kept accounts fun t found => step_now accounts found rfl rfl
      (endWrite_passes (accounts.now t found) d.L.owner k)
  | retiredWriteCb n k => exact retiredWriteCb_step accounts n k
  | modifyDefaultTarget kind bufferSize delim =>
    exact modifyDefaultTarget_step accounts bufferSize delim allowed
  | configure formats delim => exact set_step accounts fun t => ⟨formats, delim, t.disabled, rfl⟩
  | disableWrites v => exact set_step accounts fun t => ⟨t.formats, t.delim, v, rfl⟩
  | others L =>
    obtain ⟨accounts', iff⟩ := others_step accounts allowed
    exact ⟨accounts', iff.trans (and_iff_left trivial).symm⟩

theorem start_accounts (fresh : start.Start) : start.Accounts ∧ start.Lossless := by
  obtain ⟨noTarget, journal, retired⟩ := fresh
  refine ⟨⟨?_, ?_, fun _ => journal⟩, ?_, ?_⟩
  · simp [noTarget]
  · simp [retired]
  · simp [noTarget]
  · simp [retired]

theorem run_lossless (fresh : start.Start) {actions : List DefaultAction}
    (run : Runs.Run (Step env) start actions d) :
    d.Accounts ∧ (d.Lossless ↔ Runs.Checked (Keeps env) (apply env) start actions) := by
  obtain ⟨accounts, lossless⟩ := start_accounts fresh
  refine Runs.kept_iff_checked (fun _ _ _ step => step.2) Accounts Lossless accounts lossless ?_ run
  rintro d a d' accounts ⟨allowed, rfl⟩
  exact apply_step env accounts allowed

/-! The final flush. -/

def EndsWrite (_ : DefaultTargets) (a : DefaultAction) : Prop := a.isWriteCb = true

/-- The default target has nothing left to be flushed. -/
def Flushed (d : DefaultTargets) : Prop :=
  ∀ t ∈ d.L.defaultTarget, bytesIn t.buffers t.waiting = []

theorem flushAll_flushed (env : Nat → WriteEnv) (accounts : d.Accounts) (free : ∀ t ∈ d.L.defaultTarget, t.RotateFits)
    (nocallbacks : Bool) : (d.apply env (.flushAll nocallbacks)).Flushed := by
  intro u found'
  have after := d.L.flushAll_default nocallbacks
  cases found : d.L.defaultTarget with
  | none =>
    rw [found] at after
    exact absurd (found'.symm.trans after) (by simp)
  | some t =>
    rw [found] at after
    obtain rfl := Option.some.inj (found'.symm.trans after)
    exact flushAll_waiting (accounts.now t found) d.L.owner false (free t found)

theorem writeCb_flushed (accounts : d.Accounts) (flushed : d.Flushed) {a : DefaultAction}
    (ends : EndsWrite d a) : (d.apply env a).Flushed := by
  cases a with
  | writeCb k =>
    simp only [apply, on]
    split
    · exact flushed
    · rename_i t found
      rintro u ⟨⟩
      exact (endWrite_waiting (accounts.now t found).plain d.L.owner k).trans (flushed t found)
  | retiredWriteCb n k =>
    simp only [apply]
    split
    · exact flushed
    · exact flushed
  | write | overflow | rotateBuffer | flushAll | modifyDefaultTarget | configure | disableWrites
  | others => cases ends

theorem callbacks_kept (accounts : start.Accounts) (flushed : start.Flushed)
    {callbacks : List DefaultAction}
    (ends : Runs.Run (Runs.Guard EndsWrite (Step env)) start callbacks d) :
    d.Accounts ∧ d.Flushed ∧ (d.Lossless ↔ start.Lossless) := by
  refine Runs.run_invariant (fun d => d.Accounts ∧ d.Flushed ∧ (d.Lossless ↔ start.Lossless))
    ⟨accounts, flushed, .rfl⟩ ?_ ends
  rintro d a d' ⟨accounts, flushed, iff⟩ ⟨ends, allowed, rfl⟩
  obtain ⟨accounts', iff'⟩ := apply_step env accounts allowed
  have keeps : d.Keeps env a := by
    cases a with
    | writeCb | retiredWriteCb => trivial
    | write | overflow | rotateBuffer | flushAll | modifyDefaultTarget | configure | disableWrites
    | others => cases ends
  exact ⟨accounts', writeCb_flushed accounts flushed ends, (iff'.trans (and_iff_left keeps)).trans iff⟩

theorem complete_iff (accounts : d.Accounts) (flushed : d.Flushed) (ended : d.Ended) :
    d.Complete ↔ d.Lossless := by
  have before : (∀ r ∈ d.retired, r.2.Complete) ↔
      ∀ r ∈ d.retired, r.1.Lossless r.2 ∧ bytesIn r.1.buffers r.1.waiting = [] :=
    forall₂_congr fun r mem => (accounts.before r mem).complete_iff (ended.2 r mem)
  rw [Complete, Lossless, before]
  refine and_congr_left fun _ => ?_
  cases found : d.L.defaultTarget with
  | none =>
    have nothing : d.journal.Complete := by
      rw [accounts.unused found]
      exact ⟨[], rfl, .refl _⟩
    exact iff_of_true nothing (by simp)
  | some t =>
    have now := (accounts.now t found).complete_iff (ended.1 t found)
    rw [now]
    simp [flushed t found]

/-- After a flush that finds a free buffer, and the end of every write, all that was
    ever accepted for a default target is out if and only if no rotate() on the way
    lacked a buffer and no target was replaced with something left in it. -/
theorem defaults_complete_iff (fresh : start.Start) {actions callbacks : List DefaultAction}
    (run : Runs.Run (Step env) start actions d) (free : ∀ t ∈ d.L.defaultTarget, t.RotateFits)
    (nocallbacks : Bool)
    (ends : Runs.Run (Runs.Guard EndsWrite (Step env)) (d.apply env (.flushAll nocallbacks)) callbacks d')
    (ended : d'.Ended) :
    d'.Complete ↔ Runs.Checked (Keeps env) (apply env) start actions := by
  obtain ⟨accounts, iff⟩ := run_lossless fresh run
  obtain ⟨accounts', iff'⟩ := apply_step env (a := .flushAll nocallbacks) accounts trivial
  have flushed := flushAll_flushed env accounts free nocallbacks
  obtain ⟨accounts'', flushed', kept⟩ := callbacks_kept accounts' flushed ends
  rw [complete_iff accounts'' flushed' ended, kept, iff', iff]
  exact and_iff_left free

/-! What handleInternalCmd does of these steps. -/

theorem reached_one (a : DefaultAction) (allowed : d.Allowed a) :
    Runs.Reached (Step env) d (d.apply env a) :=
  ⟨[a], Runs.run_one ⟨allowed, rfl⟩⟩

theorem reached_others {L : Logger} (same : L.defaultTarget = d.L.defaultTarget) :
    Runs.Reached (Step env) d { d with L := L } :=
  reached_one (.others L) same

theorem writeTo_reached (s : List Byte) (m : LogMeta) (call : Selected) :
    ∃ d', Runs.Reached (Step env) d d' ∧ d'.L = (d.L.writeTo env s m call).1 := by
  by_cases default : call.target = 0
  · refine ⟨_, reached_one (.write s m call.filter) trivial, ?_⟩
    cases found : d.L.defaultTarget with
    | none => simp [apply, on, found, Logger.writeTo, Logger.target, default]
    | some t => simp [apply, on, found, accept, Logger.writeTo, Logger.target, default, byDefault]
  · refine ⟨_, reached_others (L := (d.L.writeTo env s m call).1) ?_, rfl⟩
    unfold Logger.writeTo
    split
    · rfl
    · simp [Logger.putTarget, Logger.setTarget, default]

theorem overflowTo_reached (l : SingleLog) (call : Selected) :
    ∃ d', Runs.Reached (Step env) d d' ∧ d'.L = (d.L.overflowTo env l call).1 := by
  by_cases default : call.target = 0
  · refine ⟨_, reached_one (.overflow l call.filter) trivial, ?_⟩
    cases found : d.L.defaultTarget with
    | none => simp [apply, on, found, Logger.overflowTo, Logger.target, default]
    | some t => simp [apply, on, found, put, Logger.overflowTo, Logger.target, default, byDefault]
  · refine ⟨_, reached_others (L := (d.L.overflowTo env l call).1) ?_, rfl⟩
    unfold Logger.overflowTo
    split
    · rfl
    · simp [Logger.putTarget, Logger.setTarget, default]

theorem callAll_reached (act : Logger → Selected → Logger × List Event)
    (each : ∀ (d : DefaultTargets) call, ∃ d', Runs.Reached (Step env) d d' ∧ d'.L = (act d.L call).1)
    (calls : List Selected) (d : DefaultTargets) :
    ∃ d', Runs.Reached (Step env) d d' ∧ d'.L = (Logger.callAll act d.L calls).1 := by
  induction calls generalizing d with
  | nil => exact ⟨d, ⟨[], .start⟩, rfl⟩
  | cons call rest ih =>
    obtain ⟨d₁, first, done⟩ := each d call
    obtain ⟨d₂, others, all⟩ := ih d₁
    refine ⟨d₂, Runs.reached_trans first others, ?_⟩
    rw [all, done]
    rfl

/-- Every command but the shutdown is handled by steps that are modelled here. -/
theorem handleReq_reached (req : InternalCmdReq) (running : req ≠ .internalShutdown) :
    ∃ d', Runs.Reached (Step env) d d' ∧ d'.L = (Logger.handleReq env d.L req).1 := by
  cases req with
  | newLog slot =>
    let l := d.L.pool slot
    let m := (d.L.sifted l.extraMeta).m
    obtain ⟨d', written, result⟩ := callAll_reached
      (fun L call => Logger.writeTo env L (l.buf.bytes.take l.buf.used) m call)
      (fun _ call => writeTo_reached _ m call) (d.L.routed l.extraMeta) d
    refine ⟨{ d' with L := d'.L.giveBack slot },
      Runs.reached_trans written (reached_others rfl), ?_⟩
    simp only [result]
    rfl
  | targetRotateBuffer id =>
    by_cases default : id = 0
    · subst default
      exact ⟨_, reached_one .rotateBuffer trivial, rfl⟩
    · refine ⟨_, reached_others (L := (d.L.handleRotate id).1) ?_, rfl⟩
      unfold Logger.handleRotate
      split
      · rfl
      · simp [Logger.putTarget, Logger.setTarget, default]
  | writeTargetOverflow id l =>
    let sent := { l with extraMeta := d.L.sifted l.extraMeta }
    exact callAll_reached (fun L call => Logger.overflowTo env L sent call)
      (fun _ call => overflowTo_reached sent call) (d.L.routed l.extraMeta) d
  | internalShutdown => exact absurd rfl running

theorem step_apply (d : DefaultTargets) (a : DefaultAction) (allowed : d.Allowed a) :
    Step env d a (d.apply env a) := ⟨allowed, rfl⟩

theorem endsWrite_apply (d : DefaultTargets) (a : DefaultAction)
    (ends : EndsWrite d a ∧ d.Allowed a) :
    Runs.Guard EndsWrite (Step env) d a (d.apply env a) := ⟨ends.1, step_apply d a ends.2⟩

def noDefault : DefaultTargets := ⟨Logger.new {} (fun _ => .new) fun _ => [], {}, []⟩

/-- An entry for a first default target, perhaps a flush, and one for a second. -/
def replaced (flushes : List DefaultAction) : List DefaultAction :=
  [.modifyDefaultTarget .file 4096 [10], .write [97] noMetaData {}] ++ flushes ++
    [.modifyDefaultTarget .tty 4096 [10], .write [98] noMetaData {}]

def flushedEnd (actions callbacks : List DefaultAction) : DefaultTargets :=
  callbacks.foldl (apply plainEnvs)
    ((actions.foldl (apply plainEnvs) noDefault).apply plainEnvs (.flushAll false))

theorem noDefault_start : noDefault.Start := ⟨rfl, rfl, rfl⟩

theorem file_allowed : TargetKind.file ≠ .callback := by decide

theorem tty_allowed : TargetKind.tty ≠ .callback := by decide

theorem defaults_complete_flushed :
    (flushedEnd (replaced [.flushAll false]) [.retiredWriteCb 0 0, .writeCb 0]).Complete := by
  have run : Runs.Run (Step plainEnvs) noDefault (replaced [.flushAll false])
      ((replaced [.flushAll false]).foldl (apply plainEnvs) noDefault) :=
    Runs.run_checked step_apply ⟨file_allowed, trivial, trivial, tty_allowed, trivial, trivial⟩
  have free : ∀ t ∈ ((replaced [.flushAll false]).foldl (apply plainEnvs) noDefault).L.defaultTarget,
      t.RotateFits := by decide +kernel
  have ends : Runs.Run (Runs.Guard EndsWrite (Step plainEnvs))
      (((replaced [.flushAll false]).foldl (apply plainEnvs) noDefault).apply plainEnvs
        (.flushAll false)) [.retiredWriteCb 0 0, .writeCb 0]
      (flushedEnd (replaced [.flushAll false]) [.retiredWriteCb 0 0, .writeCb 0]) :=
    Runs.run_checked endsWrite_apply ⟨⟨rfl, trivial⟩, ⟨rfl, trivial⟩, trivial⟩
  have ended : (flushedEnd (replaced [.flushAll false]) [.retiredWriteCb 0 0, .writeCb 0]).Ended := by
    unfold Ended
    decide +kernel
  have kept : Runs.Checked (Keeps plainEnvs) (apply plainEnvs) noDefault (replaced [.flushAll false]) := by
    decide +kernel
  exact (defaults_complete_iff noDefault_start run free false ends ended).mpr kept

/-- Without the flush the first entry stays behind. -/
theorem replaced_default_loses :
    ∃ start actions d callbacks d', start.Start ∧ Runs.Run (Step plainEnvs) start actions d ∧
      (∀ t ∈ d.L.defaultTarget, t.availBuffers.items ≠ []) ∧
      Runs.Run (Runs.Guard EndsWrite (Step plainEnvs)) (d.apply plainEnvs (.flushAll false)) callbacks d' ∧
      d'.Ended ∧ ¬ d'.Complete := by
  have run : Runs.Run (Step plainEnvs) noDefault (replaced [])
      ((replaced []).foldl (apply plainEnvs) noDefault) :=
    Runs.run_checked step_apply ⟨file_allowed, trivial, tty_allowed, trivial, trivial⟩
  have ends : Runs.Run (Runs.Guard EndsWrite (Step plainEnvs))
      (((replaced []).foldl (apply plainEnvs) noDefault).apply plainEnvs (.flushAll false)) [.writeCb 0]
      (flushedEnd (replaced []) [.writeCb 0]) :=
    Runs.run_checked endsWrite_apply ⟨⟨rfl, trivial⟩, trivial⟩
  have free : ∀ t ∈ ((replaced []).foldl (apply plainEnvs) noDefault).L.defaultTarget,
      t.availBuffers.items ≠ [] := by decide +kernel
  refine ⟨noDefault, _, _, _, _, noDefault_start, run, free, ends, ?_, ?_⟩
  · unfold Ended
    decide +kernel
  · rintro ⟨_, each⟩
    have first : (flushedEnd (replaced []) [.writeCb 0]).retired.map (fun r => (r.2.buffers, r.2.accepted)) =
        [([], [[97, 10]])] := by decide +kernel
    obtain ⟨r, mem, is⟩ := List.mem_map.mp (first ▸ List.mem_singleton_self (([], [[97, 10]])))
    obtain ⟨buffers, accepted⟩ := Prod.mk.inj is
    obtain ⟨parts, out, perm⟩ := each r mem
    rw [buffers] at out
    obtain rfl := List.map_eq_nil_iff.mp out.symm
    rw [accepted] at perm
    exact absurd perm.length_eq (by decide)

end DefaultTargets

end GreaseLog
