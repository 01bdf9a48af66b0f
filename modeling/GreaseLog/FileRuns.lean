import GreaseLog.Delivery
import GreaseLog.Unwritten

/- The logger together with the file of one fileTarget. The handling of an overflow
   message is cut between its flushAll, which only submits writes, and its writev:
   in between any number of the submitted writes may take effect. -/
namespace GreaseLog

namespace Logger

def flushBefore (L : Logger) (call : Selected) : Logger :=
  match L.target call.target with
  | none => L
  | some t =>
    let r := t.flushAll L.owner true false
    L.putTarget call.target r.1 r.2.1

def overflowAfter (env : Nat → WriteEnv) (L : Logger) (l : SingleLog) (call : Selected) :
    Logger × List Byte :=
  match L.target call.target with
  | none => (L, [])
  | some t =>
    let r := t.writeOverflow L.owner (env L.calls) l call.filter
    ({ L.putTarget call.target r.1 r.2.1 with calls := L.calls + 1 }, r.2.2.2)

theorem putTarget_twice (L : Logger) (id : TargetId) (t t' : LogTarget) (o o' : Owner) :
    (L.putTarget id t o).putTarget id t' o' = L.putTarget id t' o' := by
  unfold putTarget setTarget
  split
  · rfl
  · simp only [AList.insert_insert]

theorem overflowTo_halves (env : Nat → WriteEnv) (L : Logger) (l : SingleLog) (call : Selected) :
    (overflowTo env L l call).1 = (overflowAfter env (L.flushBefore call) l call).1 := by
  cases found : L.target call.target with
  | none => simp only [overflowTo, flushBefore, overflowAfter, found]
  | some t =>
    have calls : ∀ t' o', (L.putTarget call.target t' o').calls = L.calls := by
      intro t' o'
      unfold putTarget setTarget
      split <;> rfl
    have owner : ∀ t' o', (L.putTarget call.target t' o').owner = o' := fun _ _ => rfl
    simp only [overflowTo, flushBefore, overflowAfter, found, putTarget_same, putTarget_twice, calls,
      owner]

def queuedText (L : Logger) (s : List Byte) : List Byte :=
  if s.length > L.opts.bufferSize then
    ((HeapBuf.alloc (min s.length MAX_LOG_MESSAGE_SIZE)).memcpyAppend s overflowEnding).bytes
  else s

end Logger

def WriteCBData.isOf (id : TargetId) : WriteCBData → Bool
  | .buffer t _ => t == id
  | .overflow _ _ => true

def InternalCmdReq.isMessage : InternalCmdReq → Bool
  | .newLog _ | .writeTargetOverflow _ _ => true
  | _ => false

structure FileState where
  L : Logger
  file : List Byte := []
  /-- How many of the writes in flight have taken effect. -/
  landed : Nat := 0
  /-- The overflow message whose flushAll is done and whose writev is not, and the
      calls still to be made for it. -/
  writing : Option (SingleLog × Selected × List Selected) := none

inductive FileAction where
  | log (x : ExtraLogMeta) (s : List Byte)
  | handle
  | writev
  | land
  | writeCb
  | flushAll (doRotate nocallbacks : Bool)
  | callV8LogCallback

def FileAction.logged? : FileAction → Option (ExtraLogMeta × List Byte)
  | .log x s => some (x, s)
  | _ => none

namespace FileState

def nextOverflow (s : FileState) (L : Logger) (l : SingleLog) : List Selected → FileState
  | [] => { s with L := L, writing := none }
  | call :: rest => { s with L := L.flushBefore call, writing := some (l, call, rest) }

section
variable (env : Nat → WriteEnv) (id : TargetId)

def apply (s : FileState) : FileAction → FileState
  | .log x text => { s with L := (s.L._log x text).1 }
  | .handle =>
    match s.L.removeReq with
    | none => s
    | some (.writeTargetOverflow _ l, L) =>
      s.nextOverflow L { l with extraMeta := L.sifted l.extraMeta } (L.routed l.extraMeta)
    | some (req, L) => { s with L := (Logger.handleReq env L req).1 }
  | .writev =>
    match s.writing with
    | none => s
    | some (l, call, rest) =>
      let r := Logger.overflowAfter env s.L l call
      { s with file := s.file ++ if call.target = id then r.2 else [] }.nextOverflow r.1 l rest
  | .land =>
    match s.L.target id with
    | none => s
    | some t =>
      match t.inflight[s.landed]? with
      | none => s
      | some req => { s with file := s.file ++ t.bytesOf req, landed := s.landed + 1 }
  | .writeCb =>
    match s.L.target id, s.landed with
    | some t, landed + 1 =>
      let r := t.writeCb s.L.owner
      { s with L := s.L.putTarget id r.1 r.2, landed := landed }
    | _, _ => s
  | .flushAll doRotate nocallbacks =>
    match s.L.target id with
    | none => s
    | some t =>
      let r := t.flushAll s.L.owner doRotate nocallbacks
      { s with L := s.L.putTarget id r.1 r.2.1 }
  | .callV8LogCallback =>
    match s.L.target id with
    | none => s
    | some t =>
      let r := t.callV8LogCallback s.L.owner
      { s with L := s.L.putTarget id r.1 r.2 }

/-- Messages go to the one target and find room, a buffer is free when the logger
    thread needs one, and a callback is one of this target's. -/
def Allowed (s : FileState) : FileAction → Prop
  | .log x text => (s.L._log x text).2 = .queued ∧ (s.L.routed x).map Selected.target = [id]
  | .handle | .flushAll _ _ =>
    s.writing = none ∧ ∀ t ∈ s.L.target id, t.availBuffers.items ≠ []
  | .callV8LogCallback => ∀ r ∈ s.L.owner.v8LogCallbacks.remove, r.1.isOf id = true
  | .writev | .land | .writeCb => True

instance (s : FileState) (a : FileAction) : Decidable (s.Allowed id a) :=
  match a with
  | .log _ _ => inferInstanceAs (Decidable (_ ∧ _))
  | .handle | .flushAll _ _ => inferInstanceAs (Decidable (_ ∧ _))
  | .callV8LogCallback => inferInstanceAs (Decidable (∀ r ∈ s.L.owner.v8LogCallbacks.remove, _))
  | .writev | .land | .writeCb => inferInstanceAs (Decidable True)

def Step (s : FileState) (a : FileAction) (s' : FileState) : Prop :=
  s.Allowed id a ∧ s' = s.apply env id a

/-- The write of the message in this buffer: it is put back into the queue when no
    other message waits there, and goes nowhere else without its ignore list, or
    it fits an empty buffer. -/
def WritesInTurn (L : Logger) (slot : PoolSlot) (t : LogTarget) (call : Selected) : Prop :=
  let l := L.pool slot
  let s := l.buf.bytes.take l.buf.used
  let m := (L.sifted l.extraMeta).m
  if t.bankSize < s.length + GREASE_MAX_PREFIX_HEADER then
    (∀ req ∈ L.owner.internalCmdQueue.items, req.isMessage = false) ∧
      L.routed ⟨m, SingleLog.noIgnores⟩ = L.routed l.extraMeta
  else (entryBytes t.current.delim (t.header (env L.calls) m call.filter) s
    (t.footer (env L.calls) m call.filter)).length ≤ t.bankSize

instance (L : Logger) (slot : PoolSlot) (t : LogTarget) (call : Selected) :
    Decidable (WritesInTurn env L slot t call) :=
  inferInstanceAs (Decidable (ite _ _ _))

/-- A writev finds that every submitted write has taken effect. -/
def InTurn (s : FileState) : FileAction → Prop
  | .handle => ∀ r ∈ s.L.removeReq, ∀ slot ∈ r.1.slot?, ∀ t ∈ r.2.target id,
      ∀ call ∈ r.2.routed (r.2.pool slot).extraMeta, WritesInTurn env r.2 slot t call
  | .writev => ∀ t ∈ s.L.target id, s.landed = t.inflight.length
  | _ => True

instance (s : FileState) (a : FileAction) : Decidable (s.InTurn env id a) :=
  match a with
  | .handle => inferInstanceAs (Decidable (∀ r ∈ s.L.removeReq, _))
  | .writev => inferInstanceAs (Decidable (∀ t ∈ s.L.target id, _))
  | .log _ _ | .land | .writeCb | .flushAll _ _ | .callV8LogCallback =>
    inferInstanceAs (Decidable True)

def unwritten (s : FileState) : List Byte :=
  ((s.L.target id).map fun t => t.unwritten s.landed).getD []

def waiting (s : FileState) : Nat :=
  s.writing.toList.length + s.L.owner.internalCmdQueue.items.countP InternalCmdReq.isMessage

structure Start (s : FileState) (t : LogTarget) : Prop where
  reachable : s.L.Reachable
  idle : s.L.owner.internalCmdQueue.items = []
  found : s.L.target id = some t
  kind : t.kind = .file
  enabled : t.disabled = false
  inflight : t.inflight = []
  writeOut : t.writeOutBuffers.items = []
  current : t.current.data = []
  file : s.file = []
  landed : s.landed = 0
  writing : s.writing = none

end

end FileState

abbrev Logger.Oversized (L : Logger) (t : LogTarget) (s : List Byte) : Prop :=
  L.opts.bufferSize < s.length ∨ t.bankSize < s.length + GREASE_MAX_PREFIX_HEADER

/-- The entry of a message, in one piece or by way of a buffer. -/
def Logger.entry (L : Logger) (t : LogTarget) (env : WriteEnv) (m : LogMeta) (s : List Byte)
    (filter : Filter) : List Byte :=
  if L.Oversized t s then (t.overflowEntry env (.ofData (L.queuedText s) m) filter).flatten
  else t.copiedEntry env s m filter

abbrev Message := ExtraLogMeta × List Byte

def Logger.IsEntry (env : Nat → WriteEnv) (L : Logger) (t : LogTarget) (message : Message)
    (e : List Byte) : Prop :=
  ∃ call ∈ L.routed message.1, ∃ n, e = L.entry t (env n) message.1.m message.2 call.filter

/-! Copies of a message. -/

structure SameLabels (m m' : LogMeta) : Prop where
  level : m'.level = m.level
  tag : m'.tag = m.tag
  origin : m'.origin = m.origin

theorem SameLabels.trans {m m' m'' : LogMeta} (first : SameLabels m m') (second : SameLabels m' m'') :
    SameLabels m m'' :=
  ⟨second.level.trans first.level, second.tag.trans first.tag, second.origin.trans first.origin⟩

theorem sifted_labels (L : Logger) (x : ExtraLogMeta) : SameLabels x.m (L.sifted x).m := by
  obtain ⟨tag, level, origin, _, _⟩ := sift_keeps L.filters L.opts x.m
  exact ⟨level, tag, origin⟩

namespace LogTarget
variable {t t' : LogTarget} {m m' : LogMeta}

theorem texts_labels (labels : SameLabels m m') (env : WriteEnv) (filter : Filter) :
    t.header env m' filter = t.header env m filter ∧
      t.footer env m' filter = t.footer env m filter := by
  have header : t.header env m' filter = t.header env m filter := by
    simp only [LogTarget.header, putsHeader, labels.level, labels.tag, labels.origin]
  refine ⟨header, ?_⟩
  simp only [LogTarget.footer, header]

theorem copiedEntry_same (setup : t.SameSetup t')
    (delims : ∀ b, (t.buffers b).delim = t.current.delim) (labels : SameLabels m m')
    (env : WriteEnv) (s : List Byte) (filter : Filter) :
    t'.copiedEntry env s m' filter = t.copiedEntry env s m filter := by
  obtain ⟨header, footer, delim⟩ := Logger.SameSetup_texts setup delims
  obtain ⟨header', footer'⟩ := texts_labels (t := t) labels env filter
  simp only [copiedEntry, header, footer, delim, header', footer']

theorem overflowEntry_same (setup : t.SameSetup t')
    (delims : ∀ b, (t.buffers b).delim = t.current.delim) {l : SingleLog}
    (labels : SameLabels m l.extraMeta.m) (env : WriteEnv) (filter : Filter) :
    t'.overflowEntry env l filter = t.overflowEntry env (.ofData l.buf.bytes m) filter := by
  obtain ⟨header, footer, _⟩ := Logger.SameSetup_texts setup delims
  obtain ⟨header', footer'⟩ := texts_labels (t := t) labels env filter
  simp only [overflowEntry, header, footer, header', footer', setup.config.delim, SingleLog.ofData,
    HeapBuf.ofData]
  rfl

end LogTarget

/-! The account of the messages: whose entries have been made, which one is being
    written, and which are in the queue. -/

section
variable (env : Nat → WriteEnv) (L₀ : Logger) (t₀ : LogTarget)

structure SameMessage (x y : ExtraLogMeta) : Prop where
  labels : SameLabels x.m y.m
  routed : L₀.routed y = L₀.routed x

def Carries (pool : PoolSlot → SingleLog) (message : Message) : InternalCmdReq → Prop
  | .newLog slot => message.2.length ≤ L₀.opts.bufferSize ∧
      (pool slot).buf.bytes.take (pool slot).buf.used = message.2 ∧
      SameMessage L₀ message.1 (pool slot).extraMeta
  | .writeTargetOverflow _ l => L₀.Oversized t₀ message.2 ∧
      l.buf.bytes = L₀.queuedText message.2 ∧ SameMessage L₀ message.1 l.extraMeta
  | _ => False

def BeingWritten (message : Message) (w : SingleLog × Selected × List Selected) : Prop :=
  L₀.Oversized t₀ message.2 ∧ w.1.buf.bytes = L₀.queuedText message.2 ∧
    SameLabels message.1.m w.1.extraMeta.m ∧ L₀.routed message.1 = [w.2.1] ∧ w.2.2 = []

structure Account (pool : PoolSlot → SingleLog) (sent : List Message)
    (writing : Option (SingleLog × Selected × List Selected)) (reqs : List InternalCmdReq)
    (bytes : List Byte) (done current queued : List Message) (entries : List (List Byte)) : Prop where
  sent : sent = done ++ current ++ queued
  made : List.Forall₂ (L₀.IsEntry env t₀) done entries
  current : List.Forall₂ (BeingWritten L₀ t₀) current writing.toList
  queued : List.Forall₂ (Carries L₀ t₀ pool) queued (reqs.filter InternalCmdReq.isMessage)
  bytes : bytes = entries.flatten

def Accounted (pool : PoolSlot → SingleLog) (sent : List Message)
    (writing : Option (SingleLog × Selected × List Selected)) (reqs : List InternalCmdReq)
    (bytes : List Byte) : Prop :=
  ∃ done current queued entries,
    Account env L₀ t₀ pool sent writing reqs bytes done current queued entries

end

section
variable {env : Nat → WriteEnv} {L₀ : Logger} {t₀ : LogTarget} {pool : PoolSlot → SingleLog}
  {sent : List Message} {writing : Option (SingleLog × Selected × List Selected)}
  {reqs : List InternalCmdReq} {bytes : List Byte} {message : Message} {req : InternalCmdReq}

theorem carries_pool {pool' : PoolSlot → SingleLog}
    (same : ∀ slot ∈ req.slot?, pool' slot = pool slot) (carries : Carries L₀ t₀ pool message req) :
    Carries L₀ t₀ pool' message req := by
  cases req with
  | newLog slot =>
    have eq := same slot rfl
    simp only [Carries, eq]
    exact carries
  | targetRotateBuffer d => exact carries
  | writeTargetOverflow d l => exact carries
  | internalShutdown => exact carries

theorem forall₂_carries_pool {pool' : PoolSlot → SingleLog} {queued : List Message}
    (same : ∀ req ∈ reqs, ∀ slot ∈ req.slot?, pool' slot = pool slot)
    (each : List.Forall₂ (Carries L₀ t₀ pool) queued reqs) :
    List.Forall₂ (Carries L₀ t₀ pool') queued reqs := by
  induction each with
  | nil => exact .nil
  | cons first rest ih =>
    refine .cons (carries_pool (same _ List.mem_cons_self) first) (ih ?_)
    intro req mem
    exact same req (List.mem_cons_of_mem _ mem)

theorem accounted_enqueue (account : Accounted env L₀ t₀ pool sent writing reqs bytes)
    {pool' : PoolSlot → SingleLog}
    (same : ∀ req ∈ reqs, ∀ slot ∈ req.slot?, pool' slot = pool slot)
    (isMessage : req.isMessage = true) (carries : Carries L₀ t₀ pool' message req) :
    Accounted env L₀ t₀ pool' (sent ++ [message]) writing (reqs ++ [req]) bytes := by
  obtain ⟨done, current, queued, entries, account⟩ := account
  refine ⟨done, current, queued ++ [message], entries, ?_, account.made, account.current, ?_,
    account.bytes⟩
  · rw [account.sent, List.append_assoc]
  · rw [List.filter_append, List.filter_cons_of_pos isMessage, List.filter_nil]
    refine List.rel_append (forall₂_carries_pool ?_ account.queued) (.cons carries .nil)
    intro other mem
    exact same other (List.mem_of_mem_filter mem)

theorem accounted_commands (account : Accounted env L₀ t₀ pool sent writing reqs bytes)
    {reqs' : List InternalCmdReq}
    (same : reqs'.filter InternalCmdReq.isMessage = reqs.filter InternalCmdReq.isMessage) :
    Accounted env L₀ t₀ pool sent writing reqs' bytes := by
  obtain ⟨done, current, queued, entries, account⟩ := account
  refine ⟨done, current, queued, entries, account.sent, account.made, account.current, ?_,
    account.bytes⟩
  rw [same]
  exact account.queued

theorem accounted_head (account : Accounted env L₀ t₀ pool sent none (req :: reqs) bytes)
    (isMessage : req.isMessage = true) :
    ∃ done message queued entries, sent = done ++ message :: queued ∧
      List.Forall₂ (L₀.IsEntry env t₀) done entries ∧ Carries L₀ t₀ pool message req ∧
      List.Forall₂ (Carries L₀ t₀ pool) queued (reqs.filter InternalCmdReq.isMessage) ∧
      bytes = entries.flatten := by
  obtain ⟨done, current, queued, entries, account⟩ := account
  have none := account.current
  obtain rfl := List.forall₂_nil_right_iff.mp none
  have each := account.queued
  rw [List.filter_cons_of_pos isMessage] at each
  obtain ⟨message, rest, first, others, rfl⟩ := List.forall₂_cons_right_iff.mp each
  refine ⟨done, message, rest, entries, ?_, account.made, first, others, account.bytes⟩
  rw [account.sent, List.append_nil]

end

end GreaseLog
