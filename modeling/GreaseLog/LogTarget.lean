import Mathlib.Logic.Function.Basic
import GreaseLog.Commands
import GreaseLog.FilterTable

/- logBuf and logTarget (logger.h): the bank of buffers of one target, what
   write() appends to it, and how buffers leave it and come back. The mutexes are
   left out; each function here runs on the logger thread. -/
namespace GreaseLog

/-- An absent delimiter is the empty one. The data may be longer than the space:
    then copyIn has written past the allocation. -/
structure LogBuf where
  space : Nat
  delim : List Byte
  data : List Byte := []
  deriving DecidableEq

namespace LogBuf

def copyIn (b : LogBuf) (s : List Byte) (useDelim : Bool) : LogBuf :=
  if s = [] then b
  else { b with data := b.data ++ s ++ if useDelim then b.delim else [] }

def clear (b : LogBuf) : LogBuf := { b with data := [] }

def isEmpty (b : LogBuf) : Bool := b.data.isEmpty

/-- A negative result is turned into 0. -/
def remain (b : LogBuf) : Nat := b.space - (b.data.length + b.delim.length)

/-- The three calls of copyIn that write() makes for an entry. -/
def copyEntry (b : LogBuf) (header s footer : List Byte) : LogBuf :=
  let noFooter := footer.isEmpty
  let b := (b.copyIn header false).copyIn s noFooter
  if noFooter then b else b.copyIn footer true

end LogBuf

structure TargetFormats where
  timeFormat : LogLabel := none
  tagFormat : LogLabel := none
  originFormat : LogLabel := none
  levelFormat : LogLabel := none
  preFormat : LogLabel := none
  postFormat : LogLabel := none
  preMsgFormat : LogLabel := none
  deriving DecidableEq

/-- What a call of write() finds besides its arguments: the C library, the clock,
    the label tables and the contents of the two scratch buffers. -/
structure WriteEnv where
  format : Formatter
  clock : Nat × Nat
  levelLabels : LevelMask → Option LogLabel
  tagLabels : TagId → Option LogLabel
  originLabels : OriginId → Option LogLabel
  headerMem : Mem
  footerMem : Mem

def plainEnv : WriteEnv where
  format := printfText
  clock := (0, 0)
  levelLabels := fun _ => none
  tagLabels := fun _ => none
  originLabels := fun _ => none
  headerMem := fun _ => 0
  footerMem := fun _ => 0

def emptyLabel : List Byte := [45, 45]

def labelText : Option LogLabel → List Byte
  | some label => if 0 < label.length then label.text else emptyLabel
  | none => emptyLabel

def puts (format : Formatter) (offset : Nat) (fmt : LogLabel) (args : List FormatArg)
    (p : Mem × Nat) : Mem × Nat :=
  let text := format fmt.text args
  (snprintf p.1 offset p.2 text, sizeSub p.2 text.length)

def putsHeader (fm : TargetFormats) (env : WriteEnv) (mem : Mem) (remain : Nat) (m : LogMeta)
    (filter : Filter) : Mem × Nat :=
  let put := fun fmt args (p : Mem × Nat) => puts env.format (sizeSub remain p.2) fmt args p
  let p := (mem, remain)
  let p := if filter.preFormat.empty then p else put filter.preFormat [] p
  let p := if 0 < fm.preFormat.length ∧ 0 < p.2 then put fm.preFormat [] p else p
  let p :=
    if 0 < fm.timeFormat.length ∧ 0 < p.2 then
      put fm.timeFormat [.number env.clock.1, .number env.clock.2] p
    else p
  let p :=
    if 0 < fm.levelFormat.length ∧ 0 < p.2 then
      match env.levelLabels m.level with
      | some label => if 0 < label.length then put fm.levelFormat [.string label.text] p else p
      | none => p
    else p
  let p :=
    if 0 < fm.tagFormat.length ∧ 0 < p.2 then
      put fm.tagFormat [.string (if 0 < m.tag then labelText (env.tagLabels m.tag) else emptyLabel)] p
    else p
  let p :=
    if 0 < fm.originFormat.length ∧ 0 < p.2 then
      put fm.originFormat
        [.string (if 0 < m.origin then labelText (env.originLabels m.origin) else emptyLabel)] p
    else p
  let p := if 0 < fm.preMsgFormat.length ∧ 0 < p.2 then put fm.preMsgFormat [] p else p
  let p := if filter.postFormatPreMsg.empty then p else put filter.postFormatPreMsg [] p
  (p.1, sizeSub remain p.2)

/-- Both formats are printed to the start of mem. -/
def putsFooter (fm : TargetFormats) (env : WriteEnv) (mem : Mem) (remain : Nat)
    (filter : Filter) : Mem × Nat :=
  let put := fun fmt (p : Mem × Nat) => puts env.format 0 fmt [] p
  let p := (mem, remain)
  let p := if filter.postFormat.empty then p else put filter.postFormat p
  let p := if 0 < fm.postFormat.length ∧ 0 < p.2 then put fm.postFormat p else p
  (p.1, sizeSub remain p.2)

inductive TargetKind where
  | tty
  | file
  | callback
  deriving DecidableEq

inductive WriteReq where
  | buffer (b : BufId) (nocallback : Bool)
  | overflow (entry : OverflowWriteOut) (nocallback : Bool)
  deriving DecidableEq

structure LogTarget where
  kind : TargetKind
  myId : TargetId
  bankSize : Nat
  delim : List Byte
  formats : TargetFormats := {}
  logCallbackSet : Bool := false
  disabled : Bool := false
  buffers : BufId → LogBuf
  currentBuffer : BufId
  availBuffers : BoundedQueue BufId NUM_BANKS
  writeOutBuffers : BoundedQueue BufId (NUM_BANKS - 1)
  /-- The writes submitted whose callback has not run, oldest first. -/
  inflight : List WriteReq := []

inductive RotateOutcome where
  | rotated
  | noData
  | noBuffers
  | writeOutFull
  deriving DecidableEq

/-- stored and overran say whether write() has rotated before the copy. -/
inductive WriteOutcome where
  | disabled
  | requeued
  | requeueDropped
  | stored (afterRotate : Bool)
  | overran (afterRotate : Bool)
  | rotateDropped
  | notRotated (why : RotateOutcome)
  deriving DecidableEq

namespace LogTarget

def new (kind : TargetKind) (bufferSize : Nat) (id : TargetId) (delim : List Byte) : LogTarget where
  kind := kind
  myId := id
  bankSize := bufferSize
  delim := delim
  buffers := fun _ => { space := bufferSize, delim := delim }
  currentBuffer := 0
  availBuffers := ⟨[1, 2, 3], by decide⟩
  writeOutBuffers := .empty

def current (t : LogTarget) : LogBuf := t.buffers t.currentBuffer

def setBuffer (t : LogTarget) (b : BufId) (buf : LogBuf) : LogTarget :=
  { t with buffers := Function.update t.buffers b buf }

def clearBuffer (t : LogTarget) (b : BufId) : LogTarget := t.setBuffer b (t.buffers b).clear

def header (t : LogTarget) (env : WriteEnv) (m : LogMeta) (filter : Filter) : List Byte :=
  let p := putsHeader t.formats env env.headerMem GREASE_MAX_PREFIX_HEADER m filter
  p.1.read p.2

def footer (t : LogTarget) (env : WriteEnv) (m : LogMeta) (filter : Filter) : List Byte :=
  let remain := sizeSub GREASE_MAX_PREFIX_HEADER (t.header env m filter).length
  let p := putsFooter t.formats env env.footerMem remain filter
  p.1.read p.2

/-- availBuffers.add, which would block on a full queue. -/
def addAvail (t : LogTarget) (b : BufId) : LogTarget :=
  { t with availBuffers := (t.availBuffers.addIfRoom b).1 }

/-- How it went; the source returns whether it has rotated. -/
def rotate (t : LogTarget) : LogTarget × RotateOutcome :=
  if 0 < t.current.data.length then
    match t.availBuffers.remove with
    | some (next, avail) =>
      let added := t.writeOutBuffers.addIfRoom t.currentBuffer
      if added.2 then
        ({ t with availBuffers := avail, writeOutBuffers := added.1, currentBuffer := next }, .rotated)
      else
        (({ t with availBuffers := avail }.addAvail next).clearBuffer t.currentBuffer, .writeOutFull)
    | none => (t.clearBuffer t.currentBuffer, .noBuffers)
  else (t, .noData)

def finalizeV8Callback (t : LogTarget) (b : BufId) : LogTarget := (t.clearBuffer b).addAvail b

/-- returnBuffer after its unref: the callback if it is wanted and there is room. -/
def callbackOrRelease (t : LogTarget) (o : Owner) (b : BufId) (wanted : Bool) : LogTarget × Owner :=
  if wanted then
    let added := o.addCallback (.buffer t.myId b)
    if added.2 then (t, added.1.refFromV8) else ((t.clearBuffer b).addAvail b, o)
  else ((t.clearBuffer b).addAvail b, o)

def returnBuffer (t : LogTarget) (o : Owner) (b : BufId) (nocallback : Bool) : LogTarget × Owner :=
  let isempty := (t.buffers b).isEmpty
  t.callbackOrRelease (if isempty then o else o.unrefGreaseInGrease) b
    (!nocallback && t.logCallbackSet && !isempty)

/-- returnBuffer for an overflow entry; a full queue does not stop the refFromV8. -/
def returnOverflow (t : LogTarget) (o : Owner) (entry : OverflowWriteOut) (nocallback : Bool) :
    Owner :=
  let o := o.unrefGreaseInGrease
  if !nocallback && t.logCallbackSet then (o.addCallback (.overflow t.myId entry)).1.refFromV8 else o

/-- callV8LogCallbacks for the oldest entry, on the node thread; an entry of
    another target is delivered there. -/
def callV8LogCallback (t : LogTarget) (o : Owner) : LogTarget × Owner :=
  match o.v8LogCallbacks.remove with
  | none => (t, o)
  | some (d, rest) =>
    let o := { o with v8LogCallbacks := rest, needV8 := o.needV8 - 1 }
    match d with
    | .buffer id b => if id = t.myId then (t.finalizeV8Callback b, o) else (t, o)
    | .overflow _ _ => (t, o)

def flush (t : LogTarget) (o : Owner) (b : BufId) (nocallbacks : Bool) : LogTarget × Owner :=
  match t.kind with
  | .tty | .file => ({ t with inflight := t.inflight ++ [.buffer b nocallbacks] }, o)
  | .callback => t.returnBuffer o b nocallbacks

/-- The loop of flushAll; flush adds nothing to writeOutBuffers. -/
def flushOut (t : LogTarget) (o : Owner) (nocallbacks : Bool) : List BufId → LogTarget × Owner
  | [] => (t, o)
  | b :: rest =>
    let done := t.flush o b nocallbacks
    done.1.flushOut done.2 nocallbacks rest

def flushAll (t : LogTarget) (o : Owner) (doRotate nocallbacks : Bool) :
    LogTarget × Owner × RotateOutcome :=
  let r := if doRotate then t.rotate else (t, .noData)
  let done := { r.1 with writeOutBuffers := .empty }.flushOut o nocallbacks r.1.writeOutBuffers.items
  (done.1, done.2, r.2)

/-- The virtual flushSync, and what it writes. A ttyTarget gives the buffer back
    before it passes its handle, then empty, to uv_write. A callback is called
    here and now, which ends in finalizeV8Callback. -/
def flushSync (t : LogTarget) (o : Owner) (b : BufId) : LogTarget × Owner × List Byte :=
  let data := (t.buffers b).data
  ((t.clearBuffer b).addAvail b, if data.isEmpty then o else o.unrefGreaseInGrease,
    match t.kind with
    | .file => data
    | .tty | .callback => [])

def flushOutSync (t : LogTarget) (o : Owner) : List BufId → LogTarget × Owner × List Byte
  | [] => (t, o, [])
  | b :: rest =>
    let done := t.flushSync o b
    let others := done.1.flushOutSync done.2.1 rest
    (others.1, others.2.1, done.2.2 ++ others.2.2)

def flushAllSync (t : LogTarget) (o : Owner) (doRotate : Bool) : LogTarget × Owner × List Byte :=
  let t := if doRotate then t.rotate.1 else t
  { t with writeOutBuffers := .empty }.flushOutSync o t.writeOutBuffers.items

def writeCb (t : LogTarget) (o : Owner) : LogTarget × Owner :=
  match t.inflight with
  | [] => (t, o)
  | .buffer b nocallback :: rest => { t with inflight := rest }.returnBuffer o b nocallback
  | .overflow entry nocallback :: rest =>
    ({ t with inflight := rest }, t.returnOverflow o entry nocallback)

def store (t : LogTarget) (header s footer : List Byte) : LogTarget :=
  t.setBuffer t.currentBuffer (t.current.copyEntry header s footer)

def stored (t : LogTarget) (afterRotate : Bool) : WriteOutcome :=
  if t.current.data.length ≤ t.current.space then .stored afterRotate else .overran afterRotate

def write (t : LogTarget) (o : Owner) (env : WriteEnv) (s : List Byte) (m : LogMeta)
    (filter : Filter) : LogTarget × Owner × WriteOutcome :=
  if t.disabled then (t, o, .disabled)
  else if t.bankSize < s.length + GREASE_MAX_PREFIX_HEADER then
    let added := o.addCmd (.writeTargetOverflow t.myId (.ofData s m))
    (t, added.1, if added.2 then .requeued else .requeueDropped)
  else
    let header := t.header env m filter
    let footer := t.footer env m filter
    if t.current.remain ≥ s.length + header.length + footer.length then
      let o := if t.current.isEmpty then o.refGreaseInGrease else o
      let t := t.store header s footer
      (t, o, t.stored false)
    else
      let r := t.rotate
      if r.2 = .rotated then
        let added := o.addCmd (.targetRotateBuffer t.myId)
        if added.2 then
          let t := r.1.store header s footer
          (t, added.1.refGreaseInGrease, t.stored true)
        else (r.1, o, .rotateDropped)
      else (r.1, o, .notRotated r.2)

/-- The buffers of a large entry, without the empty ones around the message. -/
def overflowEntry (t : LogTarget) (env : WriteEnv) (log : SingleLog) (filter : Filter) :
    OverflowWriteOut :=
  let header := t.header env log.extraMeta.m filter
  let footer := t.footer env log.extraMeta.m filter
  (if header.isEmpty then [] else [header]) ++ [log.buf.bytes] ++
    (if footer.isEmpty then [] else [footer]) ++ (if t.delim.isEmpty then [] else [t.delim])

/-- The third result is what it has written when it returns: a fileTarget calls
    writev, here taken to write everything. -/
def writeAsyncOverflow (t : LogTarget) (o : Owner) (entry : OverflowWriteOut) (nocallbacks : Bool) :
    LogTarget × Owner × List Byte :=
  match t.kind with
  | .tty => ({ t with inflight := t.inflight ++ [.overflow entry nocallbacks] }, o, [])
  | .file => (t, t.returnOverflow o entry nocallbacks, entry.flatten)
  | .callback =>
    if entry = [] then (t, o, [])
    else if !nocallbacks && t.logCallbackSet then
      (t, (o.addCallback (.overflow t.myId entry)).1, [])
    else (t, o, [])

/-- Whether it was not dropped, and what writeAsyncOverflow wrote. -/
def writeOverflow (t : LogTarget) (o : Owner) (env : WriteEnv) (log : SingleLog) (filter : Filter) :
    LogTarget × Owner × Bool × List Byte :=
  if t.disabled then (t, o, false, [])
  else
    let r := t.writeAsyncOverflow o.refGreaseInGrease (t.overflowEntry env log filter) false
    (r.1, r.2.1, true, r.2.2)

end LogTarget

end GreaseLog
