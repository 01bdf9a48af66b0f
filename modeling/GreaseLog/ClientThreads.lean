import GreaseLog.ClientFailures
import GreaseLog.Lib.Descriptors
import GreaseLog.Lib.Runs
import GreaseLog.Meta
import Mathlib.Logic.Function.Iterate

/- grease_client.c in a process of many threads: grease_log and the module search are shared,
   the socket, its address and the count of errors are each thread's own. The descriptors
   are those of the process; what a system call answers is given with the call. First the
   functions, then their steps, between which other threads may come. -/
namespace GreaseLog

def GREASE_DEFAULT_SINK_PATH : String := "/tmp/grease.socket"

/-- What a descriptor is for: a THREAD_LOCAL sink_fd, the socket of a ping, or whatever the
    rest of the process has. -/
inductive FdHolder (Tid : Type) where
  | sink (t : Tid)
  | ping (t : Tid)
  | other
  deriving DecidableEq

def FdHolder.client {Tid : Type} : FdHolder Tid → Bool
  | .other => false
  | _ => true

/-- The THREAD_LOCAL variables. `myTid` is whether my_tid is the thread's id, `message` whether
    the msghdr and its iov have been filled in; no sink_fd is -1. -/
structure ClientThread where
  myTid : Bool := false
  sinkFd : Option Nat := some 0
  errCnt : Nat := 0
  message : Bool := false
  sinkDgramAddr : Option String := none

inductive FoundModule where
  | notRan
  | notFound
  | found
  deriving DecidableEq

inductive GreaseLogFunc where
  | null
  | logLocal
  | logToSink
  deriving DecidableEq

structure ClientProcess (Tid : Type) where
  foundModule : FoundModule := .notRan
  localLog : Bool := false
  greaseLog : GreaseLogFunc := .null
  threads : Tid → ClientThread := fun _ => {}
  fds : Descriptors (FdHolder Tid)

/-- A dl_phdr_info: whether its name has GREASE_LOG_SO_NAME in it, dlopen opens it and dlsym
    finds grease_logLocal. -/
structure SharedObject where
  named : Bool
  opens : Bool
  symbol : Bool

/-- What the system answers to ping_sink; recvfrom gives the address that the answer is from. -/
structure PingAnswers where
  socket : Bool := true
  mkdtemp : Bool := true
  bind : Bool := true
  sendto : Bool := true
  recvfrom : Option String := some GREASE_DEFAULT_SINK_PATH
  isAck : Bool := true

structure SetupAnswers where
  socket : Bool := true
  rcvBuf : Int := 212992
  ping : PingAnswers := {}

/-- send_buf_size: without a socket it stays what it was asked to be. -/
def SetupAnswers.sendBufSize (k : SetupAnswers) : Int :=
  if k.socket then k.rcvBuf else GREASE_MAX_MESSAGE_SIZE

/-- Calls by threads, and what the rest of the process does with its own descriptors. -/
inductive ClientCall (Tid : Type) where
  | initLogger (t : Tid) (objects : List SharedObject) (k : SetupAnswers)
  | fastInitLogger (t : Tid) (objects : List SharedObject) (k : SetupAnswers)
  | printf (t : Tid) (sent : Bool)
  | shutdown (t : Tid)
  | openOther
  | closeOther (fd : Nat)

namespace ClientProcess
variable {Tid : Type}

/-! The module search. -/

def greasePlhdrCallback (p : ClientProcess Tid) (info : SharedObject) : ClientProcess Tid :=
  if info.named && info.opens then
    if info.symbol then { p with localLog := true, foundModule := .found }
    else { p with localLog := false }
  else p

def checkGreaseSymbols (p : ClientProcess Tid) (objects : List SharedObject) : ClientProcess Tid :=
  objects.foldl greasePlhdrCallback { p with foundModule := .notFound }

def logLocal (p : ClientProcess Tid) : ClientProcess Tid :=
  { p with greaseLog := if p.localLog then .logLocal else .null }

section
variable [DecidableEq Tid]

def change (p : ClientProcess Tid) (t : Tid) (f : ClientThread → ClientThread) : ClientProcess Tid :=
  { p with threads := Function.update p.threads t (f (p.threads t)) }

/-! The sink. -/

/-- ping_sink, and whether a logger answers. Without an address sendto fails. -/
def pingSink (p : ClientProcess Tid) (t : Tid) (k : PingAnswers) : ClientProcess Tid × Bool :=
  if !k.socket then (p, false)
  else
    let (fds, fd) := p.fds.openLowest (.ping t)
    if !k.mkdtemp then ({ p with fds := fds }, false)
    else
      let fds := if k.bind then fds else fds.close fd
      let sent := k.bind && (k.sendto && (p.threads t).sinkDgramAddr.isSome)
      let p := if sent && k.recvfrom.isSome then
          p.change t fun th => { th with sinkDgramAddr := k.recvfrom }
        else p
      ({ p with fds := fds.close fd }, sent && (k.recvfrom.isSome && k.isAck))

def sinkSocket (p : ClientProcess Tid) (t : Tid) (k : SetupAnswers) : ClientProcess Tid :=
  if k.socket then
    let (fds, fd) := p.fds.openLowest (.sink t)
    { p with fds := fds }.change t fun th =>
      { th with sinkFd := some fd, sinkDgramAddr := some GREASE_DEFAULT_SINK_PATH }
  else p.change t fun th => { th with sinkFd := none }

/-- setup_sink_dgram_socket after its test of my_tid; a failed socket is passed over. -/
def setupSocket (p : ClientProcess Tid) (t : Tid) (noPing : Bool) (k : SetupAnswers) :
    ClientProcess Tid × Bool :=
  let p := p.sinkSocket t k
  if k.sendBufSize < 100 then (p, false)
  else
    let p := p.change t fun th => { th with message := true }
    if noPing then (p.change t fun th => { th with myTid := true }, true)
    else
      let r := p.pingSink t k.ping
      if r.2 then (r.1.change t fun th => { th with myTid := true }, true) else r

def setupSinkDgramSocket (p : ClientProcess Tid) (t : Tid) (noPing : Bool) (k : SetupAnswers) :
    ClientProcess Tid × Bool :=
  let p := p.change t fun th => { th with errCnt := 0 }
  if (p.threads t).myTid then (p, true) else p.setupSocket t noPing k

/-- The end of both inits, and whether they return GREASE_OK. -/
def viaSink (p : ClientProcess Tid) (t : Tid) (noPing : Bool) (k : SetupAnswers) :
    ClientProcess Tid × Bool :=
  let r := p.setupSinkDgramSocket t noPing k
  if r.2 then ({ r.1 with greaseLog := .logToSink }, true) else ({ r.1 with greaseLog := .null }, false)

def initLogger (p : ClientProcess Tid) (t : Tid) (objects : List SharedObject) (k : SetupAnswers) :
    ClientProcess Tid × Bool :=
  if p.foundModule ≠ .notRan then
    if p.foundModule = .found then (p.logLocal, true) else p.viaSink t false k
  else
    let p := p.checkGreaseSymbols objects
    if p.foundModule = .found then (p.logLocal, true) else p.viaSink t false k

def fastInitLogger (p : ClientProcess Tid) (t : Tid) (objects : List SharedObject) (k : SetupAnswers) :
    ClientProcess Tid × Bool :=
  let p := p.checkGreaseSymbols objects
  if p.foundModule = .found then (p.logLocal, true) else p.viaSink t true k

def reaches (p : ClientProcess Tid) (t : Tid) (sent : Bool) : Bool :=
  sent && ((p.threads t).sinkFd.bind p.fds.holder).isSome

def logToSink (p : ClientProcess Tid) (t : Tid) (sent : Bool) : ClientProcess Tid × Bool :=
  if p.reaches t sent then (p, true)
  else
    let p := p.change t fun th => { th with errCnt := th.errCnt + 1 }
    if (p.threads t).errCnt > SINK_MAX_ERRORS then ({ p with greaseLog := .null }, false)
    else (p, false)

def printf (p : ClientProcess Tid) (t : Tid) (sent : Bool) : ClientProcess Tid :=
  if p.greaseLog = .logToSink then (p.logToSink t sent).1 else p

def shutdown (p : ClientProcess Tid) (t : Tid) : ClientProcess Tid :=
  if p.greaseLog = .logToSink then
    match (p.threads t).sinkFd with
    | some fd => { p with fds := p.fds.close fd }
    | none => p
  else p

def call (p : ClientProcess Tid) : ClientCall Tid → ClientProcess Tid
  | .initLogger t objects k => (p.initLogger t objects k).1
  | .fastInitLogger t objects k => (p.fastInitLogger t objects k).1
  | .printf t sent => p.printf t sent
  | .shutdown t => p.shutdown t
  | .openOther => { p with fds := (p.fds.openLowest .other).1 }
  | .closeOther fd => if p.fds.holder fd = some .other then { p with fds := p.fds.close fd } else p

def calls (p : ClientProcess Tid) (cs : List (ClientCall Tid)) : ClientProcess Tid := cs.foldl call p

end

end ClientProcess

/-- Where a thread is in its call. A step makes one access to what the threads share, and what
    the thread does on its own up to the next one. -/
inductive ClientPc where
  | idle
  | testing (sent : Bool)
  /-- grease_log was not NULL, and is read once more for the call. -/
  | calling (sent : Bool)
  | sending (sent : Bool)
  | counting
  | disabling
  /-- The thread has called NULL. -/
  | crashed
  | asking (objects : List SharedObject) (k : SetupAnswers)
  | ran (k : SetupAnswers)
  | clearing (noPing : Bool) (objects : List SharedObject) (k : SetupAnswers)
  | searching (noPing : Bool) (objects : List SharedObject) (k : SetupAnswers)
  /-- local_log is set, and found_module not yet. -/
  | marking (noPing : Bool) (objects : List SharedObject) (k : SetupAnswers)
  | usingLocal
  | settingUp (noPing : Bool) (k : SetupAnswers)
  | pinging (k : PingAnswers)
  | pinged (fd : Nat) (k : PingAnswers)
  /-- The last close of ping_sink, which has closed the socket before if it was not bound. -/
  | closingPing (fd : Nat) (bound answered : Bool)
  | storing (f : GreaseLogFunc)
  | shutting
  | closing

namespace ClientPc
variable {Tid : Type} [DecidableEq Tid]

def next (p : ClientProcess Tid) (t : Tid) : ClientPc → ClientProcess Tid × ClientPc
  | .idle => (p, .idle)
  | .testing sent => (p, if p.greaseLog = .null then .idle else .calling sent)
  | .calling sent =>
    match p.greaseLog with
    | .null => (p, .crashed)
    | .logLocal => (p, .idle)
    | .logToSink => (p, .sending sent)
  | .sending sent => (p, if p.reaches t sent then .idle else .counting)
  | .counting =>
    let p := p.change t fun th => { th with errCnt := th.errCnt + 1 }
    (p, if (p.threads t).errCnt > SINK_MAX_ERRORS then .disabling else .idle)
  | .disabling => ({ p with greaseLog := .null }, .idle)
  | .crashed => (p, .crashed)
  | .asking objects k => (p, if p.foundModule ≠ .notRan then .ran k else .clearing false objects k)
  | .ran k => (p, if p.foundModule = .found then .usingLocal else .settingUp false k)
  | .clearing noPing objects k => ({ p with foundModule := .notFound }, .searching noPing objects k)
  | .searching noPing [] k => (p, if p.foundModule = .found then .usingLocal else .settingUp noPing k)
  | .searching noPing (info :: objects) k =>
    if info.named && info.opens then
      if info.symbol then ({ p with localLog := true }, .marking noPing objects k)
      else ({ p with localLog := false }, .searching noPing objects k)
    else (p, .searching noPing objects k)
  | .marking noPing objects k => ({ p with foundModule := .found }, .searching noPing objects k)
  | .usingLocal => (p, .storing (if p.localLog then .logLocal else .null))
  | .settingUp noPing k =>
    let p := p.change t fun th => { th with errCnt := 0 }
    if (p.threads t).myTid then (p, .storing .logToSink)
    else
      let p := p.sinkSocket t k
      if k.sendBufSize < 100 then (p, .storing .null)
      else
        let p := p.change t fun th => { th with message := true }
        if noPing then (p.change t fun th => { th with myTid := true }, .storing .logToSink)
        else (p, .pinging k.ping)
  | .pinging k =>
    if !k.socket then (p, .storing .null)
    else
      let (fds, fd) := p.fds.openLowest (.ping t)
      ({ p with fds := fds }, .pinged fd k)
  | .pinged fd k =>
    if !k.mkdtemp then (p, .storing .null)
    else if !k.bind then ({ p with fds := p.fds.close fd }, .closingPing fd false false)
    else
      let sent := k.sendto && (p.threads t).sinkDgramAddr.isSome
      let p := if sent && k.recvfrom.isSome then
          p.change t fun th => { th with sinkDgramAddr := k.recvfrom }
        else p
      (p, .closingPing fd true (sent && (k.recvfrom.isSome && k.isAck)))
  | .closingPing fd _ answered =>
    let p := { p with fds := p.fds.close fd }
    if answered then (p.change t fun th => { th with myTid := true }, .storing .logToSink)
    else (p, .storing .null)
  | .storing f => ({ p with greaseLog := f }, .idle)
  | .shutting => (p, if p.greaseLog = .logToSink then .closing else .idle)
  | .closing =>
    match (p.threads t).sinkFd with
    | some fd => ({ p with fds := p.fds.close fd }, .idle)
    | none => (p, .idle)

end ClientPc

/-- The thread that makes a call, and its first step; openOther and closeOther are no calls. -/
def ClientCall.enters {Tid : Type} : ClientCall Tid → Option (Tid × ClientPc)
  | .initLogger t objects k => some (t, .asking objects k)
  | .fastInitLogger t objects k => some (t, .clearing true objects k)
  | .printf t sent => some (t, .testing sent)
  | .shutdown t => some (t, .shutting)
  | .openOther | .closeOther _ => none

structure ClientSystem (Tid : Type) where
  process : ClientProcess Tid
  pc : Tid → ClientPc := fun _ => .idle

inductive ClientAct (Tid : Type) where
  | enter (c : ClientCall Tid)
  | go (t : Tid)

namespace ClientSystem
variable {Tid : Type} [DecidableEq Tid]

def setPc (s : ClientSystem Tid) (t : Tid) (r : ClientProcess Tid × ClientPc) : ClientSystem Tid :=
  ⟨r.1, Function.update s.pc t r.2⟩

@[simp] theorem setPc_self (s : ClientSystem Tid) (t : Tid) (r : ClientProcess Tid × ClientPc) :
    (s.setPc t r).pc t = r.2 :=
  Function.update_self _ _ _

theorem setPc_other (s : ClientSystem Tid) {t u : Tid} (r : ClientProcess Tid × ClientPc)
    (other : u ≠ t) : (s.setPc t r).pc u = s.pc u :=
  Function.update_of_ne other _ _

def act (s : ClientSystem Tid) : ClientAct Tid → ClientSystem Tid
  | .enter c =>
    match c.enters with
    | some (t, pc) =>
      match s.pc t with
      | .idle => s.setPc t (s.process, pc)
      | _ => s
    | none => { s with process := s.process.call c }
  | .go t => s.setPc t ((s.pc t).next s.process t)

end ClientSystem

/-! A call that no other thread comes between is the function. -/

namespace ClientPc
variable {Tid : Type} [DecidableEq Tid] {p p' : ClientProcess Tid} {t : Tid} {pc : ClientPc}

def Ends (t : Tid) (x : ClientProcess Tid × ClientPc) (p' : ClientProcess Tid) : Prop :=
  ∃ n, (fun y : ClientProcess Tid × ClientPc => y.2.next y.1 t)^[n] x = (p', .idle)

theorem ends_idle (p : ClientProcess Tid) (t : Tid) : Ends t (p, .idle) p := ⟨0, rfl⟩

theorem Ends.step {x : ClientProcess Tid × ClientPc} (later : Ends t (x.2.next x.1 t) p') : Ends t x p' := by
  obtain ⟨n, ends⟩ := later
  exact ⟨n + 1, ends⟩

theorem ends_storing (p : ClientProcess Tid) (t : Tid) (f : GreaseLogFunc) :
    Ends t (p, .storing f) { p with greaseLog := f } :=
  Ends.step (ends_idle _ t)

theorem ends_testing (p : ClientProcess Tid) (t : Tid) (sent : Bool) :
    Ends t (p, .testing sent) (p.printf t sent) := by
  refine Ends.step ?_
  rw [next, ClientProcess.printf]
  cases log : p.greaseLog with
  | null => exact ends_idle p t
  | logLocal =>
    refine Ends.step ?_
    simp only [reduceCtorEq, if_false, next, log]
    exact ends_idle p t
  | logToSink =>
    refine Ends.step (Ends.step ?_)
    simp only [reduceCtorEq, if_false, if_true, next, log, ClientProcess.logToSink]
    cases p.reaches t sent with
    | true => exact ends_idle p t
    | false =>
      refine Ends.step ?_
      simp only [Bool.false_eq_true, if_false, next]
      split
      · exact Ends.step (ends_idle _ t)
      · exact ends_idle _ t

theorem ends_shutting (p : ClientProcess Tid) (t : Tid) : Ends t (p, .shutting) (p.shutdown t) := by
  refine Ends.step ?_
  simp only [next, ClientProcess.shutdown]
  split
  · refine Ends.step ?_
    simp only [next]
    split
    · exact ends_idle _ t
    · exact ends_idle _ t
  · exact ends_idle p t

theorem ends_pinging (p : ClientProcess Tid) (t : Tid) (k : PingAnswers) :
    Ends t (p, .pinging k)
      (if (p.pingSink t k).2 then
        { (p.pingSink t k).1.change t fun th => { th with myTid := true } with greaseLog := .logToSink }
      else { (p.pingSink t k).1 with greaseLog := .null }) := by
  refine Ends.step ?_
  simp only [next, ClientProcess.pingSink]
  cases k.socket with
  | false => exact ends_storing p t .null
  | true =>
    simp only [Bool.not_true, Bool.false_eq_true, if_false]
    refine Ends.step ?_
    simp only [next]
    cases k.mkdtemp with
    | false => exact ends_storing _ t .null
    | true =>
      refine Ends.step ?_
      simp only [Bool.not_true, Bool.false_eq_true, if_false]
      cases k.bind with
      | false => exact ends_storing _ t .null
      | true =>
        simp only [Bool.not_true, Bool.false_eq_true, if_false, if_true, Bool.true_and, next]
        split
        · split
          · exact ends_storing _ t .logToSink
          · exact ends_storing _ t .logToSink
        · split
          · exact ends_storing _ t .null
          · exact ends_storing _ t .null

theorem ends_settingUp (p : ClientProcess Tid) (t : Tid) (noPing : Bool) (k : SetupAnswers) :
    Ends t (p, .settingUp noPing k) (p.viaSink t noPing k).1 := by
  refine Ends.step ?_
  simp only [next, ClientProcess.viaSink, ClientProcess.setupSinkDgramSocket, ClientProcess.setupSocket]
  split
  · exact ends_storing _ t .logToSink
  · split
    · exact ends_storing _ t .null
    · split
      · exact ends_storing _ t .logToSink
      · have pinged := ends_pinging (((p.change t fun th => { th with errCnt := 0 }).sinkSocket t k).change t
          fun th => { th with message := true }) t k.ping
        split at pinged
        · rename_i answered
          simpa only [answered, if_true] using pinged
        · rename_i silent
          simpa only [silent, Bool.false_eq_true, if_false] using pinged

theorem ends_local (p : ClientProcess Tid) (t : Tid) : Ends t (p, .usingLocal) p.logLocal :=
  Ends.step (ends_storing p t _)

theorem ends_searching (p : ClientProcess Tid) (t : Tid) (noPing : Bool) (objects : List SharedObject)
    (k : SetupAnswers) :
    let q := objects.foldl ClientProcess.greasePlhdrCallback p
    Ends t (p, .searching noPing objects k)
      (if q.foundModule = .found then (q.logLocal, true) else q.viaSink t noPing k).1 := by
  intro q
  induction objects generalizing p with
  | nil =>
    change Ends t (p, .searching noPing [] k)
      (if p.foundModule = .found then (p.logLocal, true) else p.viaSink t noPing k).1
    refine Ends.step ?_
    simp only [next]
    by_cases found : p.foundModule = .found
    · rw [if_pos found, if_pos found]
      exact ends_local p t
    · rw [if_neg found, if_neg found]
      exact ends_settingUp p t noPing k
  | cons info objects ih =>
    have later := ih (p.greasePlhdrCallback info)
    refine Ends.step ?_
    simp only [next, q, List.foldl_cons, ClientProcess.greasePlhdrCallback] at later ⊢
    split
    · rename_i loaded
      simp only [loaded, if_true] at later
      split
      · rename_i symbol
        simp only [symbol, if_true] at later
        exact Ends.step later
      · rename_i missing
        simpa only [missing, Bool.false_eq_true, if_false] using later
    · rename_i other
      simpa only [other, Bool.false_eq_true, if_false] using later

end ClientPc

namespace ClientSystem
variable {Tid : Type} [DecidableEq Tid]

theorem enters_ends {c : ClientCall Tid} {t : Tid} {pc : ClientPc} (enters : c.enters = some (t, pc))
    (p : ClientProcess Tid) : ClientPc.Ends t (p, pc) (p.call c) := by
  cases c with
  | initLogger u objects k =>
    obtain ⟨rfl, rfl⟩ := Prod.mk.inj (Option.some.inj enters)
    rw [ClientProcess.call, ClientProcess.initLogger]
    refine ClientPc.Ends.step ?_
    simp only [ClientPc.next]
    split
    · refine ClientPc.Ends.step ?_
      simp only [ClientPc.next]
      split
      · exact ClientPc.ends_local p u
      · exact ClientPc.ends_settingUp p u false k
    · exact ClientPc.Ends.step (ClientPc.ends_searching _ u false objects k)
  | fastInitLogger u objects k =>
    obtain ⟨rfl, rfl⟩ := Prod.mk.inj (Option.some.inj enters)
    exact ClientPc.Ends.step (ClientPc.ends_searching _ u true objects k)
  | printf u sent =>
    obtain ⟨rfl, rfl⟩ := Prod.mk.inj (Option.some.inj enters)
    exact ClientPc.ends_testing p u sent
  | shutdown u =>
    obtain ⟨rfl, rfl⟩ := Prod.mk.inj (Option.some.inj enters)
    exact ClientPc.ends_shutting p u
  | openOther => cases enters
  | closeOther fd => cases enters

theorem go_iterate (s : ClientSystem Tid) (t : Tid) (n : Nat) :
    (List.replicate n (ClientAct.go t)).foldl act s =
      s.setPc t ((fun y : ClientProcess Tid × ClientPc => y.2.next y.1 t)^[n] (s.process, s.pc t)) := by
  induction n generalizing s with
  | zero => simp [setPc]
  | succ n ih =>
    rw [List.replicate_succ, List.foldl_cons, ih, Function.iterate_succ_apply]
    simp [act, setPc]

/-- A call that is not interrupted does what the function does. -/
theorem call_alone {s : ClientSystem Tid} {c : ClientCall Tid} {t : Tid} {pc : ClientPc}
    (enters : c.enters = some (t, pc)) (idle : s.pc t = .idle) :
    ∃ n, (.enter c :: List.replicate n (ClientAct.go t)).foldl act s =
      { s with process := s.process.call c } := by
  obtain ⟨n, ends⟩ := enters_ends enters s.process
  refine ⟨n, ?_⟩
  rw [List.foldl_cons, go_iterate]
  simp only [act, enters, idle, setPc, Function.update_self, ends, Function.update_idem]
  rw [← idle, Function.update_eq_self]

end ClientSystem

end GreaseLog
