import GreaseLog.ClientSends

/- The sockets of a process's threads: whose socket a thread sends on and closes, what a
   shutdown leaves, and what is never closed. -/
namespace GreaseLog

def ClientProcess.Own {Tid : Type} (p : ClientProcess Tid) (t : Tid) : Prop :=
  (p.threads t).sinkFd.bind p.fds.holder = some (.sink t)

instance {Tid : Type} [DecidableEq Tid] (p : ClientProcess Tid) (t : Tid) : Decidable (p.Own t) :=
  inferInstanceAs (Decidable (_ = _))

inductive SocketEffect where
  | none
  | makesSink (got : Bool)
  | makesPing
  /-- Without a directory, the socket of a ping stays open. -/
  | leavesPing
  | closesPing (fd : Nat) (first : Bool)
  | closesSink

namespace ClientPc
variable {Tid : Type} {p : ClientProcess Tid} {t : Tid} {pc : ClientPc}
  {r : ClientProcess Tid × ClientPc} {e : SocketEffect}

def effect (p : ClientProcess Tid) (t : Tid) : ClientPc → SocketEffect
  | .settingUp _ k => if (p.threads t).myTid then .none else .makesSink k.socket
  | .pinging k => if k.socket then .makesPing else .none
  | .pinged fd k => if !k.mkdtemp then .leavesPing else if !k.bind then .closesPing fd true else .none
  | .closingPing fd bound _ => .closesPing fd bound
  | .closing => .closesSink
  | _ => .none

/-- The descriptor that a step sends on or closes, and whose socket it should be. -/
def uses (p : ClientProcess Tid) (t : Tid) : ClientPc → Option (Option Nat × FdHolder Tid)
  | .sending _ | .closing => some ((p.threads t).sinkFd, .sink t)
  | .pinged fd _ | .closingPing fd _ _ => some (some fd, .ping t)
  | _ => none

/-- The descriptor of a ping, and whether it is still to be closed for the first time. -/
def pingFd : ClientPc → Option (Nat × Bool)
  | .pinged fd _ => some (fd, true)
  | .closingPing fd bound _ => some (fd, bound)
  | _ => none

structure KeepsSink (p q : ClientProcess Tid) (u : Tid) : Prop where
  sinkFd : (q.threads u).sinkFd = (p.threads u).sinkFd
  myTid : (p.threads u).myTid = true → (q.threads u).myTid = true

theorem KeepsSink.same {q : ClientProcess Tid} (threads : q.threads = p.threads) (u : Tid) :
    KeepsSink p q u where
  sinkFd := by rw [threads]
  myTid before := by rwa [threads]

theorem KeepsSink.trans {p q s : ClientProcess Tid} {u : Tid} (first : KeepsSink p q u)
    (second : KeepsSink q s u) : KeepsSink p s u where
  sinkFd := second.sinkFd.trans first.sinkFd
  myTid before := second.myTid (first.myTid before)

def openPing (pc : ClientPc) : Bool := pc.pingFd.any Prod.snd

inductive Did (p : ClientProcess Tid) (t : Tid) (pc : ClientPc) (r : ClientProcess Tid × ClientPc) :
    SocketEffect → Prop where
  | none (fds : r.1.fds = p.fds) (sinks : ∀ u, KeepsSink p r.1 u)
      (ping : r.2.pingFd = pc.pingFd) : Did p t pc r .none
  | makesSink {got : Bool} (new : (p.threads t).myTid = false)
      (fds : r.1.fds = if got then (p.fds.openLowest (.sink t)).1 else p.fds)
      (sink : (r.1.threads t).sinkFd = if got then some (p.fds.openLowest (.sink t)).2 else .none)
      (sinks : ∀ u, u ≠ t → KeepsSink p r.1 u)
      (ping : r.2.pingFd = .none) (before : pc.pingFd = .none) : Did p t pc r (.makesSink got)
  | makesPing (fds : r.1.fds = (p.fds.openLowest (.ping t)).1)
      (sinks : ∀ u, KeepsSink p r.1 u)
      (ping : r.2.pingFd = some ((p.fds.openLowest (.ping t)).2, true)) (before : pc.pingFd = .none) :
      Did p t pc r .makesPing
  | leavesPing {fd : Nat} (fds : r.1.fds = p.fds)
      (sinks : ∀ u, KeepsSink p r.1 u)
      (ping : r.2.pingFd = .none) (before : pc.pingFd = some (fd, true)) : Did p t pc r .leavesPing
  | closesPing {fd : Nat} {first : Bool} (fds : r.1.fds = p.fds.close fd)
      (sinks : ∀ u, KeepsSink p r.1 u)
      (ping : r.2.pingFd = .none ∨ r.2.pingFd = some (fd, false))
      (before : pc.pingFd = some (fd, first)) : Did p t pc r (.closesPing fd first)
  | closesSink (fds : ∀ fd, (p.threads t).sinkFd = some fd → r.1.fds = p.fds.close fd)
      (unset : (p.threads t).sinkFd = .none → r.1.fds = p.fds)
      (sinks : ∀ u, KeepsSink p r.1 u)
      (ping : r.2.pingFd = .none) (before : pc.pingFd = .none) : Did p t pc r .closesSink

section
variable [DecidableEq Tid]

theorem change_sinks (p : ClientProcess Tid) (t : Tid) {f : ClientThread → ClientThread}
    (keeps : ∀ th, (f th).sinkFd = th.sinkFd ∧ (th.myTid = true → (f th).myTid = true)) (u : Tid) :
    KeepsSink p (p.change t f) u := by
  by_cases same : u = t
  · subst same
    constructor
    · simp only [ClientProcess.change, Function.update_self, keeps]
    · intro before
      simp only [ClientProcess.change, Function.update_self]
      exact (keeps _).2 before
  · constructor
    · simp only [ClientProcess.change, Function.update_of_ne same]
    · simp only [ClientProcess.change, Function.update_of_ne same]
      exact id

theorem sinkSocket_sinks (p : ClientProcess Tid) (t : Tid) (k : SetupAnswers) :
    ((p.sinkSocket t k).threads t).sinkFd =
        (if k.socket then some (p.fds.openLowest (.sink t)).2 else none) ∧
      ∀ u, u ≠ t → KeepsSink p (p.sinkSocket t k) u := by
  unfold ClientProcess.sinkSocket
  constructor
  · split
    · simp only [ClientProcess.change, Function.update_self]
    · simp only [ClientProcess.change, Function.update_self]
  · intro u other
    split
    · constructor
      · simp only [ClientProcess.change, Function.update_of_ne other]
      · simp only [ClientProcess.change, Function.update_of_ne other]
        exact id
    · constructor
      · simp only [ClientProcess.change, Function.update_of_ne other]
      · simp only [ClientProcess.change, Function.update_of_ne other]
        exact id

theorem settingUp_did (p : ClientProcess Tid) (t : Tid) (noPing : Bool) (k : SetupAnswers) :
    Did p t (.settingUp noPing k) ((ClientPc.settingUp noPing k).next p t)
      ((ClientPc.settingUp noPing k).effect p t) := by
  have reset := change_sinks p t (f := fun th => { th with errCnt := 0 }) fun th => ⟨rfl, id⟩
  have tid : ((p.change t fun th => { th with errCnt := 0 }).threads t).myTid = (p.threads t).myTid := by
    simp only [ClientProcess.change, Function.update_self]
  obtain ⟨sink, others⟩ := sinkSocket_sinks (p.change t fun th => { th with errCnt := 0 }) t k
  simp only [next, effect, tid]
  cases new : (p.threads t).myTid with
  | true => exact .none rfl reset rfl
  | false =>
    simp only [Bool.false_eq_true, if_false]
    have made : ∀ {r : ClientProcess Tid × ClientPc},
        r.1.fds = ((p.change t fun th => { th with errCnt := 0 }).sinkSocket t k).fds →
        (∀ u, KeepsSink ((p.change t fun th => { th with errCnt := 0 }).sinkSocket t k) r.1 u) →
        r.2.pingFd = .none → Did p t (.settingUp noPing k) r (.makesSink k.socket) := by
      intro r fds sinks ping
      refine .makesSink new ?_ ?_ ?_ ping rfl
      · rw [fds, ClientProcess.sinkSocket]
        split <;> rfl
      · rw [(sinks t).sinkFd]
        exact sink
      · intro u other
        exact ((reset u).trans (others u other)).trans (sinks u)
    split
    · exact made rfl (KeepsSink.same rfl) rfl
    · have filled := change_sinks ((p.change t fun th => { th with errCnt := 0 }).sinkSocket t k) t
        (f := fun th => { th with message := true }) fun th => ⟨rfl, id⟩
      split
      · exact made rfl (fun u => (filled u).trans (change_sinks _ t
          (f := fun th => { th with myTid := true }) (fun th => ⟨rfl, fun _ => rfl⟩) u)) rfl
      · exact made rfl filled rfl

theorem next_did (p : ClientProcess Tid) (t : Tid) (pc : ClientPc) :
    Did p t pc (pc.next p t) (pc.effect p t) := by
  cases pc with
  | settingUp noPing k => exact settingUp_did p t noPing k
  | counting =>
    simp only [next, effect]
    refine .none rfl (change_sinks p t (f := fun th => { th with errCnt := th.errCnt + 1 })
      fun th => ⟨rfl, id⟩) ?_
    split <;> rfl
  | pinging k =>
    simp only [next, effect]
    cases k.socket with
    | false => exact .none rfl (KeepsSink.same rfl) rfl
    | true => exact .makesPing rfl (KeepsSink.same rfl) rfl rfl
  | pinged fd k =>
    simp only [next, effect]
    cases k.mkdtemp with
    | false => exact .leavesPing rfl (KeepsSink.same rfl) rfl rfl
    | true =>
      cases k.bind with
      | false => exact .closesPing rfl (KeepsSink.same rfl) (Or.inr rfl) rfl
      | true =>
        simp only [Bool.not_true, Bool.false_eq_true, if_false]
        split
        · exact .none rfl (change_sinks p t (f := fun th => { th with sinkDgramAddr := k.recvfrom })
            fun th => ⟨rfl, id⟩) rfl
        · exact .none rfl (KeepsSink.same rfl) rfl
  | closingPing fd bound answered =>
    simp only [next, effect]
    split
    · have marked := change_sinks { p with fds := p.fds.close fd } t
        (f := fun th => { th with myTid := true }) fun th => ⟨rfl, fun _ => rfl⟩
      exact .closesPing rfl (fun u =>
        (KeepsSink.same (p := p) (q := { p with fds := p.fds.close fd }) rfl u).trans (marked u)) (Or.inl rfl) rfl
    · exact .closesPing rfl (KeepsSink.same rfl) (Or.inl rfl) rfl
  | closing =>
    simp only [next, effect]
    split
    · rename_i fd is
      refine .closesSink (fun fd' is' => ?_) (fun none => ?_) (KeepsSink.same rfl) rfl rfl
      · obtain rfl := Option.some.inj (is.symm.trans is')
        rfl
      · rw [is] at none
        cases none
    · rename_i is
      refine .closesSink (fun fd is' => ?_) (fun _ => rfl) (KeepsSink.same rfl) rfl rfl
      rw [is] at is'
      cases is'
  | searching noPing objects k =>
    cases objects with
    | nil =>
      simp only [next, effect]
      refine .none rfl (KeepsSink.same rfl) ?_
      split <;> rfl
    | cons info objects =>
      simp only [next, effect]
      split
      · split
        · exact .none rfl (KeepsSink.same rfl) rfl
        · exact .none rfl (KeepsSink.same rfl) rfl
      · exact .none rfl (KeepsSink.same rfl) rfl
  | calling sent =>
    simp only [next, effect]
    split
    · exact .none rfl (KeepsSink.same rfl) rfl
    · exact .none rfl (KeepsSink.same rfl) rfl
    · exact .none rfl (KeepsSink.same rfl) rfl
  | testing | sending | asking | ran | shutting =>
    simp only [next, effect]
    refine .none rfl (KeepsSink.same rfl) ?_
    split <;> rfl
  | idle | disabling | crashed | clearing | marking | usingLocal | storing =>
    exact .none rfl (KeepsSink.same rfl) rfl

end

theorem Did.holder (did : Did p t pc r e) {fd : Nat} {h : FdHolder Tid}
    (holds : r.1.fds.holder fd = some h) :
    p.fds.holder fd = some h ∨ h = .sink t ∧ (p.threads t).myTid = false ∨ h = .ping t := by
  cases did with
  | none fds => exact Or.inl (fds ▸ holds)
  | @makesSink got new fds =>
    rw [fds] at holds
    cases got with
    | false => exact Or.inl holds
    | true =>
      rcases Descriptors.holder_open holds with ⟨_, is⟩ | before
      · exact Or.inr (Or.inl ⟨is, new⟩)
      · exact Or.inl before
  | makesPing fds =>
    rw [fds] at holds
    rcases Descriptors.holder_open holds with ⟨_, is⟩ | before
    · exact Or.inr (Or.inr is)
    · exact Or.inl before
  | leavesPing fds => exact Or.inl (fds ▸ holds)
  | closesPing fds =>
    rw [fds] at holds
    exact Or.inl (Descriptors.holder_close holds)
  | closesSink fds unset =>
    cases is : (p.threads t).sinkFd with
    | none =>
      rw [unset is] at holds
      exact Or.inl holds
    | some closed =>
      rw [fds closed is] at holds
      exact Or.inl (Descriptors.holder_close holds)

theorem Did.keeps (did : Did p t pc r e) {u : Tid} (setup : (p.threads u).myTid = true) :
    KeepsSink p r.1 u := by
  cases did with
  | makesSink new _ _ sinks =>
    refine sinks u ?_
    rintro rfl
    rw [new] at setup
    cases setup
  | none _ sinks | makesPing _ sinks | leavesPing _ sinks | closesPing _ sinks => exact sinks u
  | closesSink _ _ sinks => exact sinks u

theorem Did.others (did : Did p t pc r e) {u : Tid} (other : u ≠ t) : KeepsSink p r.1 u := by
  cases did with
  | makesSink _ _ _ sinks => exact sinks u other
  | none _ sinks | makesPing _ sinks | leavesPing _ sinks | closesPing _ sinks => exact sinks u
  | closesSink _ _ sinks => exact sinks u

theorem Did.stays (did : Did p t pc r e) {fd : Nat} {h : FdHolder Tid}
    (holds : p.fds.holder fd = some h) :
    r.1.fds.holder fd = some h ∨ (∃ first, e = .closesPing fd first) ∨
      e = .closesSink ∧ (p.threads t).sinkFd = some fd := by
  have opened : ∀ g : FdHolder Tid, (p.fds.openLowest g).1.holder fd = some h := by
    intro g
    have other : fd ≠ (p.fds.openLowest g).2 := by
      rintro rfl
      rw [Descriptors.open_free] at holds
      cases holds
    exact (Descriptors.holder_open_other p.fds g other).trans holds
  cases did with
  | none fds => exact Or.inl (fds ▸ holds)
  | @makesSink got new fds =>
    rw [fds]
    cases got with
    | false => exact Or.inl holds
    | true => exact Or.inl (opened _)
  | makesPing fds =>
    rw [fds]
    exact Or.inl (opened _)
  | leavesPing fds => exact Or.inl (fds ▸ holds)
  | @closesPing closed first fds =>
    by_cases same : fd = closed
    · subst same
      exact Or.inr (Or.inl ⟨first, rfl⟩)
    · rw [fds, Descriptors.holder_close_other p.fds same]
      exact Or.inl holds
  | closesSink fds unset =>
    cases is : (p.threads t).sinkFd with
    | none => exact Or.inl ((unset is).symm ▸ holds)
    | some closed =>
      by_cases same : fd = closed
      · exact Or.inr (Or.inr ⟨rfl, congrArg some same.symm⟩)
      · rw [fds closed is, Descriptors.holder_close_other p.fds same]
        exact Or.inl holds

end ClientPc

/-! After a shutdown. -/

namespace ClientSystem
variable {Tid : Type} [DecidableEq Tid] {s : ClientSystem Tid} {t : Tid}

/-- A thread that has been set up and has no socket of its own. -/
structure Gone (t : Tid) (p : ClientProcess Tid) : Prop where
  setup : (p.threads t).myTid = true
  lost : ¬p.Own t

omit [DecidableEq Tid] in
theorem own_iff {p : ClientProcess Tid} :
    p.Own t ↔ ∃ fd, (p.threads t).sinkFd = some fd ∧ p.fds.holder fd = some (.sink t) :=
  Option.bind_eq_some_iff

theorem enter_holder (c : ClientCall Tid) {fd : Nat} {h : FdHolder Tid} (client : h.client = true) :
    (s.act (.enter c)).process.fds.holder fd = some h ↔ s.process.fds.holder fd = some h := by
  cases c with
  | openOther =>
    refine Descriptors.holder_open_iff ?_ fd
    rintro rfl
    cases client
  | closeOther closed =>
    simp only [act, ClientCall.enters, ClientProcess.call]
    split
    · rename_i is
      refine Descriptors.holder_close_iff ?_ fd
      rw [is]
      rintro same
      obtain rfl := Option.some.inj same
      cases client
    · exact Iff.rfl
  | initLogger t objects k | fastInitLogger t objects k | printf t sent | shutdown t =>
    simp only [act, ClientCall.enters]
    split <;> exact Iff.rfl

theorem enter_threads (c : ClientCall Tid) : (s.act (.enter c)).process.threads = s.process.threads := by
  cases c with
  | openOther => rfl
  | closeOther closed =>
    simp only [act, ClientCall.enters, ClientProcess.call]
    split <;> rfl
  | initLogger t objects k | fastInitLogger t objects k | printf t sent | shutdown t =>
    simp only [act, ClientCall.enters]
    split <;> rfl

/-- No step gives it one: a thread makes a socket only for itself, and only before it is set up. -/
theorem gone_act (a : ClientAct Tid) (gone : Gone t s.process) :
    Gone t (s.act a).process ∧ ((s.act a).process.threads t).sinkFd = (s.process.threads t).sinkFd := by
  have kept : ∀ {q : ClientProcess Tid}, ClientPc.KeepsSink s.process q t →
      (∀ fd, q.fds.holder fd = some (.sink t) → s.process.fds.holder fd = some (.sink t)) →
      Gone t q ∧ (q.threads t).sinkFd = (s.process.threads t).sinkFd := by
    intro q sink holders
    refine ⟨⟨sink.myTid gone.setup, fun own => gone.lost ?_⟩, sink.sinkFd⟩
    obtain ⟨fd, is, holds⟩ := own_iff.mp own
    exact own_iff.mpr ⟨fd, sink.sinkFd.symm.trans is, holders fd holds⟩
  cases a with
  | go u =>
    have did := ClientPc.next_did s.process u (s.pc u)
    refine kept (did.keeps gone.setup) fun fd holds => ?_
    rcases did.holder holds with before | ⟨is, new⟩ | is
    · exact before
    · have setup := gone.setup
      rw [FdHolder.sink.inj is, new] at setup
      cases setup
    · cases is
  | enter c =>
    exact kept (ClientPc.KeepsSink.same (enter_threads c) t) fun fd => (enter_holder c rfl).mp

theorem gone_acts (as : List (ClientAct Tid)) (gone : Gone t s.process) :
    Gone t (as.foldl act s).process ∧
      ((as.foldl act s).process.threads t).sinkFd = (s.process.threads t).sinkFd := by
  induction as generalizing s with
  | nil => exact ⟨gone, rfl⟩
  | cons a as ih =>
    obtain ⟨first, same⟩ := gone_act a gone
    obtain ⟨later, kept⟩ := ih first
    exact ⟨later, kept.trans same⟩

/-- A call is its steps, with none of the other threads' between them. -/
theorem gone_call {p : ClientProcess Tid} (c : ClientCall Tid) (gone : Gone t p) :
    Gone t (p.call c) ∧ ((p.call c).threads t).sinkFd = (p.threads t).sinkFd := by
  let s : ClientSystem Tid := { process := p }
  cases enters : c.enters with
  | some entry =>
    obtain ⟨u, pc⟩ := entry
    obtain ⟨n, alone⟩ := call_alone (s := s) enters rfl
    have steps := gone_acts (s := s) (.enter c :: List.replicate n (ClientAct.go u)) gone
    rwa [alone] at steps
  | none =>
    have step := gone_act (s := s) (.enter c) gone
    have same : (s.act (.enter c)).process = p.call c := by
      rw [act, enters]
    rwa [same] at step

theorem gone_calls {p : ClientProcess Tid} (cs : List (ClientCall Tid)) (gone : Gone t p) :
    Gone t (p.calls cs) ∧ ((p.calls cs).threads t).sinkFd = (p.threads t).sinkFd := by
  induction cs generalizing p with
  | nil => exact ⟨gone, rfl⟩
  | cons c cs ih =>
    obtain ⟨first, same⟩ := gone_call c gone
    obtain ⟨later, kept⟩ := ih first
    exact ⟨later, kept.trans same⟩

end ClientSystem

namespace ClientProcess
variable {Tid : Type} {p : ClientProcess Tid} {t : Tid}

theorem shutdown_gone (setup : (p.threads t).myTid = true) (on : p.greaseLog = .logToSink) :
    ClientSystem.Gone t (p.shutdown t) ∧ ((p.shutdown t).threads t).sinkFd = (p.threads t).sinkFd := by
  rw [shutdown, if_pos on]
  split
  · rename_i fd is
    refine ⟨⟨setup, ?_⟩, rfl⟩
    rw [ClientSystem.own_iff]
    rintro ⟨fd', is', holds⟩
    obtain rfl := Option.some.inj (is.symm.trans is')
    rw [Descriptors.holder_closed] at holds
    cases holds
  · rename_i is
    refine ⟨⟨setup, ?_⟩, rfl⟩
    rw [ClientSystem.own_iff, is]
    rintro ⟨fd', none, _⟩
    cases none

variable [DecidableEq Tid]

omit [DecidableEq Tid] in
theorem checked_threads (p : ClientProcess Tid) (objects : List SharedObject) :
    (p.checkGreaseSymbols objects).threads = p.threads := by
  have folded : ∀ (objects : List SharedObject) (q : ClientProcess Tid),
      (objects.foldl greasePlhdrCallback q).threads = q.threads := by
    intro objects
    induction objects with
    | nil => exact fun q => rfl
    | cons info objects ih =>
      intro q
      rw [List.foldl_cons, ih, greasePlhdrCallback]
      repeat' split
      all_goals rfl
  exact folded objects _

theorem viaSink_setup {p : ClientProcess Tid} (setup : (p.threads t).myTid = true) (noPing : Bool)
    (k : SetupAnswers) : (p.viaSink t noPing k).2 = true := by
  have tid : ((p.change t fun th => { th with errCnt := 0 }).threads t).myTid = true := by
    simp only [change, Function.update_self, setup]
  simp only [viaSink, setupSinkDgramSocket, tid, if_true]

/-- A shutdown is for good: whatever is called after it, by whatever threads, the thread keeps the
    number that it has closed and never has a socket of its own again, though every init that
    it makes says GREASE_OK, whatever the system answers. -/
theorem shutdown_final (setup : (p.threads t).myTid = true) (on : p.greaseLog = .logToSink)
    (cs : List (ClientCall Tid)) :
    ¬((p.shutdown t).calls cs).Own t ∧
      (((p.shutdown t).calls cs).threads t).sinkFd = (p.threads t).sinkFd ∧
      ∀ objects k, (((p.shutdown t).calls cs).initLogger t objects k).2 = true := by
  obtain ⟨first, same⟩ := shutdown_gone setup on
  obtain ⟨gone, kept⟩ := ClientSystem.gone_calls cs first
  refine ⟨gone.lost, kept.trans same, fun objects k => ?_⟩
  rw [initLogger]
  split
  · split
    · rfl
    · exact viaSink_setup gone.setup false k
  · dsimp only
    split
    · rfl
    · refine viaSink_setup ?_ false k
      rw [checked_threads]
      exact gone.setup

theorem shutdown_final_once :
    let p := ({ fds := [some .other] } : ClientProcess Nat).call (.initLogger 0 [] {})
    ¬((p.shutdown 0).calls [.initLogger 1 [] {}, .initLogger 0 [] {}]).Own 0 :=
  (shutdown_final (p := ({ fds := [some .other] } : ClientProcess Nat).call (.initLogger 0 [] {}))
    (t := 0) (by decide) (by decide) [.initLogger 1 [] {}, .initLogger 0 [] {}]).1

end ClientProcess

structure ClientSessions (Tid : Type) where
  system : ClientSystem Tid
  on : Tid → Bool := fun _ => false
  leaked : Nat := 0

namespace SocketEffect

/-- A setup turns a thread on if it gets a socket. -/
def turns {Tid : Type} [DecidableEq Tid] (on : Tid → Bool) (t : Tid) : SocketEffect → Tid → Bool
  | .makesSink got => Function.update on t got
  | .closesSink => Function.update on t false
  | _ => on

/-- The socket that the thread has had is lost when it sets up another one. -/
def loses (on : Bool) : SocketEffect → Nat
  | .makesSink _ => on.toNat
  | .leavesPing => 1
  | _ => 0

end SocketEffect

def ClientPc.between (on : Bool) : ClientPc → Bool
  | .sending _ | .closing => on
  | .closingPing _ bound _ => bound
  | _ => true

namespace ClientSessions
variable {Tid : Type} [DecidableEq Tid] {s : ClientSessions Tid}

def act (s : ClientSessions Tid) : ClientAct Tid → ClientSessions Tid
  | .enter c => { s with system := s.system.act (.enter c) }
  | .go t =>
    let e := (s.system.pc t).effect s.system.process t
    ⟨s.system.act (.go t), e.turns s.on t, s.leaked + e.loses (s.on t)⟩

/-- What the step sends on or closes is a socket that the thread has opened for it, and open. -/
def OnOwn (s : ClientSessions Tid) : ClientAct Tid → Prop
  | .enter _ => True
  | .go t => ∀ use ∈ (s.system.pc t).uses s.system.process t,
      use.1.bind s.system.process.fds.holder = some use.2

/-- The thread logs and shuts down between a setup that got a socket and its next shutdown,
    and does not close the socket of a ping again that it has closed because it was not bound. -/
def Between (s : ClientSessions Tid) : ClientAct Tid → Prop
  | .enter _ => True
  | .go t => (s.system.pc t).between (s.on t) = true

instance (s : ClientSessions Tid) : ∀ a, Decidable (s.Between a)
  | .enter _ => inferInstanceAs (Decidable True)
  | .go _ => inferInstanceAs (Decidable (_ = true))

/-- A thread is on while it has a socket of its own, and in a ping it has another one, up to
    the first close. -/
structure Tracked (s : ClientSessions Tid) : Prop where
  own : ∀ t, s.system.process.Own t ↔ s.on t = true
  ping : ∀ t fd, (s.system.pc t).pingFd = some (fd, true) →
    s.system.process.fds.holder fd = some (.ping t)
  closed : ∀ t fd, (s.system.pc t).pingFd = some (fd, false) →
    s.system.process.fds.holder fd ≠ some (.ping t)

omit [DecidableEq Tid] in
theorem onOwn_iff {a : ClientAct Tid} (tracked : s.Tracked) : s.OnOwn a ↔ s.Between a := by
  cases a with
  | enter c => exact Iff.rfl
  | go t =>
    have own := tracked.own t
    have ping := tracked.ping t
    have closed := tracked.closed t
    simp only [OnOwn, Between, Option.mem_def]
    cases at_ : s.system.pc t with
    | sending sent =>
      simp only [ClientPc.uses, Option.some.injEq, forall_eq']
      exact own
    | closing =>
      simp only [ClientPc.uses, Option.some.injEq, forall_eq']
      exact own
    | pinged fd k =>
      simp only [ClientPc.uses, Option.some.injEq, forall_eq']
      exact iff_of_true (ping fd (by rw [at_]; rfl)) rfl
    | closingPing fd bound answered =>
      simp only [ClientPc.uses, Option.some.injEq, forall_eq']
      cases bound with
      | true => exact iff_of_true (ping fd (by rw [at_]; rfl)) rfl
      | false => exact iff_of_false (closed fd (by rw [at_]; rfl)) Bool.false_ne_true
    | _ => simp [ClientPc.uses, ClientPc.between]

theorem act_system (s : ClientSessions Tid) (a : ClientAct Tid) : (s.act a).system = s.system.act a := by
  cases a <;> rfl

omit [DecidableEq Tid] in
theorem closes_own {t : Tid} (tracked : s.Tracked) (between : s.Between (.go t)) :
    (∀ fd first, (s.system.pc t).effect s.system.process t = .closesPing fd first →
      s.system.process.fds.holder fd = some (.ping t)) ∧
    ((s.system.pc t).effect s.system.process t = .closesSink → s.on t = true) := by
  have ping := tracked.ping t
  simp only [Between] at between
  cases at_ : s.system.pc t with
  | settingUp noPing k =>
    simp only [ClientPc.effect]
    constructor
    · intro fd first is
      split at is <;> cases is
    · intro is
      split at is <;> cases is
  | pinging k =>
    simp only [ClientPc.effect]
    constructor
    · intro fd first is
      split at is <;> cases is
    · intro is
      split at is <;> cases is
  | pinged fd k =>
    have holds := ping fd (by rw [at_]; rfl)
    simp only [ClientPc.effect]
    constructor
    · intro fd' first is
      split at is
      · cases is
      · split at is
        · obtain ⟨rfl, _⟩ := SocketEffect.closesPing.inj is
          exact holds
        · cases is
    · intro is
      split at is
      · cases is
      · split at is <;> cases is
  | closingPing fd bound answered =>
    rw [at_] at between
    obtain rfl : bound = true := between
    refine ⟨fun fd' first is => ?_, fun is => nomatch is⟩
    obtain ⟨rfl, _⟩ := SocketEffect.closesPing.inj is
    exact ping fd (by rw [at_]; rfl)
  | closing =>
    rw [at_] at between
    exact ⟨fun fd first is => (nomatch is), fun _ => between⟩
  | _ => exact ⟨fun fd first is => (nomatch is), fun is => (nomatch is)⟩

theorem go_holder {t : Tid} (tracked : s.Tracked) (between : s.Between (.go t)) {fd : Nat}
    {h : FdHolder Tid} (sink : h ≠ .sink t) (ping : h ≠ .ping t) :
    (s.system.act (.go t)).process.fds.holder fd = some h ↔ s.system.process.fds.holder fd = some h := by
  have did := ClientPc.next_did s.system.process t (s.system.pc t)
  obtain ⟨closesPing, closesSink⟩ := closes_own tracked between
  constructor
  · intro holds
    rcases did.holder holds with before | ⟨is, _⟩ | is
    · exact before
    · exact absurd is sink
    · exact absurd is ping
  · intro holds
    rcases did.stays holds with after | ⟨first, closes⟩ | ⟨closes, is⟩
    · exact after
    · have own := closesPing fd first closes
      rw [holds] at own
      exact absurd (Option.some.inj own) ping
    · have own := (tracked.own t).mpr (closesSink closes)
      rw [ClientProcess.Own, is] at own
      exact absurd (Option.some.inj (holds.symm.trans own)) sink

theorem did_own {p : ClientProcess Tid} {t : Tid} {pc : ClientPc} {r : ClientProcess Tid × ClientPc}
    {e : SocketEffect} {on : Tid → Bool} (did : ClientPc.Did p t pc r e) (own : p.Own t ↔ on t = true)
    (closesPing : ∀ fd first, e = .closesPing fd first → p.fds.holder fd = some (.ping t))
    (closesSink : e = .closesSink → on t = true) : r.1.Own t ↔ e.turns on t t = true := by
  have kept : (r.1.threads t).sinkFd = (p.threads t).sinkFd →
      (∀ fd, r.1.fds.holder fd = some (.sink t) ↔ p.fds.holder fd = some (.sink t)) →
      (r.1.Own t ↔ on t = true) := by
    intro sinkFd holders
    rw [← own, ClientSystem.own_iff, ClientSystem.own_iff, sinkFd]
    exact exists_congr fun fd => and_congr_right fun _ => holders fd
  cases did with
  | none fds sinks => exact kept (sinks t).sinkFd fun fd => by rw [fds]
  | @makesSink got new fds sink =>
    rw [SocketEffect.turns, Function.update_self, ClientSystem.own_iff, sink, fds]
    cases got with
    | true => exact iff_of_true ⟨_, rfl, Descriptors.holder_opened _ _⟩ rfl
    | false =>
      refine iff_of_false ?_ Bool.false_ne_true
      rintro ⟨fd, is, _⟩
      cases is
  | makesPing fds sinks =>
    refine kept (sinks t).sinkFd fun fd => ?_
    have other : FdHolder.sink t ≠ FdHolder.ping t := fun is => nomatch is
    rw [fds]
    exact Descriptors.holder_open_iff other fd
  | leavesPing fds sinks => exact kept (sinks t).sinkFd fun fd => by rw [fds]
  | @closesPing closed first fds sinks =>
    refine kept (sinks t).sinkFd fun fd => ?_
    rw [fds]
    refine Descriptors.holder_close_iff ?_ fd
    rw [closesPing closed first rfl]
    exact fun is => nomatch is
  | closesSink fds unset sinks =>
    rw [SocketEffect.turns, Function.update_self]
    refine iff_of_false ?_ Bool.false_ne_true
    obtain ⟨closed, is, _⟩ := ClientSystem.own_iff.mp (own.mpr (closesSink rfl))
    rw [ClientSystem.own_iff, (sinks t).sinkFd, fds closed is]
    rintro ⟨fd, is', holds⟩
    obtain rfl := Option.some.inj (is.symm.trans is')
    rw [Descriptors.holder_closed] at holds
    cases holds

omit [DecidableEq Tid] in
theorem did_ping {p : ClientProcess Tid} {t : Tid} {pc : ClientPc} {r : ClientProcess Tid × ClientPc}
    {e : SocketEffect} (did : ClientPc.Did p t pc r e)
    (ping : ∀ fd, pc.pingFd = some (fd, true) → p.fds.holder fd = some (.ping t))
    (closed : ∀ fd, pc.pingFd = some (fd, false) → p.fds.holder fd ≠ some (.ping t)) :
    (∀ fd, r.2.pingFd = some (fd, true) → r.1.fds.holder fd = some (.ping t)) ∧
      ∀ fd, r.2.pingFd = some (fd, false) → r.1.fds.holder fd ≠ some (.ping t) := by
  cases did with
  | none fds sinks same =>
    rw [same, fds]
    exact ⟨ping, closed⟩
  | makesSink _ _ _ _ none =>
    rw [none]
    exact ⟨fun fd is => (nomatch is), fun fd is => (nomatch is)⟩
  | makesPing fds _ made =>
    rw [made, fds]
    constructor
    · intro fd is
      obtain ⟨rfl, _⟩ := Prod.mk.inj (Option.some.inj is)
      exact Descriptors.holder_opened _ _
    · intro fd is
      cases (Prod.mk.inj (Option.some.inj is)).2
  | leavesPing _ _ none =>
    rw [none]
    exact ⟨fun fd is => (nomatch is), fun fd is => (nomatch is)⟩
  | closesPing fds _ after =>
    rcases after with none | shut
    · rw [none]
      exact ⟨fun fd is => (nomatch is), fun fd is => (nomatch is)⟩
    · rw [shut, fds]
      constructor
      · intro fd is
        cases (Prod.mk.inj (Option.some.inj is)).2
      · intro fd is
        obtain ⟨rfl, _⟩ := Prod.mk.inj (Option.some.inj is)
        rw [Descriptors.holder_closed]
        exact fun is => nomatch is
  | closesSink _ _ _ none =>
    rw [none]
    exact ⟨fun fd is => (nomatch is), fun fd is => (nomatch is)⟩

theorem turns_other {e : SocketEffect} {t u : Tid} (on : Tid → Bool) (other : u ≠ t) :
    e.turns on t u = on u := by
  cases e with
  | makesSink got => exact Function.update_of_ne other _ _
  | closesSink => exact Function.update_of_ne other _ _
  | none | makesPing | leavesPing | closesPing => rfl

theorem enter_pingFd (s : ClientSystem Tid) (c : ClientCall Tid) (u : Tid) :
    ((s.act (.enter c)).pc u).pingFd = (s.pc u).pingFd := by
  cases c with
  | openOther => rfl
  | closeOther fd => rfl
  | initLogger t objects k | fastInitLogger t objects k | printf t sent | shutdown t =>
    simp only [ClientSystem.act, ClientCall.enters]
    split
    · rename_i idle
      by_cases same : u = t
      · subst same
        rw [ClientSystem.setPc_self, idle]
        rfl
      · rw [ClientSystem.setPc_other _ _ same]
    · rfl

theorem act_tracked {a : ClientAct Tid} (tracked : s.Tracked) (between : s.Between a) :
    (s.act a).Tracked := by
  cases a with
  | enter c =>
    constructor
    · intro t
      show _ ↔ s.on t = true
      rw [← tracked.own t, act_system, ClientSystem.own_iff, ClientSystem.own_iff,
        ClientSystem.enter_threads]
      exact exists_congr fun fd => and_congr_right fun _ => ClientSystem.enter_holder c rfl
    · intro t fd is
      rw [act_system, enter_pingFd] at is
      rw [act_system]
      exact (ClientSystem.enter_holder c rfl).mpr (tracked.ping t fd is)
    · intro t fd is
      rw [act_system, enter_pingFd] at is
      rw [act_system]
      exact (ClientSystem.enter_holder c rfl).not.mpr (tracked.closed t fd is)
  | go t =>
    have did := ClientPc.next_did s.system.process t (s.system.pc t)
    obtain ⟨closesPing, closesSink⟩ := closes_own tracked between
    obtain ⟨ping, closed⟩ := did_ping did (tracked.ping t) (tracked.closed t)
    have pc : ∀ {u}, u ≠ t → ((s.act (.go t)).system.pc u) = s.system.pc u := by
      intro u other
      rw [act_system]
      exact ClientSystem.setPc_other _ _ other
    have self : (s.act (.go t)).system.pc t = ((s.system.pc t).next s.system.process t).2 := by
      rw [act_system]
      exact ClientSystem.setPc_self _ _ _
    have holder : ∀ {u fd}, u ≠ t →
        (((s.act (.go t)).system.process.fds.holder fd = some (.sink u)) ↔
          s.system.process.fds.holder fd = some (.sink u)) ∧
        (((s.act (.go t)).system.process.fds.holder fd = some (.ping u)) ↔
          s.system.process.fds.holder fd = some (.ping u)) := by
      intro u fd other
      rw [act_system]
      exact ⟨go_holder tracked between (fun is => other (FdHolder.sink.inj is)) (fun is => nomatch is),
        go_holder tracked between (fun is => nomatch is) fun is => other (FdHolder.ping.inj is)⟩
    constructor
    · intro u
      by_cases same : u = t
      · subst same
        rw [act_system]
        exact did_own did (tracked.own u) closesPing closesSink
      · have on : (s.act (.go t)).on u = s.on u := turns_other s.on same
        have sink : ((s.act (.go t)).system.process.threads u).sinkFd =
            (s.system.process.threads u).sinkFd := by
          rw [act_system]
          exact (did.others same).sinkFd
        rw [on, ← tracked.own u, ClientSystem.own_iff, ClientSystem.own_iff, sink]
        exact exists_congr fun fd => and_congr_right fun _ => (holder same).1
    · intro u fd is
      by_cases same : u = t
      · subst same
        rw [self] at is
        rw [act_system]
        exact ping fd is
      · rw [pc same] at is
        exact (holder same).2.mpr (tracked.ping u fd is)
    · intro u fd is
      by_cases same : u = t
      · subst same
        rw [self] at is
        rw [act_system]
        exact closed fd is
      · rw [pc same] at is
        exact (holder same).2.not.mpr (tracked.closed u fd is)

def start (fds : Descriptors (FdHolder Tid)) : ClientSessions Tid := { system := { process := { fds := fds } } }

omit [DecidableEq Tid] in
theorem start_tracked {fds : Descriptors (FdHolder Tid)} (fresh : fds.count FdHolder.client = 0) :
    (start fds).Tracked := by
  refine ⟨fun t => iff_of_false ?_ Bool.false_ne_true, fun t fd is => (nomatch is), fun t fd is => (nomatch is)⟩
  rw [ClientSystem.own_iff]
  rintro ⟨fd, _, holds⟩
  have some_ := Descriptors.count_close (k := FdHolder.client) holds
  have none : fds.count FdHolder.client = 0 := fresh
  have one : (FdHolder.client (.sink t)).toNat = 1 := rfl
  rw [show (start fds).system.process.fds = fds from rfl] at some_
  omega

/-- However the threads' steps interleave: what is sent goes out on, and what is closed is, a socket
    that the calling thread has opened for it and nobody has closed, if and only if each thread
    logs and shuts down only between a setup that got a socket and its next shutdown, and
    none goes on to the last close of a ping whose socket it could not bind. -/
theorem own_sockets_iff {fds : Descriptors (FdHolder Tid)} (fresh : fds.count FdHolder.client = 0)
    (as : List (ClientAct Tid)) :
    Runs.Checked OnOwn act (start fds) as ↔ Runs.Checked Between act (start fds) as := by
  have each : ∀ (s : ClientSessions Tid) a, s.Tracked →
      (s.OnOwn a ↔ s.Between a) ∧ (s.Between a → (s.act a).Tracked) :=
    fun s a tracked => ⟨onOwn_iff tracked, act_tracked tracked⟩
  exact Runs.checked_iff_while each as (start_tracked fresh)

def alone (t : Nat) (c : ClientCall Nat) (n : Nat) : List (ClientAct Nat) :=
  .enter c :: List.replicate n (.go t)

/-- A thread that logs after its shutdown is on the socket of the thread that set one up since. -/
def reusedSocket : List (ClientAct Nat) :=
  alone 0 (.initLogger 0 [] {}) 8 ++ alone 0 (.shutdown 0) 2 ++ alone 1 (.initLogger 1 [] {}) 8 ++
    alone 0 (.printf 0 true) 3

/-- The ping of thread 0 cannot bind, and between its closes thread 1 gets the number. -/
def unboundPing : List (ClientAct Nat) :=
  alone 0 (.initLogger 0 [] { ping := { bind := false } }) 6 ++ alone 1 (.fastInitLogger 1 [] {}) 3 ++ [.go 0]

theorem own_sockets_iff_lost :
    ¬Runs.Checked OnOwn act (start [some .other]) reusedSocket ∧
      ¬Runs.Checked OnOwn act (start [some .other]) unboundPing ∧
      ¬(unboundPing.foldl act (start [some .other])).system.process.Own 1 :=
  ⟨(own_sockets_iff (by decide) _).not.mpr (by decide), (own_sockets_iff (by decide) _).not.mpr (by decide),
    by decide⟩

/-! What is never closed. -/

/-- The client's descriptors are the sockets of the threads that are on, those of the pings
    under way, and what is lost. -/
structure Counted (who : Finset Tid) (s : ClientSessions Tid) : Prop where
  on : ∀ t, s.on t = true → t ∈ who
  initing : s.system.Known ClientPc.initing who
  clients : s.system.process.fds.count FdHolder.client =
    ∑ t ∈ who, (s.on t).toNat + ∑ t ∈ who, (s.system.pc t).openPing.toNat + s.leaked

omit [DecidableEq Tid] in
theorem openPing_none {pc : ClientPc} (none : pc.pingFd = none) : pc.openPing = false := by
  rw [ClientPc.openPing, none]
  rfl

theorem did_clients {p : ClientProcess Tid} {t : Tid} {pc : ClientPc} {r : ClientProcess Tid × ClientPc}
    {e : SocketEffect} {on : Tid → Bool} (did : ClientPc.Did p t pc r e) (own : p.Own t ↔ on t = true)
    (closed : ∀ fd, pc.pingFd = some (fd, false) → p.fds.holder fd ≠ some (.ping t))
    (closesPing : ∀ fd first, e = .closesPing fd first → p.fds.holder fd = some (.ping t))
    (closesSink : e = .closesSink → on t = true) :
    r.1.fds.count FdHolder.client + pc.openPing.toNat + (on t).toNat =
      p.fds.count FdHolder.client + r.2.openPing.toNat + (e.turns on t t).toNat + e.loses (on t) := by
  cases did with
  | none fds sinks same => simp [fds, ClientPc.openPing, same, SocketEffect.turns, SocketEffect.loses]
  | @makesSink got new fds sink sinks after before =>
    rw [openPing_none after, openPing_none before, fds, SocketEffect.turns, Function.update_self,
      SocketEffect.loses]
    cases got with
    | true =>
      have opened := Descriptors.count_open FdHolder.client p.fds (.sink t)
      have one : (FdHolder.client (.sink t)).toNat = 1 := rfl
      simp only [if_true, Bool.toNat_true, Bool.toNat_false]
      omega
    | false =>
      simp only [Bool.false_eq_true, if_false, Bool.toNat_false]
  | makesPing fds sinks after before =>
    have opened := Descriptors.count_open FdHolder.client p.fds (.ping t)
    have one : (FdHolder.client (.ping t)).toNat = 1 := rfl
    have now : r.2.openPing = true := by rw [ClientPc.openPing, after]; rfl
    rw [openPing_none before, now, fds]
    simp only [SocketEffect.turns, SocketEffect.loses, Bool.toNat_true, Bool.toNat_false]
    omega
  | leavesPing fds sinks after before =>
    have was : pc.openPing = true := by rw [ClientPc.openPing, before]; rfl
    rw [openPing_none after, was, fds]
    simp only [SocketEffect.turns, SocketEffect.loses, Bool.toNat_true, Bool.toNat_false]
    omega
  | @closesPing fd first fds sinks after before =>
    have holds := closesPing fd first rfl
    have closes := Descriptors.count_close (k := FdHolder.client) holds
    have one : (FdHolder.client (.ping t)).toNat = 1 := rfl
    have was : pc.openPing = true := by
      cases first with
      | true => rw [ClientPc.openPing, before]; rfl
      | false => exact absurd holds (closed fd before)
    have now : r.2.openPing = false := by
      rcases after with none | shut
      · exact openPing_none none
      · rw [ClientPc.openPing, shut]
        rfl
    rw [was, now, fds]
    simp only [SocketEffect.turns, SocketEffect.loses, Bool.toNat_true, Bool.toNat_false]
    omega
  | closesSink fds unset sinks after before =>
    obtain ⟨fd, is, holds⟩ := ClientSystem.own_iff.mp (own.mpr (closesSink rfl))
    have closes := Descriptors.count_close (k := FdHolder.client) holds
    have one : (FdHolder.client (.sink t)).toNat = 1 := rfl
    rw [openPing_none after, openPing_none before, fds fd is, closesSink rfl]
    simp only [SocketEffect.turns, SocketEffect.loses, Function.update_self, Bool.toNat_true,
      Bool.toNat_false]
    omega

theorem enter_clients (s : ClientSystem Tid) (c : ClientCall Tid) :
    (s.act (.enter c)).process.fds.count FdHolder.client = s.process.fds.count FdHolder.client := by
  cases c with
  | openOther => exact Descriptors.count_open _ _ _
  | closeOther fd =>
    simp only [ClientSystem.act, ClientCall.enters, ClientProcess.call]
    split
    · rename_i other
      exact Descriptors.count_close (k := FdHolder.client) other
    · rfl
  | initLogger t objects k | fastInitLogger t objects k | printf t sent | shutdown t =>
    simp only [ClientSystem.act, ClientCall.enters]
    split <;> rfl

theorem effect_initing {p : ClientProcess Tid} {t : Tid} {pc : ClientPc} (quiet : pc.initing = false)
    (unset : pc ≠ .closing) (on : Tid → Bool) :
    (pc.next p t).2.openPing = pc.openPing ∧ (pc.effect p t).turns on t = on ∧
      (pc.effect p t).loses (on t) = 0 := by
  have did := ClientPc.next_did p t pc
  have none : pc.effect p t = .none := by
    cases pc <;> first | exact absurd rfl unset | rfl | cases quiet
  rw [none] at did ⊢
  cases did with
  | none _ _ same => exact ⟨by rw [ClientPc.openPing, ClientPc.openPing, same], rfl, rfl⟩

theorem act_counted {who : Finset Tid} {a : ClientAct Tid} (tracked : s.Tracked)
    (counted : s.Counted who) (inits : ∀ t, a.initer = some t → t ∈ who) (between : s.Between a) :
    (s.act a).Counted who := by
  have now := counted.clients
  have initing : (s.act a).system.Known ClientPc.initing who := by
    rw [act_system]
    exact ClientSystem.act_initing counted.initing inits
  cases a with
  | enter c =>
    refine ⟨counted.on, initing, ?_⟩
    rw [act_system, enter_clients]
    show _ = ∑ t ∈ who, (s.on t).toNat + ∑ t ∈ who, ((s.system.act (.enter c)).pc t).openPing.toNat + s.leaked
    simp only [ClientPc.openPing, enter_pingFd]
    exact now
  | go t =>
    have did := ClientPc.next_did s.system.process t (s.system.pc t)
    obtain ⟨closesPing, closesSink⟩ := closes_own tracked between
    have clients := did_clients did (tracked.own t) (tracked.closed t) closesPing closesSink
    have on : ∀ u, ((s.act (.go t)).on u).toNat = Function.update (fun u => (s.on u).toNat) t
        ((s.act (.go t)).on t).toNat u := by
      intro u
      by_cases same : u = t
      · rw [same, Function.update_self]
      · rw [Function.update_of_ne same]
        exact congrArg Bool.toNat (turns_other s.on same)
    have pings : ∀ u, ((s.act (.go t)).system.pc u).openPing.toNat =
        Function.update (fun u => (s.system.pc u).openPing.toNat) t
          ((s.system.pc t).next s.system.process t).2.openPing.toNat u := by
      intro u
      rw [act_system]
      by_cases same : u = t
      · subst same
        rw [Function.update_self]
        exact congrArg (fun pc => pc.openPing.toNat) (ClientSystem.setPc_self s.system u _)
      · rw [Function.update_of_ne same]
        exact congrArg (fun pc => pc.openPing.toNat) (ClientSystem.setPc_other s.system _ same)
    have leaked : (s.act (.go t)).leaked = s.leaked +
        ((s.system.pc t).effect s.system.process t).loses (s.on t) := rfl
    have turned : (s.act (.go t)).on t = ((s.system.pc t).effect s.system.process t).turns s.on t t := rfl
    have count : (s.act (.go t)).system.process.fds = ((s.system.pc t).next s.system.process t).1.fds := by
      rw [act_system]
      rfl
    by_cases member : t ∈ who
    · refine ⟨fun u is => ?_, initing, ?_⟩
      · by_cases same : u = t
        · rwa [same]
        · exact counted.on u ((turns_other s.on same).symm.trans is)
      · have movedOn := Totals.sum_update (f := fun u => (s.on u).toNat) member ((s.act (.go t)).on t).toNat
        have movedPings := Totals.sum_update (f := fun u => (s.system.pc u).openPing.toNat) member
          ((s.system.pc t).next s.system.process t).2.openPing.toNat
        simp only [← on] at movedOn
        simp only [← pings] at movedPings
        rw [turned] at movedOn
        rw [count, leaked]
        omega
    · have quiet : (s.system.pc t).initing = false :=
        Bool.eq_false_iff.mpr fun is => member (counted.initing t is)
      have unset : s.system.pc t ≠ .closing := by
        intro is
        simp only [Between, is, ClientPc.between] at between
        exact member (counted.on t between)
      obtain ⟨same, stays, none⟩ := effect_initing (p := s.system.process) (t := t) quiet unset s.on
      have kept : (s.act (.go t)).on = s.on := stays
      rw [stays, none, same] at clients
      have others : ∑ u ∈ who, ((s.act (.go t)).system.pc u).openPing.toNat =
          ∑ u ∈ who, (s.system.pc u).openPing.toNat := by
        refine Finset.sum_congr rfl fun u is => ?_
        rw [pings, Function.update_of_ne]
        rintro rfl
        exact member is
      refine ⟨by rw [kept]; exact counted.on, initing, ?_⟩
      rw [count, leaked, none, kept, others]
      omega

theorem acts_counted {who : Finset Tid} (as : List (ClientAct Tid)) (tracked : s.Tracked)
    (counted : s.Counted who) (inits : ∀ a ∈ as, ∀ t, a.initer = some t → t ∈ who)
    (between : Runs.Checked Between act s as) : (as.foldl act s).Counted who := by
  induction as generalizing s with
  | nil => exact counted
  | cons a as ih =>
    obtain ⟨here, later⟩ := between
    refine ih (act_tracked tracked here) ?_ ?_ later
    · exact act_counted tracked counted (inits a List.mem_cons_self) here
    · intro a' member
      exact inits a' (List.mem_cons_of_mem a member)

/-- While that is so, the client's descriptors are at all times one for each thread that is on, one
    for each ping under way, and those that nobody will close: the socket of before of each
    setup of a thread that is on, and of each ping without a directory. -/
theorem sockets_counted {fds : Descriptors (FdHolder Tid)} (fresh : fds.count FdHolder.client = 0)
    {as : List (ClientAct Tid)} (between : Runs.Checked Between act (start fds) as) :
    let s := as.foldl act (start fds)
    let who := (as.filterMap ClientAct.initer).toFinset
    s.system.process.fds.count FdHolder.client =
      ∑ t ∈ who, (s.on t).toNat + ∑ t ∈ who, (s.system.pc t).openPing.toNat + s.leaked := by
  have inits : ∀ a ∈ as, ∀ t, a.initer = some t → t ∈ (as.filterMap ClientAct.initer).toFinset := by
    intro a member t is
    rw [List.mem_toFinset, List.mem_filterMap]
    exact ⟨a, member, is⟩
  have counted : (start fds).Counted (as.filterMap ClientAct.initer).toFinset := by
    refine ⟨fun t is => (nomatch is), fun t is => (nomatch is), ?_⟩
    show fds.count FdHolder.client = _
    simp [fresh, start, ClientPc.openPing, ClientPc.pingFd]
  exact (acts_counted as (start_tracked fresh) counted inits between).clients

/-- A logger that does not answer costs a socket for each further try, and the ping of another
    thread is under way. -/
def retriedInits : List (ClientAct Nat) :=
  (List.replicate 3 (alone 0 (.initLogger 0 [] { ping := { recvfrom := none } }) 8)).flatten ++
    alone 1 (.initLogger 1 [] {}) 4

theorem sockets_counted_retried :
    let s := retriedInits.foldl act (start [some .other])
    s.system.process.fds.count FdHolder.client = 2 + 1 + 2 := by
  have between : Runs.Checked Between act (start [some .other]) retriedInits := by decide
  exact (sockets_counted (by decide) between).trans (by decide)

end ClientSessions

end GreaseLog
