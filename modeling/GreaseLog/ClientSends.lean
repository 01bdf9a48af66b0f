import GreaseLog.ClientThreads
import GreaseLog.Lib.Totals
import Mathlib.Algebra.BigOperators.Group.Finset.Basic
import Mathlib.Algebra.BigOperators.Group.Finset.Piecewise
import Mathlib.Algebra.Group.Action.Defs
import Mathlib.Algebra.Order.BigOperators.Group.Finset

/- How often a send can fail before the sink is given up, when the threads of a process log at
   the same time: each has a count of its own, and grease_log is one for all. -/
namespace GreaseLog

def ClientCall.inits {Tid : Type} : ClientCall Tid → Bool
  | .initLogger _ _ _ | .fastInitLogger _ _ _ => true
  | _ => false

namespace ClientAct
variable {Tid : Type}

def inits : ClientAct Tid → Bool
  | .enter c => c.inits
  | .go _ => false

def printer : ClientAct Tid → Option Tid
  | .enter (.printf t _) => some t
  | _ => none

def initer : ClientAct Tid → Option Tid
  | .enter (.initLogger t _ _) | .enter (.fastInitLogger t _ _) => some t
  | _ => none

end ClientAct

namespace ClientPc
variable {Tid : Type}

def initing : ClientPc → Bool
  | .asking _ _ | .ran _ | .clearing _ _ _ | .searching _ _ _ | .marking _ _ _ | .usingLocal
  | .settingUp _ _ | .pinging _ | .pinged _ _ | .closingPing _ _ _ | .storing _ => true
  | _ => false

def printing : ClientPc → Bool
  | .testing _ | .calling _ | .sending _ | .counting | .disabling => true
  | _ => false

/-- The sends that may fail before the thread's next store to grease_log; without a sink only
    the one that it has begun. -/
def share (on : Bool) (errCnt : Nat) : ClientPc → Nat
  | .idle | .testing _ | .calling _ | .shutting | .closing =>
    if on then SINK_MAX_ERRORS - errCnt + 1 else 0
  | .sending _ => if on then SINK_MAX_ERRORS - errCnt + 1 else 1
  | .counting => if on then SINK_MAX_ERRORS - errCnt else 0
  | _ => 0

theorem share_le (on : Bool) (errCnt : Nat) (pc : ClientPc) :
    pc.share on errCnt ≤ SINK_MAX_ERRORS + 1 := by
  cases pc <;> cases on <;> simp [share]
  omega

theorem share_off_le (errCnt : Nat) (on : Bool) (pc : ClientPc) :
    pc.share false errCnt ≤ pc.share on errCnt := by
  cases pc <;> cases on <;> simp [share]

theorem share_initing {pc : ClientPc} (initing : pc.initing = true) (on : Bool) (errCnt : Nat) :
    pc.share on errCnt = 0 := by
  cases pc <;> first | rfl | cases initing

def failedSend (p : ClientProcess Tid) (t : Tid) : ClientPc → Nat
  | .sending sent => (!p.reaches t sent).toNat
  | _ => 0

def shareIn (p : ClientProcess Tid) (t : Tid) (pc : ClientPc) : Nat :=
  pc.share (p.greaseLog = .logToSink) (p.threads t).errCnt

/-- A step that leaves grease_log pays for the send that fails in it. -/
structure Pays (p : ClientProcess Tid) (t : Tid) (pc : ClientPc) (r : ClientProcess Tid × ClientPc) :
    Prop where
  greaseLog : r.1.greaseLog = p.greaseLog
  others : ∀ u, u ≠ t → (r.1.threads u).errCnt = (p.threads u).errCnt
  paid : pc.failedSend p t + r.2.shareIn r.1 t ≤ pc.shareIn p t
  initing : r.2.initing = true → pc.initing = true

/-- In an init nothing is sent, and whatever the count of errors, the share is none. -/
theorem pays_initing {p : ClientProcess Tid} {t : Tid} {pc : ClientPc}
    {r : ClientProcess Tid × ClientPc} (begins : pc.initing = true) (goesOn : r.2.initing = true)
    (greaseLog : r.1.greaseLog = p.greaseLog)
    (others : ∀ u, u ≠ t → (r.1.threads u).errCnt = (p.threads u).errCnt) : Pays p t pc r where
  greaseLog := greaseLog
  others := others
  paid := by
    have silent : pc.failedSend p t = 0 := by cases pc <;> first | rfl | cases begins
    rw [silent, shareIn, share_initing goesOn]
    exact Nat.zero_le _
  initing _ := begins

variable [DecidableEq Tid]

theorem change_others (p : ClientProcess Tid) (t : Tid) (f : ClientThread → ClientThread) (u : Tid)
    (other : u ≠ t) : ((p.change t f).threads u).errCnt = (p.threads u).errCnt := by
  simp only [ClientProcess.change, Function.update_of_ne other]

theorem sinkSocket_others (p : ClientProcess Tid) (t : Tid) (k : SetupAnswers) :
    (p.sinkSocket t k).greaseLog = p.greaseLog ∧
      ∀ u, u ≠ t → ((p.sinkSocket t k).threads u).errCnt = (p.threads u).errCnt := by
  unfold ClientProcess.sinkSocket
  split
  · exact ⟨rfl, change_others _ t _⟩
  · exact ⟨rfl, change_others _ t _⟩

theorem pays_settingUp (p : ClientProcess Tid) (t : Tid) (noPing : Bool) (k : SetupAnswers) :
    Pays p t (.settingUp noPing k) ((ClientPc.settingUp noPing k).next p t) := by
  have reset := change_others p t fun th => { th with errCnt := 0 }
  obtain ⟨log, made⟩ := sinkSocket_others (p.change t fun th => { th with errCnt := 0 }) t k
  simp only [next]
  split
  · exact pays_initing rfl rfl rfl reset
  · split
    · exact pays_initing rfl rfl log fun u other => (made u other).trans (reset u other)
    · have filled := change_others ((p.change t fun th => { th with errCnt := 0 }).sinkSocket t k) t
        fun th => { th with message := true }
      split
      · refine pays_initing rfl rfl log fun u other => ?_
        rw [change_others _ t _ u other, filled u other, made u other, reset u other]
      · refine pays_initing rfl rfl log fun u other => ?_
        rw [filled u other, made u other, reset u other]

/-- A step stores to grease_log and ends the call, or it pays. -/
theorem next_sends (p : ClientProcess Tid) (t : Tid) (pc : ClientPc) :
    (∃ f, pc.next p t = ({ p with greaseLog := f }, .idle) ∧ pc.failedSend p t = 0 ∧
      pc.shareIn p t = 0 ∧ (f = .logToSink → pc.initing = true)) ∨ Pays p t pc (pc.next p t) := by
  have still : ∀ {pc pc' : ClientPc}, pc.failedSend p t = 0 → pc'.shareIn p t ≤ pc.shareIn p t →
      pc'.initing = false → Pays p t pc (p, pc') := by
    intro pc pc' silent less other
    refine ⟨rfl, fun _ _ => rfl, ?_, fun is => ?_⟩
    · rw [silent, Nat.zero_add]
      exact less
    · rw [other] at is
      cases is
  cases pc with
  | idle => exact Or.inr (still rfl (Nat.le_refl _) rfl)
  | testing sent =>
    right
    simp only [next]
    split
    · exact still rfl (Nat.le_refl _) rfl
    · exact still rfl (Nat.le_refl _) rfl
  | calling sent =>
    right
    simp only [next]
    split
    · exact still rfl (Nat.zero_le _) rfl
    · exact still rfl (Nat.le_refl _) rfl
    · rename_i on
      refine still rfl ?_ rfl
      simp [shareIn, share, on]
  | sending sent =>
    right
    simp only [next]
    refine ⟨rfl, fun _ _ => rfl, ?_, ?_⟩
    · cases reached : p.reaches t sent with
      | true =>
        cases on : decide (p.greaseLog = .logToSink) <;>
          simp [failedSend, shareIn, share, reached, on]
      | false =>
        cases on : decide (p.greaseLog = .logToSink) <;>
          simp [failedSend, shareIn, share, reached, on, Nat.add_comm]
    · split <;> exact fun is => absurd is Bool.false_ne_true
  | counting =>
    right
    simp only [next]
    refine ⟨rfl, change_others p t fun th => { th with errCnt := th.errCnt + 1 }, ?_, ?_⟩
    · simp only [failedSend, shareIn, ClientProcess.change, Function.update_self]
      split
      · exact Nat.zero_le _
      · rename_i few
        by_cases on : p.greaseLog = .logToSink
        · simp only [share, on, decide_true, if_true]
          omega
        · simp [share, on]
    · split <;> exact fun is => absurd is Bool.false_ne_true
  | disabling => exact Or.inl ⟨.null, rfl, rfl, rfl, fun is => GreaseLogFunc.noConfusion is⟩
  | crashed => exact Or.inr (still rfl (Nat.le_refl _) rfl)
  | asking objects k =>
    right
    simp only [next]
    refine pays_initing rfl ?_ rfl fun _ _ => rfl
    split <;> rfl
  | ran k =>
    right
    simp only [next]
    refine pays_initing rfl ?_ rfl fun _ _ => rfl
    split <;> rfl
  | clearing noPing objects k => exact Or.inr (pays_initing rfl rfl rfl fun _ _ => rfl)
  | searching noPing objects k =>
    right
    cases objects with
    | nil =>
      simp only [next]
      refine pays_initing rfl ?_ rfl fun _ _ => rfl
      split <;> rfl
    | cons info objects =>
      simp only [next]
      split
      · split
        · exact pays_initing rfl rfl rfl fun _ _ => rfl
        · exact pays_initing rfl rfl rfl fun _ _ => rfl
      · exact pays_initing rfl rfl rfl fun _ _ => rfl
  | marking noPing objects k => exact Or.inr (pays_initing rfl rfl rfl fun _ _ => rfl)
  | usingLocal => exact Or.inr (pays_initing rfl rfl rfl fun _ _ => rfl)
  | settingUp noPing k => exact Or.inr (pays_settingUp p t noPing k)
  | pinging k =>
    right
    simp only [next]
    split
    · exact pays_initing rfl rfl rfl fun _ _ => rfl
    · exact pays_initing rfl rfl rfl fun _ _ => rfl
  | pinged fd k =>
    right
    simp only [next]
    split
    · exact pays_initing rfl rfl rfl fun _ _ => rfl
    · split
      · exact pays_initing rfl rfl rfl fun _ _ => rfl
      · split
        · exact pays_initing rfl rfl rfl
            (change_others p t fun th => { th with sinkDgramAddr := k.recvfrom })
        · exact pays_initing rfl rfl rfl fun _ _ => rfl
  | closingPing fd bound answered =>
    right
    simp only [next]
    split
    · exact pays_initing rfl rfl rfl
        (change_others { p with fds := p.fds.close fd } t fun th => { th with myTid := true })
    · exact pays_initing rfl rfl rfl fun _ _ => rfl
  | storing f => exact Or.inl ⟨f, rfl, rfl, rfl, fun _ => rfl⟩
  | shutting =>
    right
    simp only [next]
    split
    · exact still rfl (Nat.le_refl _) rfl
    · exact still rfl (Nat.le_refl _) rfl
  | closing =>
    right
    simp only [next]
    split
    · exact ⟨rfl, fun _ _ => rfl, Nat.le_of_eq (Nat.zero_add _), fun is => absurd is Bool.false_ne_true⟩
    · exact still rfl (Nat.le_refl _) rfl

theorem next_printing (p : ClientProcess Tid) (t : Tid) {pc : ClientPc}
    (prints : (pc.next p t).2.printing = true) : pc.printing = true := by
  obtain ⟨f, stored, _⟩ | pays := next_sends p t pc
  · rw [stored] at prints
    cases prints
  · cases pc with
    | testing sent => rfl
    | calling sent => rfl
    | sending sent => rfl
    | counting => rfl
    | disabling => rfl
    | searching noPing objects k =>
      cases objects with
      | nil =>
        simp only [next] at prints
        split at prints <;> cases prints
      | cons info objects =>
        simp only [next] at prints
        repeat' split at prints
        all_goals cases prints
    | asking | ran | settingUp | pinging | pinged | closingPing | shutting | closing =>
      simp only [next] at prints
      repeat' split at prints
      all_goals cases prints
    | idle | crashed | clearing | marking | usingLocal | storing => cases prints

theorem next_initing (p : ClientProcess Tid) (t : Tid) {pc : ClientPc}
    (inits : (pc.next p t).2.initing = true) : pc.initing = true := by
  obtain ⟨f, stored, _⟩ | pays := next_sends p t pc
  · rw [stored] at inits
    cases inits
  · exact pays.initing inits

end ClientPc

namespace ClientSystem
variable {Tid : Type} [DecidableEq Tid]

def Known (kind : ClientPc → Bool) (who : Finset Tid) (s : ClientSystem Tid) : Prop :=
  ∀ t, kind (s.pc t) = true → t ∈ who

theorem known_setPc {kind : ClientPc → Bool} {who : Finset Tid} {s : ClientSystem Tid}
    (known : s.Known kind who) {t : Tid} {r : ClientProcess Tid × ClientPc}
    (self : kind r.2 = true → t ∈ who) : (s.setPc t r).Known kind who := by
  intro u is
  by_cases same : u = t
  · subst same
    rw [setPc_self] at is
    exact self is
  · rw [setPc_other s r same] at is
    exact known u is

theorem known_act {kind : ClientPc → Bool} {who : Finset Tid} {s : ClientSystem Tid} {a : ClientAct Tid}
    (known : s.Known kind who)
    (stays : ∀ (p : ClientProcess Tid) t pc, kind (ClientPc.next p t pc).2 = true → kind pc = true)
    (enters : ∀ c t pc, a = .enter c → c.enters = some (t, pc) → kind pc = true → t ∈ who) :
    (s.act a).Known kind who := by
  cases a with
  | go t => exact known_setPc known fun is => known t (stays _ _ _ is)
  | enter c =>
    simp only [act]
    split
    · rename_i t pc entry
      split
      · exact known_setPc known (enters c t pc rfl entry)
      · exact known
    · exact known

def failedSend (s : ClientSystem Tid) : ClientAct Tid → Nat
  | .enter _ => 0
  | .go t => (s.pc t).failedSend s.process t

def failedSends : ClientSystem Tid → List (ClientAct Tid) → Nat
  | _, [] => 0
  | s, a :: as => s.failedSend a + (s.act a).failedSends as

variable {s : ClientSystem Tid} {loggers initers : Finset Tid}

/-- The sends that may fail before grease_log is stored to, and after each store to come. -/
def room (loggers initers : Finset Tid) (s : ClientSystem Tid) : Nat :=
  ∑ t ∈ loggers, (s.pc t).shareIn s.process t +
    (SINK_MAX_ERRORS + 1) * loggers.card * ∑ t ∈ initers, (s.pc t).initing.toNat

omit [DecidableEq Tid] in
theorem shares_le (loggers : Finset Tid) (s : ClientSystem Tid) :
    ∑ t ∈ loggers, (s.pc t).shareIn s.process t ≤ (SINK_MAX_ERRORS + 1) * loggers.card := by
  have total := Finset.sum_le_card_nsmul loggers (fun t => (s.pc t).shareIn s.process t)
    (SINK_MAX_ERRORS + 1) fun t _ => ClientPc.share_le _ _ _
  rwa [smul_eq_mul, Nat.mul_comm] at total

theorem initing_setPc (s : ClientSystem Tid) (t : Tid) (r : ClientProcess Tid × ClientPc) (u : Tid) :
    ((s.setPc t r).pc u).initing.toNat =
      Function.update (fun u => (s.pc u).initing.toNat) t r.2.initing.toNat u := by
  by_cases same : u = t
  · subst same
    simp [setPc]
  · simp [setPc, Function.update_of_ne same]

theorem initings_le (initers : Finset Tid) {t : Tid} {r : ClientProcess Tid × ClientPc}
    (less : r.2.initing = true → (s.pc t).initing = true) :
    ∑ u ∈ initers, ((s.setPc t r).pc u).initing.toNat ≤ ∑ u ∈ initers, (s.pc u).initing.toNat := by
  refine Finset.sum_le_sum fun u _ => ?_
  rw [initing_setPc]
  by_cases same : u = t
  · subst same
    rw [Function.update_self]
    cases is : r.2.initing with
    | true => rw [less is]
    | false => exact Nat.zero_le _
  · rw [Function.update_of_ne same]

theorem go_room (t : Tid) (printing : s.Known ClientPc.printing loggers)
    (initing : s.Known ClientPc.initing initers) :
    s.failedSend (.go t) + room loggers initers (s.act (.go t)) ≤ room loggers initers s := by
  have others : ∀ {u}, u ≠ t → (s.act (.go t)).pc u = s.pc u := setPc_other s _
  have self : (s.act (.go t)).pc t = ((s.pc t).next s.process t).2 := setPc_self s t _
  obtain ⟨f, stored, silent, none, logs⟩ | pays := ClientPc.next_sends s.process t (s.pc t)
  · have after : s.act (.go t) = s.setPc t ({ s.process with greaseLog := f }, .idle) := by
      rw [act, stored]
    have failed : s.failedSend (.go t) = 0 := silent
    rw [failed, Nat.zero_add, after]
    by_cases on : f = .logToSink
    · -- The store was paid for when its call began.
      have member := initing t (logs on)
      have moved := Totals.sum_update (f := fun u => (s.pc u).initing.toNat) member 0
      have shares := shares_le loggers (s.setPc t ({ s.process with greaseLog := f }, .idle))
      have counted : ∑ u ∈ initers, ((s.setPc t ({ s.process with greaseLog := f }, .idle)).pc u).initing.toNat +
          1 = ∑ u ∈ initers, (s.pc u).initing.toNat := by
        rw [logs on] at moved
        simp only [initing_setPc]
        exact moved
      unfold room
      rw [← counted, Nat.mul_add, Nat.mul_one]
      omega
    · have less := initings_le (s := s) initers (t := t) (r := ({ s.process with greaseLog := f }, .idle))
        fun is => absurd is Bool.false_ne_true
      have shares : ∑ u ∈ loggers, ((s.setPc t ({ s.process with greaseLog := f }, .idle)).pc u).shareIn
          { s.process with greaseLog := f } u ≤ ∑ u ∈ loggers, (s.pc u).shareIn s.process u := by
        refine Finset.sum_le_sum fun u _ => ?_
        by_cases same : u = t
        · subst same
          simp [setPc, ClientPc.shareIn, ClientPc.share, on]
        · simp only [setPc, Function.update_of_ne same, ClientPc.shareIn, on, decide_false]
          exact ClientPc.share_off_le _ _ _
      exact Nat.add_le_add shares (Nat.mul_le_mul_left _ less)
  · have less := initings_le (s := s) initers pays.initing
    have each : ∀ u ∈ loggers, ((s.act (.go t)).pc u).shareIn (s.act (.go t)).process u +
        (if u = t then s.failedSend (.go t) else 0) ≤ (s.pc u).shareIn s.process u := by
      intro u _
      by_cases same : u = t
      · subst same
        rw [if_pos rfl, self, Nat.add_comm]
        exact pays.paid
      · rw [if_neg same, others same, Nat.add_zero]
        have log : (s.act (.go t)).process.greaseLog = s.process.greaseLog := pays.greaseLog
        have count : ((s.act (.go t)).process.threads u).errCnt = (s.process.threads u).errCnt :=
          pays.others u same
        rw [ClientPc.shareIn, ClientPc.shareIn, log, count]
    have shares := Finset.sum_le_sum each
    rw [Finset.sum_add_distrib, Finset.sum_ite_eq'] at shares
    have failed : (if t ∈ loggers then s.failedSend (.go t) else 0) = s.failedSend (.go t) := by
      split
      · rfl
      · rename_i stranger
        cases at_ : s.pc t with
        | sending sent => exact absurd (printing t (by rw [at_]; rfl)) stranger
        | _ => simp [failedSend, ClientPc.failedSend, at_]
    rw [failed] at shares
    have credit := Nat.mul_le_mul_left ((SINK_MAX_ERRORS + 1) * loggers.card) less
    unfold room
    show _ + (_ + _ * ∑ u ∈ initers, ((s.act (.go t)).pc u).initing.toNat) ≤ _
    change _ * ∑ u ∈ initers, ((s.act (.go t)).pc u).initing.toNat ≤ _ at credit
    omega

/-- Only an init that is entered allows more sends to fail. -/
theorem enter_room {c : ClientCall Tid} (inits : ∀ t, (ClientAct.enter c).initer = some t → t ∈ initers) :
    room loggers initers (s.act (.enter c)) ≤
      room loggers initers s + (SINK_MAX_ERRORS + 1) * loggers.card * c.inits.toNat := by
  have entered : ∀ {t pc}, s.pc t = .idle →
      (∀ on errCnt, pc.share on errCnt ≤ ClientPc.idle.share on errCnt) →
      (pc.initing = true → c.inits = true ∧ t ∈ initers) →
      room loggers initers (s.setPc t (s.process, pc)) ≤
        room loggers initers s + (SINK_MAX_ERRORS + 1) * loggers.card * c.inits.toNat := by
    intro t pc idle share init
    have shares : ∑ u ∈ loggers, ((s.setPc t (s.process, pc)).pc u).shareIn s.process u ≤
        ∑ u ∈ loggers, (s.pc u).shareIn s.process u := by
      refine Finset.sum_le_sum fun u _ => ?_
      by_cases same : u = t
      · subst same
        simp only [setPc, Function.update_self, idle]
        exact share _ _
      · simp only [setPc, Function.update_of_ne same]
        exact Nat.le_refl _
    have inited : ∑ u ∈ initers, ((s.setPc t (s.process, pc)).pc u).initing.toNat ≤
        ∑ u ∈ initers, (s.pc u).initing.toNat + c.inits.toNat := by
      cases is : pc.initing with
      | true =>
        obtain ⟨inits, member⟩ := init is
        have moved := Totals.sum_update (f := fun u => (s.pc u).initing.toNat) member 1
        have before : (s.pc t).initing.toNat = 0 := by rw [idle]; rfl
        rw [before, Nat.add_zero] at moved
        simp only [initing_setPc, is, inits]
        exact Nat.le_of_eq moved
      | false =>
        have less := initings_le (s := s) initers (t := t) (r := (s.process, pc)) fun now => by
          rw [is] at now
          cases now
        exact Nat.le_trans less (Nat.le_add_right _ _)
    have credit := Nat.mul_le_mul_left ((SINK_MAX_ERRORS + 1) * loggers.card) inited
    rw [Nat.mul_add] at credit
    unfold room
    show _ + _ ≤ _
    change ∑ u ∈ loggers, ((s.setPc t (s.process, pc)).pc u).shareIn
      (s.setPc t (s.process, pc)).process u ≤ _ at shares
    omega
  have unchanged : room loggers initers s ≤
      room loggers initers s + (SINK_MAX_ERRORS + 1) * loggers.card * c.inits.toNat :=
    Nat.le_add_right _ _
  cases c with
  | initLogger t objects k =>
    simp only [act, ClientCall.enters]
    split
    · rename_i idle
      exact entered idle (fun _ _ => Nat.zero_le _) fun _ => ⟨rfl, inits t rfl⟩
    · exact unchanged
  | fastInitLogger t objects k =>
    simp only [act, ClientCall.enters]
    split
    · rename_i idle
      exact entered idle (fun _ _ => Nat.zero_le _) fun _ => ⟨rfl, inits t rfl⟩
    · exact unchanged
  | printf t sent =>
    simp only [act, ClientCall.enters]
    split
    · rename_i idle
      exact entered idle (fun _ _ => Nat.le_refl _) fun is => absurd is Bool.false_ne_true
    · exact unchanged
  | shutdown t =>
    simp only [act, ClientCall.enters]
    split
    · rename_i idle
      exact entered idle (fun _ _ => Nat.le_refl _) fun is => absurd is Bool.false_ne_true
    · exact unchanged
  | openOther => exact unchanged
  | closeOther fd =>
    have same : room loggers initers (s.act (.enter (.closeOther fd))) = room loggers initers s := by
      simp only [act, ClientCall.enters, ClientProcess.call]
      split <;> rfl
    rw [same]
    exact unchanged

theorem act_printing {a : ClientAct Tid} (known : s.Known ClientPc.printing loggers)
    (prints : ∀ t, a.printer = some t → t ∈ loggers) : (s.act a).Known ClientPc.printing loggers := by
  refine known_act known (fun p t pc => ClientPc.next_printing p t) ?_
  rintro c t pc rfl enters is
  refine prints t ?_
  cases c with
  | printf u sent =>
    obtain ⟨rfl, rfl⟩ := Prod.mk.inj (Option.some.inj enters)
    rfl
  | initLogger | fastInitLogger | shutdown =>
    obtain ⟨rfl, rfl⟩ := Prod.mk.inj (Option.some.inj enters)
    cases is
  | openOther => cases enters
  | closeOther => cases enters

theorem act_initing {a : ClientAct Tid} (known : s.Known ClientPc.initing initers)
    (inits : ∀ t, a.initer = some t → t ∈ initers) : (s.act a).Known ClientPc.initing initers := by
  refine known_act known (fun p t pc => ClientPc.next_initing p t) ?_
  rintro c t pc rfl enters is
  refine inits t ?_
  cases c with
  | initLogger | fastInitLogger =>
    obtain ⟨rfl, rfl⟩ := Prod.mk.inj (Option.some.inj enters)
    rfl
  | printf | shutdown =>
    obtain ⟨rfl, rfl⟩ := Prod.mk.inj (Option.some.inj enters)
    cases is
  | openOther => cases enters
  | closeOther => cases enters

theorem acts_room (as : List (ClientAct Tid)) (printing : s.Known ClientPc.printing loggers)
    (initing : s.Known ClientPc.initing initers)
    (prints : ∀ a ∈ as, ∀ t, a.printer = some t → t ∈ loggers)
    (inits : ∀ a ∈ as, ∀ t, a.initer = some t → t ∈ initers) :
    s.failedSends as + room loggers initers (as.foldl act s) ≤
      room loggers initers s + (SINK_MAX_ERRORS + 1) * loggers.card * as.countP ClientAct.inits := by
  induction as generalizing s with
  | nil => exact Nat.le_of_eq (Nat.zero_add _)
  | cons a as ih =>
    have later := ih (act_printing printing (prints a List.mem_cons_self))
      (act_initing initing (inits a List.mem_cons_self)) (fun b member => prints b (List.mem_cons_of_mem a member))
      fun b member => inits b (List.mem_cons_of_mem a member)
    rw [failedSends, List.foldl_cons, List.countP_cons, Nat.mul_add]
    cases a with
    | go t =>
      have here := go_room t printing initing
      have none : (if (ClientAct.go t).inits = true then 1 else 0) = 0 := rfl
      rw [none]
      omega
    | enter c =>
      have here : room loggers initers (s.act (.enter c)) ≤ _ :=
        enter_room (inits _ List.mem_cons_self)
      have none : s.failedSend (.enter c) = 0 := rfl
      have one : (if (ClientAct.enter c).inits = true then 1 else 0) = c.inits.toNat := by
        cases is : c.inits <;> simp [ClientAct.inits, is]
      rw [none, one]
      omega

/-- However the threads' steps interleave, with inits and shutdowns among them: every init allows
    each thread that logs the errors of its own count, and the one more that makes too many. -/
theorem failed_sends_bounded (fds : Descriptors (FdHolder Tid)) (as : List (ClientAct Tid)) :
    ({ process := { fds := fds } } : ClientSystem Tid).failedSends as ≤
      (SINK_MAX_ERRORS + 1) * (as.filterMap ClientAct.printer).toFinset.card *
        as.countP ClientAct.inits := by
  have named : ∀ {f : ClientAct Tid → Option Tid}, ∀ a ∈ as, ∀ t, f a = some t →
      t ∈ (as.filterMap f).toFinset := by
    intro f a member t is
    rw [List.mem_toFinset, List.mem_filterMap]
    exact ⟨a, member, is⟩
  have bound := acts_room (s := { process := { fds := fds } }) as (fun t is => (nomatch is))
    (fun t is => (nomatch is)) named named
  have nothing : room (as.filterMap ClientAct.printer).toFinset (as.filterMap ClientAct.initer).toFinset
      ({ process := { fds := fds } } : ClientSystem Tid) = 0 := by
    simp [room, ClientPc.shareIn, ClientPc.share, ClientPc.initing]
  omega

/-- A printf of thread t up to its send, and the rest of it when the send fails. -/
def failingPrintf (t : Nat) : List (ClientAct Nat) × List (ClientAct Nat) :=
  ([.enter (.printf t false), .go t, .go t], [.go t, .go t, .go t])

/-- Two threads that send for the eleventh time before either has counted it: no bound is smaller. -/
example :
    let tenTimes t := (List.replicate 10 ((failingPrintf t).1 ++ (failingPrintf t).2)).flatten
    let as := [.enter (.initLogger 0 [] {})] ++ List.replicate 8 (.go 0) ++ tenTimes 0 ++ tenTimes 1 ++
      (failingPrintf 0).1 ++ (failingPrintf 1).1 ++ (failingPrintf 0).2 ++ (failingPrintf 1).2
    ({ process := { fds := [] } } : ClientSystem Nat).failedSends as = (SINK_MAX_ERRORS + 1) * 2 * 1 := by
  decide +kernel

end ClientSystem

end GreaseLog
