import GreaseLog.BankThreads
import GreaseLog.Lib.Serials

/- The bytes that leave a target under the interleaving of its two threads. Each
   currentBuffer that rotate() puts in writeOutBuffers has a serial number, which
   its bytes keep until flush has put them out and clear() has dropped them. -/
namespace GreaseLog

inductive Stage where
  | unflushed
  | flushed
  | cleared
  deriving DecidableEq

def Task.stage : Task → Stage
  | .flush _ | .flushSync _ | .stuck => .unflushed
  | .returnBuffer _ _ | .queue | .clear | .callback => .flushed
  | .add | .finalize => .cleared

structure BankTrail where
  /-- What rotate() put in writeOutBuffers, in that order. -/
  rotated : List (List Byte) := []
  uncleared : Serials BufId := {}
  unflushed : Serials BufId := {}
  /-- What the writes and the flushes without one found in the buffers at their
      end. -/
  flushed : List (Nat × List Byte) := []
  calledBack : List (Nat × List Byte) := []

namespace BankTrail

def rotate (g : BankTrail) (b : BufId) (data : List Byte) : BankTrail :=
  { g with
    rotated := g.rotated ++ [data]
    uncleared := g.uncleared.issue b
    unflushed := g.unflushed.issue b }

def flush (g : BankTrail) (b : BufId) (data : List Byte) : BankTrail :=
  { g with
    unflushed := g.unflushed.settle b
    flushed := g.flushed ++ (g.unflushed.holds b).toList.map (·, data) }

def clear (g : BankTrail) (b : BufId) : BankTrail := { g with uncleared := g.uncleared.settle b }

def callback (g : BankTrail) (b : BufId) (data : List Byte) : BankTrail :=
  { g.clear b with calledBack := g.calledBack ++ (g.uncleared.holds b).toList.map (·, data) }

/-- What an action adds to the trail. The write of a tty or file target ends with
    its callback, and the synchronous one of a file within flushSync; that of a tty
    would come after returnBuffer. A callback target has none. -/
def next (g : BankTrail) (s : BankThreads) : ThreadAction → BankTrail
  | .rotateOn =>
    match s.rotating with
    | .took _ =>
      if (s.t.writeOutBuffers.addIfRoom s.t.currentBuffer).2 then
        g.rotate s.t.currentBuffer s.t.current.data
      else g
    | _ => g
  | .work n =>
    match s.hands[n]? with
    | some (b, .flush _) => if s.t.kind = .callback then g.flush b (s.t.buffers b).data else g
    | some (b, .flushSync _) => if s.t.kind = .tty then g else g.flush b (s.t.buffers b).data
    | some (b, .clear) => g.clear b
    | some (b, .callback) => g.callback b (s.t.buffers b).data
    | _ => g
  | .writeDone n =>
    match s.t.inflight[n]? with
    | some (.buffer b _) => g.flush b (s.t.buffers b).data
    | _ => g
  | _ => g

structure Balanced (g : BankTrail) : Prop where
  uncleared : g.uncleared.Conserved (List.finRange NUM_BANKS)
  unflushed : g.unflushed.Conserved (List.finRange NUM_BANKS)
  issued : g.uncleared.issued = g.rotated.length ∧ g.unflushed.issued = g.rotated.length
  flushedOnce : g.flushed.map Prod.fst = g.unflushed.settled
  calledBackOnce : (g.calledBack.map Prod.fst).Sublist g.uncleared.settled
  flushed : ∀ k data, (k, data) ∈ g.flushed → g.rotated[k]? = some data
  calledBack : ∀ k data, (k, data) ∈ g.calledBack → g.rotated[k]? = some data

theorem start_balanced : ({} : BankTrail).Balanced where
  uncleared := Serials.conserved_start _
  unflushed := Serials.conserved_start _
  issued := ⟨rfl, rfl⟩
  flushedOnce := rfl
  calledBackOnce := List.Sublist.refl _
  flushed := fun k data mem => by cases mem
  calledBack := fun k data mem => by cases mem

variable {g : BankTrail} {b : BufId} {data : List Byte}

theorem Balanced.rotate (balanced : g.Balanced) (uncleared : g.uncleared.holds b = none)
    (unflushed : g.unflushed.holds b = none) (data : List Byte) : (g.rotate b data).Balanced where
  uncleared := Serials.issue_conserved balanced.uncleared (List.nodup_finRange _)
    (List.mem_finRange b) uncleared
  unflushed := Serials.issue_conserved balanced.unflushed (List.nodup_finRange _)
    (List.mem_finRange b) unflushed
  issued := by
    simp only [BankTrail.rotate, Serials.issue, List.length_append, List.length_singleton]
    exact ⟨congrArg (· + 1) balanced.issued.1, congrArg (· + 1) balanced.issued.2⟩
  flushedOnce := balanced.flushedOnce
  calledBackOnce := balanced.calledBackOnce
  flushed := fun k d mem => by
    have before := balanced.flushed k d mem
    exact (List.getElem?_append_left (List.getElem?_eq_some_iff.mp before).1).trans before
  calledBack := fun k d mem => by
    have before := balanced.calledBack k d mem
    exact (List.getElem?_append_left (List.getElem?_eq_some_iff.mp before).1).trans before

theorem Balanced.flush (balanced : g.Balanced)
    (bytes : ∀ k, g.unflushed.holds b = some k → g.rotated[k]? = some data) :
    (g.flush b data).Balanced where
  uncleared := balanced.uncleared
  unflushed := Serials.settle_conserved balanced.unflushed (List.nodup_finRange _) (List.mem_finRange b)
  issued := balanced.issued
  flushedOnce := by
    simp only [BankTrail.flush, Serials.settle, List.map_append, List.map_map, balanced.flushedOnce]
    cases g.unflushed.holds b <;> rfl
  calledBackOnce := balanced.calledBackOnce
  flushed := by
    intro k d mem
    rcases List.mem_append.mp mem with before | new
    · exact balanced.flushed k d before
    · obtain ⟨k', holds, eq⟩ := List.mem_map.mp new
      obtain ⟨rfl, rfl⟩ := Prod.mk.inj eq
      exact bytes k' (Option.mem_toList.mp holds)
  calledBack := balanced.calledBack

theorem Balanced.clear (balanced : g.Balanced) (b : BufId) : (g.clear b).Balanced where
  uncleared := Serials.settle_conserved balanced.uncleared (List.nodup_finRange _) (List.mem_finRange b)
  unflushed := balanced.unflushed
  issued := balanced.issued
  flushedOnce := balanced.flushedOnce
  calledBackOnce := balanced.calledBackOnce.trans (List.sublist_append_left _ _)
  flushed := balanced.flushed
  calledBack := balanced.calledBack

theorem Balanced.callback (balanced : g.Balanced)
    (bytes : ∀ k, g.uncleared.holds b = some k → g.rotated[k]? = some data) :
    (g.callback b data).Balanced where
  uncleared := (balanced.clear b).uncleared
  unflushed := balanced.unflushed
  issued := balanced.issued
  flushedOnce := balanced.flushedOnce
  calledBackOnce := by
    simp only [BankTrail.callback, BankTrail.clear, Serials.settle, List.map_append, List.map_map]
    have serials : (g.uncleared.holds b).toList.map (Prod.fst ∘ fun k => (k, data)) =
        (g.uncleared.holds b).toList := List.map_id _
    rw [serials]
    exact List.Sublist.append balanced.calledBackOnce (List.Sublist.refl _)
  flushed := balanced.flushed
  calledBack := by
    intro k d mem
    rcases List.mem_append.mp mem with before | new
    · exact balanced.calledBack k d before
    · obtain ⟨k', holds, eq⟩ := List.mem_map.mp new
      obtain ⟨rfl, rfl⟩ := Prod.mk.inj eq
      exact bytes k' (Option.mem_toList.mp holds)

end BankTrail

structure BankStream where
  s : BankThreads
  g : BankTrail := {}

namespace BankStream

def apply (x : BankStream) (a : ThreadAction) : BankStream := ⟨x.s.apply a, x.g.next x.s a⟩

def Step (x : BankStream) (a : ThreadAction) (x' : BankStream) : Prop :=
  x.s.Allowed a ∧ x' = x.apply a

end BankStream

def inStage (stage : Stage) (hands : List (BufId × Task)) : List BufId :=
  (hands.filter fun hand => hand.2.stage = stage).map Prod.fst

@[simp] theorem inStage_append (stage : Stage) (hands more : List (BufId × Task)) :
    inStage stage (hands ++ more) = inStage stage hands ++ inStage stage more := by
  simp [inStage]

theorem inStage_one (stage : Stage) (b : BufId) (task : Task) :
    inStage stage [(b, task)] = if task.stage = stage then [b] else [] := by
  by_cases same : task.stage = stage <;> simp [inStage, same]

theorem inStage_split {hands : List (BufId × Task)} {n : Nat} {b : BufId} {task : Task}
    (hand : hands[n]? = some (b, task)) (stage : Stage) (c : BufId) :
    (inStage stage hands).count c =
      (inStage stage (hands.eraseIdx n)).count c + (inStage stage [(b, task)]).count c := by
  have perm := ((Totals.perm_eraseIdx hand).filter fun hand => hand.2.stage = stage).map Prod.fst
  have count := perm.count_eq c
  have cons : inStage stage ((b, task) :: hands.eraseIdx n) =
      inStage stage [(b, task)] ++ inStage stage (hands.eraseIdx n) := inStage_append stage [(b, task)] _
  rw [← inStage, ← inStage, cons, List.count_append] at count
  omega

theorem inStage_set {hands : List (BufId × Task)} {n : Nat} {b : BufId} {task : Task}
    (hand : hands[n]? = some (b, task)) (task' : Task) (stage : Stage) (c : BufId) :
    (inStage stage (hands.set n (b, task'))).count c + (inStage stage [(b, task)]).count c =
      (inStage stage hands).count c + (inStage stage [(b, task')]).count c := by
  have bound := (List.getElem?_eq_some_iff.mp hand).1
  have before := inStage_split hand stage c
  have now : (hands.set n (b, task'))[n]? = some (b, task') := List.getElem?_set_self bound
  have after := inStage_split now stage c
  rw [List.eraseIdx_set_eq] at after
  omega

namespace BankThreads

def unflushed (s : BankThreads) : List BufId :=
  s.t.writeOutBuffers.items ++ s.t.inflight.filterMap WriteReq.buf? ++ inStage .unflushed s.hands

def returned (s : BankThreads) : List BufId := s.o.pending s.t.myId ++ inStage .flushed s.hands

variable {s : BankThreads}

theorem inStage_le (s : BankThreads) (stage : Stage) (c : BufId) :
    (inStage stage s.hands).count c ≤ s.handed.count c :=
  (List.filter_sublist.map Prod.fst).count_le c

theorem current_fresh (sound : s.Sound) (here : s.currentOnly = [s.t.currentBuffer]) :
    (s.unflushed ++ s.returned).count s.t.currentBuffer = 0 := by
  have once := sound.count s.t.currentBuffer
  have both : (inStage .unflushed s.hands).count s.t.currentBuffer = 0 ∧
      (inStage .flushed s.hands).count s.t.currentBuffer = 0 := by
    have hands : s.handed.count s.t.currentBuffer = 0 := by
      simp only [places, here, List.count_append, List.count_cons, List.count_nil, beq_self_eq_true,
        if_true] at once
      omega
    have first := inStage_le s .unflushed s.t.currentBuffer
    have second := inStage_le s .flushed s.t.currentBuffer
    omega
  simp only [places, here, List.count_append, List.count_cons, List.count_nil, beq_self_eq_true,
    if_true] at once
  simp only [unflushed, returned, List.count_append, both.1, both.2]
  omega

/-- Which buffers carry which of the rotated bytes. -/
structure Carried (s : BankThreads) (g : BankTrail) : Prop where
  unflushed : ∀ b, s.unflushed.count b = (g.unflushed.holds b).toList.length
  uncleared : ∀ b, s.unflushed.count b + s.returned.count b = (g.uncleared.holds b).toList.length
  within : ∀ b k, g.unflushed.holds b = some k → g.uncleared.holds b = some k
  bytes : ∀ b k, g.uncleared.holds b = some k → g.rotated[k]? = some (s.t.buffers b).data

variable {s s' : BankThreads} {g : BankTrail} {b : BufId}

theorem Carried.moved (carried : s.Carried g)
    (unflushed : ∀ c, s'.unflushed.count c = s.unflushed.count c)
    (returned : ∀ c, s'.returned.count c = s.returned.count c)
    (data : ∀ c, 0 < s.unflushed.count c + s.returned.count c →
      (s'.t.buffers c).data = (s.t.buffers c).data) : s'.Carried g where
  unflushed := fun c => (unflushed c).trans (carried.unflushed c)
  uncleared := fun c => by rw [unflushed, returned]; exact carried.uncleared c
  within := carried.within
  bytes := by
    intro c k holds
    have out : 0 < s.unflushed.count c + s.returned.count c := by
      rw [carried.uncleared c, holds]
      exact Nat.one_pos
    rw [data c out]
    exact carried.bytes c k holds

theorem Carried.rotated (carried : s.Carried g) (balanced : g.Balanced)
    (free : (s.unflushed ++ s.returned).count b = 0)
    (unflushed : ∀ c, s'.unflushed.count c = s.unflushed.count c + [b].count c)
    (returned : ∀ c, s'.returned.count c = s.returned.count c)
    (data : s'.t.buffers = s.t.buffers) : s'.Carried (g.rotate b (s.t.buffers b).data) := by
  rw [List.count_append] at free
  constructor
  · intro c
    rw [unflushed c, carried.unflushed c]
    by_cases same : c = b
    · subst same
      have none : (g.unflushed.holds c).toList.length = 0 := by
        rw [← carried.unflushed c]
        omega
      simp [BankTrail.rotate, Serials.issue, none]
    · simp [BankTrail.rotate, Serials.issue, same, Ne.symm same]
  · intro c
    rw [unflushed c, returned c]
    have before := carried.uncleared c
    by_cases same : c = b
    · subst same
      simp only [List.count_cons_self, List.count_nil, BankTrail.rotate, Serials.issue,
        Function.update_self, Option.toList_some, List.length_singleton]
      omega
    · simp only [List.count_cons_of_ne (Ne.symm same), List.count_nil, BankTrail.rotate,
        Serials.issue, Function.update_of_ne same]
      omega
  · intro c k holds
    by_cases same : c = b
    · subst same
      simp only [BankTrail.rotate, Serials.issue, Function.update_self, Option.some.injEq] at holds ⊢
      rw [← holds, balanced.issued.1, balanced.issued.2]
    · simp only [BankTrail.rotate, Serials.issue, Function.update_of_ne same] at holds ⊢
      exact carried.within c k holds
  · intro c k holds
    rw [data]
    by_cases same : c = b
    · subst same
      simp only [BankTrail.rotate, Serials.issue, Function.update_self, Option.some.injEq] at holds ⊢
      rw [← holds, balanced.issued.1, List.getElem?_concat_length]
    · simp only [BankTrail.rotate, Serials.issue, Function.update_of_ne same] at holds ⊢
      have before := carried.bytes c k holds
      rw [List.getElem?_append_left (List.getElem?_eq_some_iff.mp before).1]
      exact before

theorem Carried.flushed (carried : s.Carried g)
    (unflushed : ∀ c, s.unflushed.count c = s'.unflushed.count c + [b].count c)
    (returned : ∀ c, s'.returned.count c = s.returned.count c + [b].count c)
    (data : s'.t.buffers = s.t.buffers) : s'.Carried (g.flush b (s.t.buffers b).data) := by
  constructor
  · intro c
    have before := carried.unflushed c
    have change := unflushed c
    by_cases same : c = b
    · subst same
      simp only [List.count_cons_self, List.count_nil] at change
      have one : (g.unflushed.holds c).toList.length ≤ 1 := by cases g.unflushed.holds c <;> simp
      simp only [BankTrail.flush, Serials.settle, Function.update_self, Option.toList_none,
        List.length_nil]
      omega
    · simp only [List.count_cons_of_ne (Ne.symm same), List.count_nil] at change
      simp only [BankTrail.flush, Serials.settle, Function.update_of_ne same]
      omega
  · intro c
    have before := carried.uncleared c
    have change := unflushed c
    have change' := returned c
    simp only [BankTrail.flush]
    omega
  · intro c k holds
    by_cases same : c = b
    · subst same
      simp [BankTrail.flush, Serials.settle] at holds
    · simp only [BankTrail.flush, Serials.settle, Function.update_of_ne same] at holds ⊢
      exact carried.within c k holds
  · rw [data]
    exact carried.bytes

theorem Carried.cleared (carried : s.Carried g)
    (unflushed : ∀ c, s'.unflushed.count c = s.unflushed.count c)
    (returned : ∀ c, s.returned.count c = s'.returned.count c + [b].count c)
    (data : ∀ c, c ≠ b → (s'.t.buffers c).data = (s.t.buffers c).data) :
    s'.Carried (g.clear b) := by
  have one : (g.uncleared.holds b).toList.length ≤ 1 := by cases g.uncleared.holds b <;> simp
  have here := carried.uncleared b
  have change := returned b
  rw [List.count_singleton_self] at change
  constructor
  · intro c
    exact (unflushed c).trans (carried.unflushed c)
  · intro c
    rw [unflushed c]
    by_cases same : c = b
    · subst same
      simp only [BankTrail.clear, Serials.settle, Function.update_self, Option.toList_none,
        List.length_nil]
      omega
    · have before := carried.uncleared c
      have other := returned c
      simp only [List.count_cons_of_ne (Ne.symm same), List.count_nil] at other
      simp only [BankTrail.clear, Serials.settle, Function.update_of_ne same]
      omega
  · intro c k holds
    by_cases same : c = b
    · subst same
      have none : s.unflushed.count c = 0 := by omega
      rw [carried.unflushed c, show g.unflushed.holds c = some k from holds] at none
      cases none
    · simp only [BankTrail.clear, Serials.settle, Function.update_of_ne same]
      exact carried.within c k holds
  · intro c k holds
    by_cases same : c = b
    · subst same
      simp [BankTrail.clear, Serials.settle] at holds
    · simp only [BankTrail.clear, Serials.settle, Function.update_of_ne same] at holds
      rw [data c same]
      exact carried.bytes c k holds

theorem Carried.none_of_free (carried : s.Carried g) (free : (s.unflushed ++ s.returned).count b = 0) :
    g.uncleared.holds b = none ∧ g.unflushed.holds b = none := by
  rw [List.count_append] at free
  have out := carried.uncleared b
  have waits := carried.unflushed b
  constructor
  · cases holds : g.uncleared.holds b with
    | none => rfl
    | some k =>
      rw [holds] at out
      simp only [Option.toList_some, List.length_singleton] at out
      omega
  · cases holds : g.unflushed.holds b with
    | none => rfl
    | some k =>
      rw [holds] at waits
      simp only [Option.toList_some, List.length_singleton] at waits
      omega

theorem Carried.current_changes (carried : s.Carried g) (sound : s.Sound)
    (here : s.currentOnly = [s.t.currentBuffer])
    (unflushed : s'.unflushed = s.unflushed) (returned : s'.returned = s.returned)
    (others : ∀ c, c ≠ s.t.currentBuffer → s'.t.buffers c = s.t.buffers c) : s'.Carried g := by
  refine carried.moved (fun c => by rw [unflushed]) (fun c => by rw [returned]) fun c out => ?_
  have fresh := current_fresh sound here
  rw [List.count_append] at fresh
  rw [others c]
  rintro rfl
  omega

theorem rotateOn_carried (sound : s.Sound) (carried : s.Carried g) (balanced : g.Balanced) :
    s.rotateOn.Carried (g.next s .rotateOn) ∧ (g.next s .rotateOn).Balanced := by
  cases rotating : s.rotating with
  | idle => simpa only [rotateOn, BankTrail.next, rotating] using ⟨carried, balanced⟩
  | checked =>
    simp only [rotateOn, BankTrail.next, rotating]
    refine ⟨?_, balanced⟩
    split
    · exact carried.moved (fun _ => rfl) (fun _ => rfl) fun _ _ => rfl
    · exact carried.moved (fun _ => rfl) (fun _ => rfl) fun _ _ => rfl
  | took next =>
    have free := current_fresh sound (by simp only [currentOnly, rotating])
    have none := carried.none_of_free free
    obtain ⟨added, items⟩ := BoundedQueue.addIfRoom_room s.t.currentBuffer (sound.writeOut_room rotating)
    simp only [rotateOn, BankTrail.next, rotating, added, ↓reduceIte]
    refine ⟨carried.rotated balanced free (fun c => ?_) (fun _ => rfl) rfl,
      balanced.rotate none.1 none.2 _⟩
    simp only [unflushed, items, List.count_append]
    omega
  | swap next =>
    simp only [rotateOn, BankTrail.next, rotating]
    exact ⟨carried.moved (fun _ => rfl) (fun _ => rfl) fun _ _ => rfl, balanced⟩
  | giveBack next => exact absurd rotating (sound.noGiveBack next)
  | clear =>
    simp only [rotateOn, BankTrail.next, rotating]
    refine ⟨carried.current_changes sound (by simp only [currentOnly, rotating]) rfl rfl ?_, balanced⟩
    intro c other
    exact LogTarget.setBuffer_other _ other

theorem setHand_counts {n : Nat} {task : Task} (hand : s.hands[n]? = some (b, task)) (task' : Task)
    (c : BufId) :
    (s.setHand n b task').unflushed.count c + (inStage .unflushed [(b, task)]).count c =
        s.unflushed.count c + (inStage .unflushed [(b, task')]).count c ∧
      (s.setHand n b task').returned.count c + (inStage .flushed [(b, task)]).count c =
        s.returned.count c + (inStage .flushed [(b, task')]).count c := by
  have first := inStage_set hand task' .unflushed c
  have second := inStage_set hand task' .flushed c
  simp only [unflushed, returned, BankThreads.setHand, List.count_append] at first second ⊢
  omega

theorem dropHand_counts {n : Nat} {task : Task} (hand : s.hands[n]? = some (b, task)) (c : BufId) :
    s.unflushed.count c =
        (s.dropHand n).unflushed.count c + (inStage .unflushed [(b, task)]).count c ∧
      s.returned.count c =
        (s.dropHand n).returned.count c + (inStage .flushed [(b, task)]).count c := by
  have first := inStage_split hand .unflushed c
  have second := inStage_split hand .flushed c
  simp only [unflushed, returned, dropHand, List.count_append] at first second ⊢
  omega

theorem Carried.flush_bytes (carried : s.Carried g) (b : BufId) (k : Nat)
    (holds : g.unflushed.holds b = some k) : g.rotated[k]? = some (s.t.buffers b).data :=
  carried.bytes b k (carried.within b k holds)

theorem Carried.goes_on {n : Nat} {task task' : Task} (carried : s.Carried g)
    (hand : s.hands[n]? = some (b, task)) (same : task.stage = task'.stage) :
    (s.setHand n b task').Carried g := by
  refine carried.moved (fun c => ?_) (fun c => ?_) fun _ _ => rfl
  · have counts := (setHand_counts hand task' c).1
    simp only [inStage_one, same] at counts
    omega
  · have counts := (setHand_counts hand task' c).2
    simp only [inStage_one, same] at counts
    omega

theorem Carried.flushes {n : Nat} {task task' : Task} (carried : s.Carried g)
    (hand : s.hands[n]? = some (b, task)) (before : task.stage = .unflushed)
    (after : task'.stage = .flushed) :
    (s.setHand n b task').Carried (g.flush b (s.t.buffers b).data) := by
  refine carried.flushed (fun c => ?_) (fun c => ?_) rfl
  · have counts := (setHand_counts hand task' c).1
    simp only [inStage_one, before, after, reduceCtorEq, ↓reduceIte, List.count_nil] at counts
    omega
  · have counts := (setHand_counts hand task' c).2
    simp only [inStage_one, before, after, reduceCtorEq, ↓reduceIte, List.count_nil] at counts
    omega

theorem Carried.clears {n : Nat} {task task' : Task} (carried : s.Carried g)
    (hand : s.hands[n]? = some (b, task)) (before : task.stage = .flushed)
    (after : task'.stage = .cleared) :
    ({ s.setHand n b task' with t := s.t.clearBuffer b } : BankThreads).Carried (g.clear b) := by
  refine carried.cleared (fun c => ?_) (fun c => ?_) fun c other => ?_
  · have counts := (setHand_counts hand task' c).1
    simp only [inStage_one, before, after, reduceCtorEq, ↓reduceIte, List.count_nil] at counts
    exact counts
  · have counts := (setHand_counts hand task' c).2
    simp only [inStage_one, before, after, reduceCtorEq, ↓reduceIte, List.count_nil] at counts
    exact counts.symm
  · exact congrArg LogBuf.data (LogTarget.setBuffer_other _ other)

theorem Carried.drops {n : Nat} {task : Task} (carried : s.Carried g)
    (hand : s.hands[n]? = some (b, task)) (cleared : task.stage = .cleared) :
    (s.dropHand n).Carried g := by
  refine carried.moved (fun c => ?_) (fun c => ?_) fun _ _ => rfl
  · have counts := (dropHand_counts hand c).1
    simp only [inStage_one, cleared, reduceCtorEq, ↓reduceIte, List.count_nil] at counts
    exact counts.symm
  · have counts := (dropHand_counts hand c).2
    simp only [inStage_one, cleared, reduceCtorEq, ↓reduceIte, List.count_nil] at counts
    exact counts.symm

theorem workOn_carried {n : Nat} {task : Task} (carried : s.Carried g) (balanced : g.Balanced)
    (hand : s.hands[n]? = some (b, task)) :
    (s.workOn n b task).Carried (g.next s (.work n)) ∧ (g.next s (.work n)).Balanced := by
  cases task with
  | flush nocallbacks =>
    have submits : ({ s.dropHand n with
        t := { s.t with inflight := s.t.inflight ++ [.buffer b nocallbacks] } } :
          BankThreads).Carried g := by
      refine carried.moved (fun c => ?_) (fun c => ?_) fun _ _ => rfl
      · have counts := (dropHand_counts hand c).1
        simp only [unflushed, dropHand, inStage_one, Task.stage, ↓reduceIte, List.filterMap_append,
          List.filterMap_cons, List.filterMap_nil, WriteReq.buf?, List.count_append] at counts ⊢
        omega
      · have counts := (dropHand_counts hand c).2
        simp only [inStage_one, Task.stage, reduceCtorEq, ↓reduceIte, List.count_nil] at counts
        exact counts.symm
    cases kind : s.t.kind with
    | callback =>
      simp only [workOn, BankTrail.next, hand, kind, ↓reduceIte]
      exact ⟨carried.flushes hand rfl rfl, balanced.flush (carried.flush_bytes b)⟩
    | tty =>
      simpa only [workOn, BankTrail.next, hand, kind, reduceCtorEq, ↓reduceIte] using
        And.intro submits balanced
    | file =>
      simpa only [workOn, BankTrail.next, hand, kind, reduceCtorEq, ↓reduceIte] using
        And.intro submits balanced
  | flushSync nocallbacks =>
    have flushed := balanced.flush (carried.flush_bytes b)
    cases kind : s.t.kind with
    | tty =>
      simp only [workOn, BankTrail.next, hand, kind, ↓reduceIte]
      exact ⟨carried.goes_on hand rfl, balanced⟩
    | file =>
      simp only [workOn, BankTrail.next, hand, kind, reduceCtorEq, ↓reduceIte]
      exact ⟨carried.flushes hand rfl rfl, flushed⟩
    | callback =>
      simp only [workOn, BankTrail.next, hand, kind, reduceCtorEq, ↓reduceIte]
      exact ⟨carried.flushes hand rfl rfl, flushed⟩
  | returnBuffer sync nocallback =>
    simp only [workOn, BankTrail.next, hand]
    refine ⟨?_, balanced⟩
    have goes : ∀ task' : Task, task'.stage = .flushed → (s.setHand n b task').Carried g :=
      fun task' flushed => carried.goes_on hand flushed.symm
    refine (goes _ ?_).moved (fun _ => rfl) (fun c => ?_) fun _ _ => rfl
    · split
      · split <;> rfl
      · rfl
    · simp only [returned]
      split <;> rfl
  | queue =>
    simp only [workOn, BankTrail.next, hand]
    refine ⟨?_, balanced⟩
    rcases BoundedQueue.addIfRoom_cases s.o.v8LogCallbacks (.buffer s.t.myId b) with
      ⟨_, added, items⟩ | ⟨_, full⟩
    · rw [if_pos (by exact added)]
      refine carried.moved (fun c => ?_) (fun c => ?_) fun _ _ => rfl
      · have counts := (dropHand_counts hand c).1
        simp only [inStage_one, Task.stage, reduceCtorEq, ↓reduceIte, List.count_nil] at counts
        exact counts.symm
      · have counts := (dropHand_counts hand c).2
        have pended : ((s.o.addCallback (.buffer s.t.myId b)).1.refFromV8).pending s.t.myId =
            s.o.pending s.t.myId ++ [b] := by
          simp only [Owner.pending, Owner.addCallback, Owner.refFromV8, items, List.filterMap_append]
          simp [WriteCBData.bufOf]
        simp only [returned, dropHand, pended, inStage_one, Task.stage, ↓reduceIte,
          List.count_append] at counts ⊢
        omega
    · have refused : (s.o.addCallback (.buffer s.t.myId b)).2 = false := by
        simp [Owner.addCallback, full]
      rw [if_neg (by simp [refused])]
      exact carried.goes_on hand rfl
  | clear =>
    simp only [workOn, BankTrail.next, hand]
    exact ⟨carried.clears hand rfl rfl, balanced.clear b⟩
  | add =>
    simp only [workOn, BankTrail.next, hand]
    refine ⟨?_, balanced⟩
    split
    · exact (carried.drops hand rfl).moved (fun _ => rfl) (fun _ => rfl) fun _ _ => rfl
    · exact carried
  | callback =>
    simp only [workOn, BankTrail.next, hand]
    refine ⟨?_, balanced.callback (carried.bytes b)⟩
    have done : Task.finalize.stage = .cleared := rfl
    have cleared := carried.clears hand rfl done
    exact ⟨cleared.unflushed, cleared.uncleared, cleared.within, cleared.bytes⟩
  | finalize =>
    simp only [workOn, BankTrail.next, hand]
    exact ⟨(carried.drops hand rfl).moved (fun _ => rfl) (fun _ => rfl) fun _ _ => rfl, balanced⟩
  | stuck =>
    simp only [workOn, BankTrail.next, hand]
    exact ⟨carried, balanced⟩

theorem writeDone_carried (carried : s.Carried g) (balanced : g.Balanced) (n : Nat) :
    (s.writeDone n).Carried (g.next s (.writeDone n)) ∧ (g.next s (.writeDone n)).Balanced := by
  simp only [writeDone, BankTrail.next]
  cases found : s.t.inflight[n]? with
  | none => exact ⟨carried, balanced⟩
  | some w =>
    have fewer : ∀ c, (s.t.inflight.filterMap WriteReq.buf?).count c =
        ((s.t.inflight.eraseIdx n).filterMap WriteReq.buf?).count c + w.buf?.toList.count c := by
      intro c
      rw [inflight_count (Totals.perm_eraseIdx found), Nat.add_comm]
    cases w with
    | buffer b nocallback =>
      refine ⟨carried.flushed (fun c => ?_) (fun c => ?_) rfl, balanced.flush (carried.flush_bytes b)⟩
      · have count := fewer c
        simp only [WriteReq.buf?, Option.toList_some] at count
        simp only [unflushed, inStage_append, inStage_one, Task.stage, reduceCtorEq, ↓reduceIte,
          List.count_append, List.count_nil]
        omega
      · simp only [returned, inStage_append, inStage_one, Task.stage, ↓reduceIte, List.count_append]
        omega
    | overflow entry nocallback =>
      have owner := LogTarget.returnOverflow_pending s.t s.o entry nocallback s.t.myId
      refine ⟨carried.moved (fun c => ?_) (fun c => ?_) fun _ _ => rfl, balanced⟩
      · have count := fewer c
        simp only [WriteReq.buf?, Option.toList_none, List.count_nil] at count
        simp only [unflushed, List.count_append]
        omega
      · simp only [returned, owner]

theorem deliver_cases (sound : s.Sound) (free : s.settingCallback = false) :
    s.deliver = s ∨
    (∃ o', o'.pending s.t.myId = s.o.pending s.t.myId ∧ s.deliver = { s with o := o' }) ∨
    ∃ b o', s.o.pending s.t.myId = b :: o'.pending s.t.myId ∧
      s.deliver = { s with o := o', hands := s.hands ++ [(b, .callback)] } := by
  unfold deliver
  cases removed : s.o.v8LogCallbacks.remove with
  | none => exact Or.inl rfl
  | some taken =>
    obtain ⟨d, rest⟩ := taken
    have before := Owner.pending_next
      { s.o with v8LogCallbacks := rest, needV8 := s.o.needV8 - 1 } s.t.myId
      (BoundedQueue.remove_some removed)
    cases ours : d.bufOf s.t.myId with
    | none =>
      rw [ours, Option.toList_none, List.nil_append] at before
      exact Or.inr (Or.inl ⟨_, before.symm, by simp [ours]⟩)
    | some b =>
      rw [ours, Option.toList_some, List.singleton_append] at before
      have set : s.logCallback = true := by
        rcases sound.pointed (sound.pending (by simp [before])) with pointer | setting
        · exact pointer
        · rw [free] at setting
          cases setting
      exact Or.inr (Or.inr ⟨b, _, before, by simp [ours, set]⟩)

theorem apply_carried {a : ThreadAction} (sound : s.Sound) (allowed : s.Allowed a)
    (carried : s.Carried g) (balanced : g.Balanced) :
    (s.apply a).Carried (g.next s a) ∧ (g.next s a).Balanced := by
  have quiet : ∀ {s' : BankThreads}, s'.unflushed = s.unflushed → s'.returned = s.returned →
      s'.t.buffers = s.t.buffers → s'.Carried g := fun unflushed returned data =>
    carried.moved (fun _ => by rw [unflushed]) (fun _ => by rw [returned]) fun _ _ => by rw [data]
  cases a with
  | beginRotate =>
    refine ⟨?_, balanced⟩
    simp only [apply]
    split
    · exact quiet rfl rfl rfl
    · exact carried
  | rotateOn => exact rotateOn_carried sound carried balanced
  | copyIn header text footer =>
    have idle : s.rotating = .idle := allowed
    refine ⟨carried.current_changes sound (by simp only [currentOnly, idle]) rfl rfl ?_, balanced⟩
    intro c other
    exact LogTarget.setBuffer_other _ other
  | takeOut sync nocallbacks =>
    refine ⟨?_, balanced⟩
    simp only [apply]
    cases removed : s.t.writeOutBuffers.remove with
    | none => exact carried
    | some taken =>
      obtain ⟨b, rest⟩ := taken
      have items := BoundedQueue.remove_some removed
      have stage : ∀ sync : Bool,
          (if sync then Task.flushSync nocallbacks else .flush nocallbacks).stage = .unflushed := by
        intro sync
        cases sync <;> rfl
      refine carried.moved (fun c => ?_) (fun c => ?_) fun _ _ => rfl
      · simp only [unflushed, items, inStage_append, inStage_one, stage, ↓reduceIte,
          List.count_append, List.count_cons, List.count_nil]
        omega
      · simp only [returned, inStage_append, inStage_one, stage, reduceCtorEq, ↓reduceIte,
          List.count_append, List.count_nil, Nat.add_zero]
  | work n =>
    simp only [apply]
    cases hand : s.hands[n]? with
    | none => simpa only [BankTrail.next, hand] using ⟨carried, balanced⟩
    | some held => exact workOn_carried carried balanced hand
  | writeDone n => exact writeDone_carried carried balanced n
  | deliver =>
    refine ⟨?_, balanced⟩
    rcases deliver_cases sound allowed with same | ⟨o', pending, same⟩ | ⟨b, o', pending, same⟩
    · rw [apply, same]
      exact carried
    · rw [apply, same]
      exact quiet rfl (by simp only [returned, pending]) rfl
    · rw [apply, same]
      refine carried.moved (fun c => ?_) (fun c => ?_) fun _ _ => rfl
      · simp only [unflushed, inStage_append, inStage_one, Task.stage, reduceCtorEq, ↓reduceIte,
          List.append_nil]
      · simp only [returned, pending, inStage_append, inStage_one, Task.stage, ↓reduceIte,
          List.count_append, List.count_cons, List.count_nil]
        omega
  | setCallbackFlag => exact ⟨quiet rfl rfl rfl, balanced⟩
  | setCallbackPointer => exact ⟨quiet rfl rfl rfl, balanced⟩
  | others o =>
    have same : o.pending s.t.myId = s.o.pending s.t.myId := allowed
    exact ⟨quiet rfl (by simp only [returned, apply, same]) rfl, balanced⟩

theorem start_carried (start : s.Start) : s.Carried {} := by
  obtain ⟨⟨kind, bufferSize, id, delim, formats, new⟩, none, _, hands, _⟩ := start
  have unflushed : s.unflushed = [] := by
    rw [BankThreads.unflushed, hands, new]
    rfl
  have returned : s.returned = [] := by
    rw [BankThreads.returned, hands, none]
    rfl
  constructor
  · intro b
    rw [unflushed]
    rfl
  · intro b
    rw [unflushed, returned]
    rfl
  · intro b k holds
    cases holds
  · intro b k holds
    cases holds

end BankThreads

namespace BankStream

def stream (start : BankThreads) (actions : List ThreadAction) : BankStream :=
  actions.foldl apply ⟨start, {}⟩

structure Kept (x : BankStream) : Prop where
  sound : x.s.Sound
  carried : x.s.Carried x.g
  balanced : x.g.Balanced

theorem start_kept {start : BankThreads} (fresh : start.Start) : (⟨start, {}⟩ : BankStream).Kept :=
  ⟨BankThreads.start_sound fresh, BankThreads.start_carried fresh, BankTrail.start_balanced⟩

theorem apply_kept {x : BankStream} {a : ThreadAction} (kept : x.Kept) (allowed : x.s.Allowed a) :
    (x.apply a).Kept := by
  obtain ⟨carried, balanced⟩ :=
    BankThreads.apply_carried kept.sound allowed kept.carried kept.balanced
  exact ⟨BankThreads.apply_sound kept.sound allowed, carried, balanced⟩

theorem run_stream {start s : BankThreads} {actions : List ThreadAction}
    (run : Runs.Run BankThreads.Step start actions s) :
    (stream start actions).s = s ∧ Runs.Run Step ⟨start, {}⟩ actions (stream start actions) := by
  refine Runs.run_history (fun actions s => (stream start actions).s = s ∧
    Runs.Run Step ⟨start, {}⟩ actions (stream start actions)) ⟨rfl, .start⟩ ?_ run
  rintro actions s a _ ⟨same, before⟩ ⟨allowed, rfl⟩
  have next : stream start (actions ++ [a]) = (stream start actions).apply a := by
    simp only [stream, List.foldl_append, List.foldl_cons, List.foldl_nil]
  rw [next]
  subst same
  exact ⟨rfl, before.next ⟨allowed, rfl⟩⟩

theorem run_kept {start s : BankThreads} {actions : List ThreadAction} (fresh : start.Start)
    (run : Runs.Run BankThreads.Step start actions s) : (stream start actions).Kept := by
  refine Runs.run_invariant Kept (start_kept fresh) ?_ (run_stream run).2
  rintro x a _ kept ⟨allowed, rfl⟩
  exact apply_kept kept allowed

theorem Kept.cleared_flushed {x : BankStream} (kept : x.Kept) {k : Nat}
    (cleared : k ∈ x.g.uncleared.settled) : k ∈ x.g.unflushed.settled := by
  have issued : k < x.g.unflushed.issued := by
    rw [kept.balanced.issued.2, ← kept.balanced.issued.1]
    exact kept.balanced.uncleared.settled_lt cleared
  rcases kept.balanced.unflushed.accounted issued with flushed | ⟨b, member, waits⟩
  · exact flushed
  · exact absurd cleared
      (kept.balanced.uncleared.held_open member (kept.carried.within b k waits))

/-- In every interleaving of the two threads, the bytes of each buffer that
    rotate() hands over are flushed at most once and called back at most once, both
    times just as they were; they are cleared once, after they have been flushed, and
    a buffer that has them on the way still has them as they were. -/
theorem bytes_kept {start s : BankThreads} {actions : List ThreadAction} (fresh : start.Start)
    (run : Runs.Run BankThreads.Step start actions s) :
    let g := (stream start actions).g
    (g.flushed.map Prod.fst ++ g.unflushed.held (List.finRange NUM_BANKS)).Perm
        (List.range g.rotated.length) ∧
      (g.uncleared.settled ++ g.uncleared.held (List.finRange NUM_BANKS)).Perm
        (List.range g.rotated.length) ∧
      (g.calledBack.map Prod.fst).Sublist g.uncleared.settled ∧
      (∀ k ∈ g.uncleared.settled, k ∈ g.flushed.map Prod.fst) ∧
      (∀ k data, (k, data) ∈ g.flushed ∨ (k, data) ∈ g.calledBack → g.rotated[k]? = some data) ∧
      ∀ b, b ∈ s.unflushed ∨ b ∈ s.returned →
        ∃ k, g.uncleared.holds b = some k ∧ g.rotated[k]? = some (s.t.buffers b).data := by
  intro g
  have kept := run_kept fresh run
  obtain ⟨same, _⟩ := run_stream run
  have unflushed := kept.balanced.unflushed
  have uncleared := kept.balanced.uncleared
  rw [Serials.Conserved, kept.balanced.issued.2, ← kept.balanced.flushedOnce] at unflushed
  rw [Serials.Conserved, kept.balanced.issued.1] at uncleared
  refine ⟨unflushed, uncleared, kept.balanced.calledBackOnce, ?_, ?_, ?_⟩
  · intro k cleared
    rw [kept.balanced.flushedOnce]
    exact kept.cleared_flushed cleared
  · rintro k data (flushed | calledBack)
    · exact kept.balanced.flushed k data flushed
    · exact kept.balanced.calledBack k data calledBack
  · intro b away
    rw [← same] at away ⊢
    have counted := kept.carried.uncleared b
    have some : 0 < (stream start actions).s.unflushed.count b +
        (stream start actions).s.returned.count b := by
      rcases away with waits | back
      · exact Nat.add_pos_left (List.count_pos_iff.mpr waits) _
      · exact Nat.add_pos_right _ (List.count_pos_iff.mpr back)
    cases holds : (stream start actions).g.uncleared.holds b with
    | none =>
      rw [holds] at counted
      exact absurd counted (Nat.ne_of_gt some)
    | some k => exact ⟨k, rfl, kept.carried.bytes b k holds⟩

def fileStart : BankThreads := { t := LogTarget.new .file 4096 1 [10], o := {} }

theorem fileStart_fresh : fileStart.Start := ⟨⟨.file, 4096, 1, [10], {}, rfl⟩, rfl, rfl, rfl, rfl⟩

def lineActions : List ThreadAction :=
  [.setCallbackFlag, .setCallbackPointer, .copyIn [] [97] [], .beginRotate, .rotateOn, .rotateOn,
    .takeOut false false, .rotateOn, .work 0, .copyIn [] [98] [], .writeDone 0, .work 0, .work 0,
    .deliver, .work 0]

theorem line_run :
    Runs.Run BankThreads.Step fileStart lineActions (lineActions.foldl BankThreads.apply fileStart) :=
  Runs.run_checked (fun _ _ allowed => ⟨allowed, rfl⟩) (by decide +kernel)

theorem bytes_kept_line :
    let g := (stream fileStart lineActions).g
    g.calledBack = [(0, [97, 10])] ∧ g.rotated[0]? = some [97, 10] ∧ 0 ∈ g.flushed.map Prod.fst := by
  intro g
  have called : g.calledBack = [(0, [97, 10])] := by decide +kernel
  have cleared : g.uncleared.settled = [0] := by decide +kernel
  obtain ⟨_, _, _, flushed, bytes, _⟩ := bytes_kept fileStart_fresh line_run
  exact ⟨called, bytes 0 [97, 10] (Or.inr (by simp [g, called])), flushed 0 (by simp [g, cleared])⟩

/-- flushSync of a tty hangs with the line that it took. -/
example :
    let ttyStart : BankThreads := { t := LogTarget.new .tty 4096 1 [10], o := {} }
    let x := stream ttyStart [.copyIn [] [97] [], .beginRotate, .rotateOn, .rotateOn, .rotateOn,
      .takeOut true false, .work 0, .work 0, .work 0]
    x.s.hands = [(0, .stuck)] ∧ (x.s.t.buffers 0).data = [97, 10] ∧ x.g.flushed = [] ∧
      x.g.uncleared.settled = [] := by
  decide +kernel

end BankStream

end GreaseLog
