import GreaseLog.BankStreams

/- Which rotated buffers reach the callback: a buffer is given up without one where
   returnBuffer sees no callback to make or v8LogCallbacks has no room for it, and
   nowhere else. -/
namespace GreaseLog
namespace BankThreads

def TaskDelivers (s : BankThreads) : Task → Prop
  | .returnBuffer _ nocallback => nocallback = false ∧ s.t.logCallbackSet = true
  | .queue => s.o.v8LogCallbacks.HasRoom
  | _ => True

instance (s : BankThreads) : ∀ task, Decidable (s.TaskDelivers task)
  | .returnBuffer _ nocallback =>
    inferInstanceAs (Decidable (nocallback = false ∧ s.t.logCallbackSet = true))
  | .queue => inferInstanceAs (Decidable s.o.v8LogCallbacks.HasRoom)
  | .flush _ | .flushSync _ | .clear | .add | .callback | .finalize | .stuck =>
    inferInstanceAs (Decidable True)

def Delivers (s : BankThreads) : ThreadAction → Prop
  | .work n => ∀ hand ∈ s.hands[n]?, s.TaskDelivers hand.2
  | _ => True

instance (s : BankThreads) : ∀ a, Decidable (s.Delivers a)
  | .work n => inferInstanceAs (Decidable (∀ hand ∈ s.hands[n]?, s.TaskDelivers hand.2))
  | .beginRotate | .rotateOn | .copyIn _ _ _ | .takeOut _ _ | .writeDone _ | .deliver
  | .setCallbackFlag | .setCallbackPointer | .others _ => inferInstanceAs (Decidable True)

def clearTask (hand : BufId × Task) : Nat := if hand.2 = .clear then 1 else 0

def clearing (s : BankThreads) : Nat := (s.hands.map clearTask).sum

/-- Only buffers with data are rotated. -/
structure Filled (s : BankThreads) (g : BankTrail) : Prop where
  rotated : ∀ data ∈ g.rotated, data ≠ []
  turning : s.rotating = .checked ∨ (∃ next, s.rotating = .took next) → s.t.current.data ≠ []

variable {s s' : BankThreads} {g : BankTrail} {b : BufId}

theorem rotating_only (turning : s.rotating = .checked ∨ ∃ next, s.rotating = .took next) :
    s.currentOnly = [s.t.currentBuffer] := by
  rcases turning with checked | ⟨next, took⟩
  · simp only [currentOnly, checked]
  · simp only [currentOnly, took]

theorem hand_not_current {task : Task} (sound : s.Sound) (here : s.currentOnly = [s.t.currentBuffer])
    (hand : (b, task) ∈ s.hands) : s.t.currentBuffer ≠ b := by
  rintro rfl
  have once := sound.count s.t.currentBuffer
  have handed : 0 < s.handed.count s.t.currentBuffer :=
    List.count_pos_iff.mpr (List.mem_map.mpr ⟨_, hand, rfl⟩)
  simp only [places, here, List.count_append, List.count_cons, List.count_nil, beq_self_eq_true,
    if_true] at once
  omega

theorem next_rotated (g : BankTrail) (s : BankThreads) (a : ThreadAction) :
    (g.next s a).rotated = g.rotated ∨
      (∃ next, s.rotating = .took next) ∧ (g.next s a).rotated = g.rotated ++ [s.t.current.data] := by
  unfold BankTrail.next
  split
  · split
    · next next took =>
      split
      · exact Or.inr ⟨⟨next, took⟩, rfl⟩
      · exact Or.inl rfl
    · exact Or.inl rfl
  · split
    · split <;> exact Or.inl rfl
    · split <;> exact Or.inl rfl
    · exact Or.inl rfl
    · exact Or.inl rfl
    · exact Or.inl rfl
  · split <;> exact Or.inl rfl
  · exact Or.inl rfl

theorem workOn_rotating (s : BankThreads) (n : Nat) (b : BufId) (task : Task) :
    (s.workOn n b task).rotating = s.rotating := by
  cases task with
  | flush nocallbacks => simp only [workOn]; split <;> rfl
  | flushSync nocallbacks => simp only [workOn]; split <;> rfl
  | queue => simp only [workOn]; split <;> rfl
  | add => simp only [workOn]; split <;> rfl
  | returnBuffer sync nocallback => rfl
  | clear => rfl
  | callback => rfl
  | finalize => rfl
  | stuck => rfl

theorem workOn_current {n : Nat} {task : Task} (other : s.t.currentBuffer ≠ b) :
    (s.workOn n b task).t.current.data = s.t.current.data := by
  have cleared : (s.t.clearBuffer b).current.data = s.t.current.data :=
    congrArg LogBuf.data (LogTarget.setBuffer_other _ other)
  cases task with
  | flush nocallbacks => simp only [workOn]; split <;> rfl
  | flushSync nocallbacks => simp only [workOn]; split <;> rfl
  | queue => simp only [workOn]; split <;> rfl
  | add => simp only [workOn]; split <;> rfl
  | returnBuffer sync nocallback => rfl
  | clear => exact cleared
  | callback => exact cleared
  | finalize => rfl
  | stuck => rfl

theorem apply_turning {a : ThreadAction} (sound : s.Sound) (allowed : s.Allowed a)
    (turning : s.rotating = .checked ∨ (∃ next, s.rotating = .took next) → s.t.current.data ≠ [])
    (after : (s.apply a).rotating = .checked ∨ ∃ next, (s.apply a).rotating = .took next) :
    (s.apply a).t.current.data ≠ [] := by
  cases a with
  | beginRotate =>
    simp only [apply] at after ⊢
    split at after
    · next data =>
      rw [if_pos data]
      exact List.ne_nil_of_length_pos data
    · next empty =>
      rw [if_neg empty]
      exact turning after
  | rotateOn =>
    simp only [apply, rotateOn] at after ⊢
    cases rotating : s.rotating with
    | idle =>
      simp only [rotating] at after
      simp at after
    | checked =>
      have data := turning (Or.inl rotating)
      simp only
      split <;> exact data
    | took next =>
      simp only [rotating] at after
      split at after <;> simp at after
    | swap next =>
      simp only [rotating] at after
      simp at after
    | giveBack next => exact absurd rotating (sound.noGiveBack next)
    | clear =>
      simp only [rotating] at after
      simp at after
  | copyIn header text footer =>
    have idle : s.rotating = .idle := allowed
    simp [apply, idle] at after
  | takeOut sync nocallbacks =>
    simp only [apply] at after ⊢
    split at after <;> exact turning after
  | work n =>
    simp only [apply] at after ⊢
    split at after
    · exact turning after
    · next b task hand =>
      rw [workOn_rotating] at after
      have other := hand_not_current sound (rotating_only after) (List.mem_of_getElem? hand)
      rw [workOn_current other]
      exact turning after
  | writeDone n =>
    simp only [apply, writeDone] at after ⊢
    cases found : s.t.inflight[n]? with
    | none =>
      rw [found] at after
      exact turning after
    | some w =>
      rw [found] at after
      cases w <;> exact turning after
  | deliver =>
    rcases deliver_cases sound allowed with same | ⟨o', _, same⟩ | ⟨b, o', _, same⟩
    · rw [apply, same] at after ⊢
      exact turning after
    · rw [apply, same] at after ⊢
      exact turning after
    · rw [apply, same] at after ⊢
      exact turning after
  | setCallbackFlag => exact turning after
  | setCallbackPointer => exact turning after
  | others o => exact turning after

theorem apply_filled {a : ThreadAction} (sound : s.Sound) (allowed : s.Allowed a)
    (filled : s.Filled g) : (s.apply a).Filled (g.next s a) where
  rotated := by
    intro data mem
    rcases next_rotated g s a with same | ⟨took, more⟩
    · exact filled.rotated data (same ▸ mem)
    · rw [more] at mem
      rcases List.mem_append.mp mem with before | new
      · exact filled.rotated data before
      · rw [List.mem_singleton.mp new]
        exact filled.turning (Or.inr took)
  turning := apply_turning sound allowed filled.turning

theorem clearing_set {n : Nat} {task : Task} (hand : s.hands[n]? = some (b, task)) (task' : Task) :
    (s.setHand n b task').clearing + clearTask (b, task) = s.clearing + clearTask (b, task') :=
  Totals.sum_set hand (fun _ _ _ _ => rfl) (b, task')

theorem clearing_drop {n : Nat} {task : Task} (hand : s.hands[n]? = some (b, task)) :
    s.clearing = (s.dropHand n).clearing + clearTask (b, task) := by
  have perm := ((Totals.perm_eraseIdx hand).map clearTask).sum_nat
  rw [List.map_cons, List.sum_cons] at perm
  rw [clearing, perm, clearing, dropHand, Nat.add_comm]

theorem Carried.settles {n : Nat} {task : Task} (carried : s.Carried g)
    (hand : s.hands[n]? = some (b, task)) (flushed : task.stage = .flushed) :
    ∃ k, g.uncleared.holds b = some k := by
  have counts := (dropHand_counts hand b).2
  have serial := carried.uncleared b
  simp only [inStage_one, flushed, ↓reduceIte, List.count_singleton_self] at counts
  cases holds : g.uncleared.holds b with
  | none =>
    rw [holds, Option.toList_none, List.length_nil] at serial
    omega
  | some k => exact ⟨k, rfl⟩

/-- returnBuffer never sees an empty buffer here. -/
theorem Filled.not_empty (filled : s.Filled g) (carried : s.Carried g) {k : Nat}
    (holds : g.uncleared.holds b = some k) : (s.t.buffers b).isEmpty = false := by
  have data := filled.rotated _ (List.mem_of_getElem? (carried.bytes b k holds))
  exact List.isEmpty_eq_false_iff.mpr data

/-- What is cleared or about to be, less what is called back. -/
theorem workOn_given_up {n : Nat} {task : Task} (carried : s.Carried g) (filled : s.Filled g)
    (hand : s.hands[n]? = some (b, task)) :
    (g.next s (.work n)).uncleared.settled.length + (s.workOn n b task).clearing +
        g.calledBack.length =
      g.uncleared.settled.length + s.clearing + (g.next s (.work n)).calledBack.length +
        if s.TaskDelivers task then 0 else 1 := by
  have set := clearing_set hand
  have drop := clearing_drop hand
  cases task with
  | flush nocallbacks =>
    rw [if_pos (show s.TaskDelivers (.flush nocallbacks) from trivial)]
    simp only [clearTask, reduceCtorEq, ↓reduceIte] at set drop
    have sets := set (.returnBuffer false nocallbacks)
    simp only [workOn, BankTrail.next, hand]
    cases kind : s.t.kind with
    | callback =>
      simp only [reduceCtorEq, ↓reduceIte] at sets
      simp only [BankTrail.flush, ↓reduceIte]
      omega
    | tty =>
      simp only [reduceCtorEq, ↓reduceIte]
      rw [drop]
      rfl
    | file =>
      simp only [reduceCtorEq, ↓reduceIte]
      rw [drop]
      rfl
  | flushSync nocallbacks =>
    rw [if_pos (show s.TaskDelivers (.flushSync nocallbacks) from trivial)]
    have returns := set (.returnBuffer true nocallbacks)
    have waits := set .stuck
    simp only [clearTask, reduceCtorEq, ↓reduceIte] at returns waits
    simp only [workOn, BankTrail.next, hand]
    cases kind : s.t.kind with
    | tty =>
      simp only [↓reduceIte]
      omega
    | file =>
      simp only [reduceCtorEq, ↓reduceIte, BankTrail.flush]
      omega
    | callback =>
      simp only [reduceCtorEq, ↓reduceIte, BankTrail.flush]
      omega
  | returnBuffer sync nocallback =>
    obtain ⟨k, holds⟩ := carried.settles hand rfl
    have full := filled.not_empty carried holds
    simp only [workOn, BankTrail.next, hand, full, Bool.not_false, Bool.and_true,
      Bool.and_eq_true, Bool.not_eq_true']
    by_cases wanted : nocallback = false ∧ s.t.logCallbackSet = true
    · have delivers : s.TaskDelivers (.returnBuffer sync nocallback) := wanted
      rw [if_pos wanted, if_pos delivers]
      have other : clearTask (b, if sync then .callback else .queue) = 0 := by cases sync <;> rfl
      have sets := set (if sync then .callback else .queue)
      rw [other, Nat.add_zero] at sets
      have same : (s.setHand n b (if sync then .callback else .queue)).clearing = s.clearing := sets
      simp only [clearing, BankThreads.setHand] at same ⊢
      omega
    · have refuses : ¬ s.TaskDelivers (.returnBuffer sync nocallback) := wanted
      rw [if_neg wanted, if_neg refuses]
      have sets := set .clear
      simp only [clearTask, reduceCtorEq, ↓reduceIte] at sets
      have same : (s.setHand n b .clear).clearing = s.clearing + 1 := sets
      simp only [clearing, BankThreads.setHand] at same ⊢
      omega
  | queue =>
    simp only [workOn, BankTrail.next, hand]
    rcases BoundedQueue.addIfRoom_cases s.o.v8LogCallbacks (.buffer s.t.myId b) with
      ⟨room, added, _⟩ | ⟨none, full⟩
    · have delivers : s.TaskDelivers .queue := room
      rw [if_pos (by exact added), if_pos delivers]
      simp only [clearTask, reduceCtorEq, ↓reduceIte] at drop
      rw [drop]
      rfl
    · have refused : (s.o.addCallback (.buffer s.t.myId b)).2 = false := by
        simp [Owner.addCallback, full]
      have sets := set .clear
      simp only [clearTask, reduceCtorEq, ↓reduceIte] at sets
      have refuses : ¬ s.TaskDelivers .queue := none
      rw [if_neg (by simp [refused]), if_neg refuses]
      omega
  | clear =>
    rw [if_pos (show s.TaskDelivers .clear from trivial)]
    obtain ⟨k, holds⟩ := carried.settles hand rfl
    have sets := set .add
    simp only [clearTask, reduceCtorEq, ↓reduceIte] at sets
    simp only [workOn, BankTrail.next, hand, BankTrail.clear, Serials.settle, holds,
      Option.toList_some, List.length_append, List.length_singleton]
    simp only [clearing, BankThreads.setHand] at sets ⊢
    omega
  | add =>
    rw [if_pos (show s.TaskDelivers .add from trivial)]
    simp only [clearTask, reduceCtorEq, ↓reduceIte] at drop
    simp only [workOn, BankTrail.next, hand]
    split
    · rw [drop]
      rfl
    · rfl
  | callback =>
    rw [if_pos (show s.TaskDelivers .callback from trivial)]
    obtain ⟨k, holds⟩ := carried.settles hand rfl
    have sets := set .finalize
    simp only [clearTask, reduceCtorEq, ↓reduceIte] at sets
    simp only [workOn, BankTrail.next, hand, BankTrail.callback, BankTrail.clear,
      Serials.settle, holds, Option.toList_some, List.map_cons, List.map_nil, List.length_append,
      List.length_singleton]
    simp only [clearing, BankThreads.setHand] at sets ⊢
    omega
  | finalize =>
    rw [if_pos (show s.TaskDelivers .finalize from trivial)]
    simp only [clearTask, reduceCtorEq, ↓reduceIte] at drop
    simp only [workOn, BankTrail.next, hand]
    rw [drop]
    rfl
  | stuck =>
    rw [if_pos (show s.TaskDelivers .stuck from trivial)]
    simp only [workOn, BankTrail.next, hand, Nat.add_zero]

theorem apply_given_up {a : ThreadAction} (sound : s.Sound) (allowed : s.Allowed a)
    (carried : s.Carried g) (filled : s.Filled g) :
    (g.next s a).uncleared.settled.length + (s.apply a).clearing + g.calledBack.length =
      g.uncleared.settled.length + s.clearing + (g.next s a).calledBack.length +
        if s.Delivers a then 0 else 1 := by
  have quiet : ∀ {a}, s.Delivers a → (g.next s a).uncleared.settled = g.uncleared.settled →
      (g.next s a).calledBack = g.calledBack → (s.apply a).clearing = s.clearing →
      (g.next s a).uncleared.settled.length + (s.apply a).clearing + g.calledBack.length =
        g.uncleared.settled.length + s.clearing + (g.next s a).calledBack.length +
          if s.Delivers a then 0 else 1 := by
    intro a delivers settled calledBack clearing
    rw [if_pos delivers, settled, calledBack, clearing, Nat.add_zero]
  have more : ∀ (hands : List (BufId × Task)) {hand : BufId × Task}, hand.2 ≠ .clear →
      ((hands ++ [hand]).map clearTask).sum = (hands.map clearTask).sum := by
    intro hands hand other
    simp [clearTask, other]
  cases a with
  | beginRotate =>
    refine quiet trivial rfl rfl ?_
    simp only [apply]
    split <;> rfl
  | rotateOn =>
    have trail : (g.next s .rotateOn).uncleared.settled = g.uncleared.settled ∧
        (g.next s .rotateOn).calledBack = g.calledBack := by
      simp only [BankTrail.next]
      split
      · split <;> exact ⟨rfl, rfl⟩
      · exact ⟨rfl, rfl⟩
    refine quiet trivial trail.1 trail.2 ?_
    simp only [apply, rotateOn]
    split
    · rfl
    · split <;> rfl
    · split <;> rfl
    · rfl
    · rfl
    · rfl
  | copyIn header text footer => exact quiet trivial rfl rfl rfl
  | takeOut sync nocallbacks =>
    refine quiet trivial rfl rfl ?_
    simp only [apply]
    split
    · rfl
    · exact more s.hands (by cases sync <;> simp)
  | work n =>
    simp only [apply]
    cases hand : s.hands[n]? with
    | none =>
      have delivers : s.Delivers (.work n) := by simp [Delivers, hand]
      simp only [BankTrail.next, hand, delivers, ↓reduceIte, Nat.add_zero]
    | some held =>
      have same : s.Delivers (.work n) ↔ s.TaskDelivers held.2 := by simp [Delivers, hand]
      simp only [same]
      exact workOn_given_up carried filled hand
  | writeDone n =>
    have trail : (g.next s (.writeDone n)).uncleared.settled = g.uncleared.settled ∧
        (g.next s (.writeDone n)).calledBack = g.calledBack := by
      simp only [BankTrail.next]
      split <;> exact ⟨rfl, rfl⟩
    refine quiet trivial trail.1 trail.2 ?_
    simp only [apply, writeDone]
    split
    · rfl
    · exact more s.hands (by simp)
    · rfl
  | deliver =>
    refine quiet trivial rfl rfl ?_
    rcases deliver_cases sound allowed with same | ⟨o', _, same⟩ | ⟨b, o', _, same⟩
    · rw [apply, same]
    · rw [apply, same]
      rfl
    · rw [apply, same]
      exact more s.hands (by simp)
  | setCallbackFlag => exact quiet trivial rfl rfl rfl
  | setCallbackPointer => exact quiet trivial rfl rfl rfl
  | others o => exact quiet trivial rfl rfl rfl

theorem clearing_zero : s.clearing = 0 ↔ ∀ b, (b, Task.clear) ∉ s.hands := by
  rw [clearing, List.sum_eq_zero_iff_forall_eq_nat]
  constructor
  · intro none b hand
    exact absurd (none _ (List.mem_map_of_mem hand)) (by simp [clearTask])
  · intro none n mem
    obtain ⟨⟨b, task⟩, hand, rfl⟩ := List.mem_map.mp mem
    have other : task ≠ .clear := by
      rintro rfl
      exact none b hand
    simp [clearTask, other]

end BankThreads

namespace BankStream

theorem checked_stream (actions : List ThreadAction) (x : BankStream) :
    Runs.Checked (fun x : BankStream => x.s.Delivers) apply x actions ↔
      Runs.Checked BankThreads.Delivers BankThreads.apply x.s actions := by
  induction actions generalizing x with
  | nil => exact Iff.rfl
  | cons a rest ih => exact and_congr_right fun _ => ih (x.apply a)

def AllCalledBack (x : BankStream) : Prop :=
  x.g.uncleared.settled.length + x.s.clearing = x.g.calledBack.length

theorem apply_all_called_back {x : BankStream} {a : ThreadAction} (kept : x.Kept)
    (filled : x.s.Filled x.g) (allowed : x.s.Allowed a) :
    (x.apply a).AllCalledBack ↔ x.AllCalledBack ∧ x.s.Delivers a := by
  have balance := BankThreads.apply_given_up kept.sound allowed kept.carried filled
  have among := kept.balanced.calledBackOnce.length_le
  rw [List.length_map] at among
  simp only [AllCalledBack, apply]
  split at balance
  · next delivers =>
    rw [and_iff_left delivers]
    omega
  · next refuses =>
    rw [iff_false_right (fun h => refuses h.2)]
    omega

/-- Every buffer that rotate() hands over is called back, or is still on its way to
    that, if and only if no step of the run turned one away: returnBuffer saw the
    callback and was not told to skip it, and v8LogCallbacks had room. -/
theorem all_called_back_iff {start s : BankThreads} {actions : List ThreadAction}
    (fresh : start.Start) (run : Runs.Run BankThreads.Step start actions s) :
    let g := (stream start actions).g
    (g.calledBack.map Prod.fst ++ g.uncleared.held (List.finRange NUM_BANKS)).Perm
          (List.range g.rotated.length) ∧
        (∀ b, (b, Task.clear) ∉ s.hands) ↔
      Runs.Checked BankThreads.Delivers BankThreads.apply start actions := by
  dsimp only
  obtain ⟨same, whole⟩ := run_stream run
  have kept := run_kept fresh run
  have filled : (⟨start, {}⟩ : BankStream).s.Filled (⟨start, {}⟩ : BankStream).g := by
    constructor
    · intro data mem
      cases mem
    · intro turning
      simp [fresh.idle.1] at turning
  have none : (⟨start, {}⟩ : BankStream).AllCalledBack := by
    simp [AllCalledBack, BankThreads.clearing, fresh.idle.2.1]
  have performs : ∀ x a x', Step x a x' → x' = apply x a := fun _ _ _ step => step.2
  have each : ∀ x a x', x.Kept ∧ x.s.Filled x.g → Step x a x' →
      (x'.Kept ∧ x'.s.Filled x'.g) ∧ (x'.AllCalledBack ↔ x.AllCalledBack ∧ x.s.Delivers a) := by
    rintro x a _ ⟨kept, filled⟩ ⟨allowed, rfl⟩
    exact ⟨⟨apply_kept kept allowed, BankThreads.apply_filled kept.sound allowed filled⟩,
      apply_all_called_back kept filled allowed⟩
  have result := Runs.kept_iff_checked performs (fun x => x.Kept ∧ x.s.Filled x.g) AllCalledBack
    ⟨start_kept fresh, filled⟩ none each whole
  have conserved := kept.balanced.uncleared
  rw [Serials.Conserved, kept.balanced.issued.1] at conserved
  rw [← checked_stream actions ⟨start, {}⟩, ← result.2, ← same, ← BankThreads.clearing_zero]
  unfold AllCalledBack
  have among := kept.balanced.calledBackOnce
  constructor
  · rintro ⟨all, clear⟩
    have lengths := all.length_eq.trans conserved.length_eq.symm
    rw [List.length_append, List.length_append, List.length_map] at lengths
    omega
  · intro balance
    have bound := among.length_le
    rw [List.length_map] at bound
    have equal : (stream start actions).g.calledBack.map Prod.fst =
        (stream start actions).g.uncleared.settled :=
      among.eq_of_length (by rw [List.length_map]; omega)
    rw [equal]
    exact ⟨conserved, by omega⟩

theorem all_called_back_line :
    let g := (stream fileStart lineActions).g
    (g.calledBack.map Prod.fst ++ g.uncleared.held (List.finRange NUM_BANKS)).Perm
        (List.range g.rotated.length) ∧
      ∀ b, (b, Task.clear) ∉ (lineActions.foldl BankThreads.apply fileStart).hands :=
  (all_called_back_iff fileStart_fresh line_run).mpr (by decide +kernel)

end BankStream
end GreaseLog
