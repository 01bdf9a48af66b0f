import Mathlib.Data.List.Basic

/- Runs of a labelled transition system, as finite lists of actions. A guard
   restricts the steps a run may take; what every guarded step keeps, every
   state of a guarded run has. -/
namespace Runs
variable {State Action : Type}

/-- The actions are listed oldest first; the state is the one they end in. -/
inductive Run (step : State → Action → State → Prop) (start : State) :
    List Action → State → Prop where
  | start : Run step start [] start
  | next {actions : List Action} {s t : State} {a : Action}
      (before : Run step start actions s) (last : step s a t) :
      Run step start (actions ++ [a]) t

def Guard (allowed : State → Action → Prop) (step : State → Action → State → Prop) :
    State → Action → State → Prop :=
  fun s a t => allowed s a ∧ step s a t

def Reached (step : State → Action → State → Prop) (start s : State) : Prop :=
  ∃ actions, Run step start actions s

variable {step : State → Action → State → Prop} {start : State}

theorem run_invariant (inv : State → Prop) (init : inv start)
    (keep : ∀ s a t, inv s → step s a t → inv t)
    {actions : List Action} {s : State} (run : Run step start actions s) : inv s := by
  induction run with
  | start => exact init
  | next before last ih => exact keep _ _ _ ih last

theorem run_history (inv : List Action → State → Prop) (init : inv [] start)
    (keep : ∀ actions s a t, inv actions s → step s a t → inv (actions ++ [a]) t)
    {actions : List Action} {s : State} (run : Run step start actions s) : inv actions s := by
  induction run with
  | start => exact init
  | next before last ih => exact keep _ _ _ _ ih last

theorem run_append {as bs : List Action} {s t : State}
    (first : Run step start as s) (second : Run step s bs t) : Run step start (as ++ bs) t := by
  induction second with
  | start => simpa using first
  | next before last ih => simpa [List.append_assoc] using ih.next last

theorem run_one {a : Action} {t : State} (h : step start a t) : Run step start [a] t :=
  (Run.start.next h : Run step start ([] ++ [a]) t)

theorem reached_trans {s t : State} (first : Reached step start s) (second : Reached step s t) :
    Reached step start t := by
  obtain ⟨as, before⟩ := first
  obtain ⟨bs, after⟩ := second
  exact ⟨as ++ bs, run_append before after⟩

/-- Each action is allowed in the state that a deterministic system is in by then. -/
def Checked (allowed : State → Action → Prop) (apply : State → Action → State) :
    State → List Action → Prop
  | _, [] => True
  | s, a :: rest => allowed s a ∧ Checked allowed apply (apply s a) rest

instance decidableChecked (allowed : State → Action → Prop) (apply : State → Action → State)
    [∀ s a, Decidable (allowed s a)] : ∀ s actions, Decidable (Checked allowed apply s actions)
  | _, [] => inferInstanceAs (Decidable True)
  | s, a :: rest =>
    have := decidableChecked allowed apply (apply s a) rest
    inferInstanceAs (Decidable (allowed s a ∧ Checked allowed apply (apply s a) rest))

theorem run_checked {allowed : State → Action → Prop} {apply : State → Action → State}
    (performs : ∀ s a, allowed s a → step s a (apply s a)) {actions : List Action} {s : State}
    (checked : Checked allowed apply s actions) : Run step s actions (actions.foldl apply s) := by
  induction actions generalizing s with
  | nil => exact .start
  | cons a rest ih =>
    obtain ⟨first, others⟩ := checked
    exact run_append (run_one (performs s a first)) (ih others)

theorem run_apply (apply : State → Action → State) (actions : List Action) (s : State) :
    Run (fun s a t => t = apply s a) s actions (actions.foldl apply s) := by
  induction actions generalizing s with
  | nil => exact .start
  | cons a rest ih => exact run_append (run_one rfl) (ih (apply s a))

theorem checked_append {allowed : State → Action → Prop} {apply : State → Action → State}
    {as bs : List Action} {s : State} :
    Checked allowed apply s (as ++ bs) ↔
      Checked allowed apply s as ∧ Checked allowed apply (as.foldl apply s) bs := by
  induction as generalizing s with
  | nil => exact (and_iff_right trivial).symm
  | cons a rest ih =>
    rw [List.cons_append, Checked, Checked, ih, and_assoc]
    rfl

theorem run_foldl {apply : State → Action → State}
    (performs : ∀ s a t, step s a t → t = apply s a) {actions : List Action} {s : State}
    (run : Run step start actions s) : s = actions.foldl apply start := by
  induction run with
  | start => rfl
  | next before last ih =>
    rw [List.foldl_append, ← ih]
    exact performs _ _ _ last

/-- What each step keeps under a condition, and otherwise breaks for good, holds at
    the end of a run if and only if every step has met the condition. -/
theorem kept_iff_checked {apply : State → Action → State} (performs : ∀ s a t, step s a t → t = apply s a)
    {keeps : State → Action → Prop} (inv good : State → Prop) (init : inv start) (first : good start)
    (each : ∀ s a t, inv s → step s a t → inv t ∧ (good t ↔ good s ∧ keeps s a))
    {actions : List Action} {s : State} (run : Run step start actions s) :
    inv s ∧ (good s ↔ Checked keeps apply start actions) := by
  induction run with
  | start => exact ⟨init, iff_of_true first trivial⟩
  | next before last ih =>
    obtain ⟨kept, iff⟩ := ih
    obtain ⟨kept', iff'⟩ := each _ _ _ kept last
    refine ⟨kept', ?_⟩
    rw [checked_append, ← run_foldl performs before, ← iff, iff']
    exact and_congr_right fun _ => (and_iff_left trivial).symm

/-- Every state that a list of actions passes through is good if and only if the first
    one is and every action keeps it so. The invariant need only last as long as this. -/
theorem always_iff_checked_while {apply : State → Action → State}
    {allowed keeps : State → Action → Prop} {inv good : State → Prop}
    (each : ∀ s a, inv s → good s → allowed s a →
      (good (apply s a) ↔ keeps s a) ∧ (keeps s a → inv (apply s a)))
    {actions : List Action} {s : State} (begins : inv s)
    (checked : Checked allowed apply s actions) :
    (∀ n, good ((actions.take n).foldl apply s)) ↔ good s ∧ Checked keeps apply s actions := by
  induction actions generalizing s with
  | nil =>
    constructor
    · exact fun always => ⟨always 0, trivial⟩
    · rintro ⟨first, _⟩ n
      rw [List.take_nil]
      exact first
  | cons a rest ih =>
    rw [Checked] at checked ⊢
    constructor
    · intro always
      have first : good s := always 0
      obtain ⟨step, carries⟩ := each s a begins first checked.1
      have kept := step.mp (always 1)
      have later := (ih (carries kept) checked.2).mp fun n => always (n + 1)
      exact ⟨first, kept, later.2⟩
    · rintro ⟨first, kept, others⟩ n
      obtain ⟨step, carries⟩ := each s a begins first checked.1
      cases n with
      | zero => exact first
      | succ n => exact (ih (carries kept) checked.2).mpr ⟨step.mpr kept, others⟩ n

theorem checked_iff_while {apply : State → Action → State} {claimed allowed : State → Action → Prop}
    {inv : State → Prop}
    (each : ∀ s a, inv s → (claimed s a ↔ allowed s a) ∧ (allowed s a → inv (apply s a)))
    (actions : List Action) {s : State} (begins : inv s) :
    Checked claimed apply s actions ↔ Checked allowed apply s actions := by
  induction actions generalizing s with
  | nil => exact Iff.rfl
  | cons a rest ih =>
    obtain ⟨same, carries⟩ := each s a begins
    rw [Checked, Checked, same]
    exact and_congr_right fun meets => ih (carries meets)

theorem checked_and {p q : State → Action → Prop} {apply : State → Action → State}
    {actions : List Action} {s : State} :
    Checked (fun s a => p s a ∧ q s a) apply s actions ↔
      Checked p apply s actions ∧ Checked q apply s actions := by
  induction actions generalizing s with
  | nil => exact (and_iff_left trivial).symm
  | cons a rest ih =>
    rw [Checked, Checked, Checked, ih]
    exact and_and_and_comm

theorem checked_while {apply : State → Action → State} {allowed claimed : State → Action → Prop}
    {inv : State → Prop}
    (each : ∀ s a, inv s → allowed s a → claimed s a ∧ inv (apply s a))
    {actions : List Action} {s : State} (begins : inv s)
    (checked : Checked allowed apply s actions) : Checked claimed apply s actions := by
  induction actions generalizing s with
  | nil => trivial
  | cons a rest ih =>
    obtain ⟨now, carries⟩ := each s a begins checked.1
    exact ⟨now, ih carries checked.2⟩

theorem checked_trivial (apply : State → Action → State) (actions : List Action) (s : State) :
    Checked (fun _ _ => True) apply s actions := by
  induction actions generalizing s with
  | nil => trivial
  | cons a rest ih => exact ⟨trivial, ih (apply s a)⟩

theorem always_iff_checked {apply : State → Action → State} {keeps : State → Action → Prop}
    {good : State → Prop} (each : ∀ s a, good s → (good (apply s a) ↔ keeps s a))
    (actions : List Action) (s : State) :
    (∀ n, good ((actions.take n).foldl apply s)) ↔ good s ∧ Checked keeps apply s actions := by
  have each' : ∀ s a, True → good s → True →
      (good (apply s a) ↔ keeps s a) ∧ (keeps s a → True) := by
    intro s a _ ok _
    exact ⟨each s a ok, fun _ => trivial⟩
  exact always_iff_checked_while each' trivial (checked_trivial apply actions s)

/-- Where an action leads; one that waits for ever leaves the state as it is. -/
def next (act : State → Action → Option State) (s : State) (a : Action) : State := (act s a).getD s

/-- Actions one after the other, each of which ends only where it fits. -/
theorem foldlM_isSome {act : State → Action → Option State} {fits : State → Action → Prop}
    (each : ∀ s a, (act s a).isSome = true ↔ fits s a) (actions : List Action) (s : State) :
    (actions.foldlM act s).isSome = true ↔ Checked fits (next act) s actions := by
  induction actions generalizing s with
  | nil => exact iff_of_true rfl trivial
  | cons a rest ih =>
    have first := each s a
    rw [List.foldlM_cons, Checked]
    cases acted : act s a with
    | none =>
      rw [acted] at first
      exact iff_of_false Bool.false_ne_true fun both => Bool.false_ne_true (first.mpr both.1)
    | some t =>
      have step : next act s a = t := by rw [next, acted, Option.getD_some]
      rw [acted] at first
      rw [step]
      exact (ih t).trans (and_iff_right (first.mp rfl)).symm

theorem foldlM_foldl {View : Type} (view : State → View) {step : View → Action → View}
    {act : State → Action → Option State}
    (each : ∀ s a t, act s a = some t → view t = step (view s) a) {actions : List Action}
    {s t : State} (done : actions.foldlM act s = some t) : view t = actions.foldl step (view s) := by
  induction actions generalizing s with
  | nil =>
    obtain rfl := Option.some.inj done
    rfl
  | cons a rest ih =>
    rw [List.foldlM_cons] at done
    obtain ⟨middle, acted, others⟩ := Option.bind_eq_some_iff.mp done
    rw [List.foldl_cons, ← each s a middle acted]
    exact ih others

end Runs
