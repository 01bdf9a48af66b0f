import Mathlib.Data.List.Forall2

/- A loop that takes the requests of a state one by one and handles each, which
   may add further requests. The fuel bounds the number of requests taken. -/
namespace Worklist
variable {State Req Event : Type}
variable (pop : State → Option (Req × State)) (handle : State → Req → State × List Event)

def drain : Nat → State → State × List Event
  | 0, s => (s, [])
  | fuel + 1, s =>
    match pop s with
    | none => (s, [])
    | some (req, rest) =>
      let done := handle rest req
      let others := drain fuel done.1
      (others.1, done.2 ++ others.2)

variable {pop handle}

theorem drain_none {s : State} (none : pop s = none) (fuel : Nat) :
    drain pop handle fuel s = (s, []) := by
  cases fuel with
  | zero => rfl
  | succ fuel => simp [drain, none]

theorem drain_some {s rest : State} {req : Req} (took : pop s = some (req, rest)) (fuel : Nat) :
    drain pop handle (fuel + 1) s =
      ((drain pop handle fuel (handle rest req).1).1,
        (handle rest req).2 ++ (drain pop handle fuel (handle rest req).1).2) := by
  simp [drain, took]

theorem drain_keeps {inv : State → Prop}
    (keeps : ∀ s req rest, inv s → pop s = some (req, rest) → inv (handle rest req).1)
    (fuel : Nat) {s : State} (ok : inv s) : inv (drain pop handle fuel s).1 := by
  induction fuel generalizing s with
  | zero => exact ok
  | succ fuel ih =>
    cases took : pop s with
    | none =>
      rw [drain_none took]
      exact ok
    | some r =>
      rw [drain_some took]
      exact ih (keeps s r.1 r.2 ok took)

/-- A measure that every handled request lowers is enough fuel: the loop ends
    with nothing left, and more fuel changes nothing. -/
theorem drain_empties {inv : State → Prop} {measure : State → Nat}
    (lowers : ∀ s req rest, inv s → pop s = some (req, rest) →
      inv (handle rest req).1 ∧ measure (handle rest req).1 < measure s)
    {fuel : Nat} {s : State} (ok : inv s) (enough : measure s ≤ fuel) :
    pop (drain pop handle fuel s).1 = none ∧ inv (drain pop handle fuel s).1 ∧
      ∀ more, drain pop handle (fuel + more) s = drain pop handle fuel s := by
  induction fuel generalizing s with
  | zero =>
    have none : pop s = none := by
      cases took : pop s with
      | none => rfl
      | some r =>
        have lower := (lowers s r.1 r.2 ok took).2
        omega
    refine ⟨none, ok, fun more => ?_⟩
    rw [drain_none none, drain_none none]
  | succ fuel ih =>
    cases took : pop s with
    | none =>
      rw [drain_none took]
      exact ⟨took, ok, fun more => drain_none took _⟩
    | some r =>
      obtain ⟨keeps, lower⟩ := lowers s r.1 r.2 ok took
      obtain ⟨none, kept, stable⟩ := ih keeps (by omega)
      rw [drain_some took]
      refine ⟨none, kept, fun more => ?_⟩
      rw [Nat.add_right_comm, drain_some took, stable]

theorem drain_quiet (inv : State → Prop) (items : State → List Req) {quiet : Req → Prop}
    (made : Req → List Event → Prop) (empty : ∀ s, items s = [] → pop s = none)
    (handles : ∀ s req more, inv s → items s = req :: more → quiet req →
      ∃ rest, pop s = some (req, rest) ∧ inv (handle rest req).1 ∧
        items (handle rest req).1 = more ∧ made req (handle rest req).2)
    {fuel : Nat} {s : State} (ok : inv s) (all : ∀ req ∈ items s, quiet req)
    (enough : (items s).length ≤ fuel) :
    inv (drain pop handle fuel s).1 ∧ items (drain pop handle fuel s).1 = [] ∧
      ∃ events, (drain pop handle fuel s).2 = events.flatten ∧
        List.Forall₂ made (items s) events := by
  induction fuel generalizing s with
  | zero =>
    have none : items s = [] := List.length_eq_zero_iff.mp (Nat.le_zero.mp enough)
    exact ⟨ok, none, [], rfl, none ▸ .nil⟩
  | succ fuel ih =>
    cases queued : items s with
    | nil =>
      rw [drain_none (empty s queued)]
      exact ⟨ok, queued, [], rfl, .nil⟩
    | cons req more =>
      rw [queued] at all enough
      obtain ⟨rest, took, keeps, left, events⟩ :=
        handles s req more ok queued (all req List.mem_cons_self)
      obtain ⟨kept, none, lists, flat, each⟩ := ih (s := (handle rest req).1) keeps
        (by rw [left]; exact fun r mem => all r (List.mem_cons_of_mem _ mem))
        (by rw [left]; simpa using enough)
      rw [drain_some took]
      refine ⟨kept, none, (handle rest req).2 :: lists, ?_, ?_⟩
      · rw [List.flatten_cons, flat]
      · rw [left] at each
        exact .cons events each

/-! The loop when the handling of a request may wait for ever, as `none`. -/

section
variable (pop : State → Option (Req × State)) (act : State → Req → Option State)

inductive Goes : State → Nat → State → Prop where
  | start (s : State) : Goes s 0 s
  | turn {s rest next last : State} {req : Req} {n : Nat} (took : pop s = some (req, rest))
      (handled : act rest req = some next) (others : Goes next n last) : Goes s (n + 1) last

def Ends (s : State) : Prop := ∃ n last, Goes pop act s n last ∧ pop last = none

/-- The loop comes to handle this request, in the state it has been taken from. -/
def Comes (s rest : State) (req : Req) : Prop :=
  ∃ n t, Goes pop act s n t ∧ pop t = some (req, rest)

end

variable {act : State → Req → Option State} {measure : State → Nat}

theorem goes_le (lowers : ∀ s req rest t, pop s = some (req, rest) → act rest req = some t →
      measure t < measure s) {s last : State} {n : Nat} (goes : Goes pop act s n last) :
    n + measure last ≤ measure s := by
  induction goes with
  | start s => exact Nat.le_of_eq (Nat.zero_add _)
  | turn took handled _ ih =>
    have lower := lowers _ _ _ _ took handled
    omega

theorem goes_keeps {inv : State → Prop} (keeps : ∀ s req rest t, inv s → pop s = some (req, rest) →
      act rest req = some t → inv t) {s last : State} {n : Nat} (goes : Goes pop act s n last)
    (ok : inv s) : inv last := by
  induction goes with
  | start s => exact ok
  | turn took handled _ ih => exact ih (keeps _ _ _ _ ok took handled)

theorem handled_of_ends {s last t rest : State} {n m : Nat} {req : Req}
    (goes : Goes pop act s n last) (empty : pop last = none) (other : Goes pop act s m t)
    (takes : pop t = some (req, rest)) : (act rest req).isSome = true := by
  induction goes generalizing m with
  | start s =>
    cases other with
    | start => rw [empty] at takes; cases takes
    | turn took _ _ => rw [empty] at took; cases took
  | turn took handled _ ih =>
    cases other with
    | start =>
      obtain ⟨rfl, rfl⟩ := Prod.mk.inj (Option.some.inj (took.symm.trans takes))
      rw [handled]
      rfl
    | turn took' handled' others =>
      obtain ⟨rfl, rfl⟩ := Prod.mk.inj (Option.some.inj (took.symm.trans took'))
      obtain rfl := Option.some.inj (handled.symm.trans handled')
      exact ih empty others

/-- With a measure that every turn lowers, the loop ends exactly if it never comes
    to a request that is not handled. -/
theorem ends_iff (lowers : ∀ s req rest t, pop s = some (req, rest) → act rest req = some t →
      measure t < measure s) (s : State) :
    Ends pop act s ↔ ∀ rest req, Comes pop act s rest req → (act rest req).isSome = true := by
  constructor
  · rintro ⟨n, last, goes, empty⟩ rest req ⟨m, t, other, takes⟩
    exact handled_of_ends goes empty other takes
  · intro handles
    induction size : measure s using Nat.strongRecOn generalizing s with
    | ind k ih =>
      cases took : pop s with
      | none => exact ⟨0, s, .start s, took⟩
      | some r =>
        obtain ⟨req, rest⟩ := r
        obtain ⟨next, handled⟩ := Option.isSome_iff_exists.mp
          (handles rest req ⟨0, s, .start s, took⟩)
        have lower : measure next < k := size ▸ lowers s req rest next took handled
        obtain ⟨n, last, goes, empty⟩ := ih (measure next) lower next (fun rest' req' comes => by
          obtain ⟨m, t, later, takes⟩ := comes
          exact handles rest' req' ⟨m + 1, t, .turn took handled later, takes⟩) rfl
        exact ⟨n + 1, last, .turn took handled goes, empty⟩

end Worklist
