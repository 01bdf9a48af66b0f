import Mathlib.Data.List.Nodup

/- A loop that walks a list by index while its body removes elements of the list,
   against the walk that gives every element its turn. What a visit removes is
   told by the visits so far, which it ends. -/
namespace LiveWalk
variable {α : Type} [DecidableEq α] (removes : List α → List α)

def left (seen live : List α) : List α := live.filter fun a => a ∉ removes seen

/-- The loop from index n on, where the list is looked at anew in every turn. -/
def walk : Nat → Nat → List α → List α → List α
  | 0, _, _, seen => seen
  | fuel + 1, n, live, seen =>
    match live[n]? with
    | none => seen
    | some a => walk fuel (n + 1) (left removes (seen ++ [a]) live) (seen ++ [a])

def inTurn : List α → List α → List α → List α
  | [], _, seen => seen
  | a :: todo, live, seen =>
    if a ∈ live then inTurn todo (left removes (seen ++ [a]) live) (seen ++ [a])
    else inTurn todo live seen

/-- Each visit removes no element that has been visited, its own among them, or leaves
    none to be visited. -/
def OnlyAhead : List α → List α → List α → Prop
  | [], _, _ => True
  | a :: todo, live, seen =>
    if a ∈ live then
      ((∀ b ∈ seen ++ [a], b ∈ live → b ∉ removes (seen ++ [a])) ∨
          ∀ b ∈ todo, b ∈ live → b ∈ removes (seen ++ [a])) ∧
        OnlyAhead todo (left removes (seen ++ [a]) live) (seen ++ [a])
    else OnlyAhead todo live seen

instance decidableOnlyAhead : ∀ todo live seen, Decidable (OnlyAhead removes todo live seen)
  | [], _, _ => inferInstanceAs (Decidable True)
  | a :: todo, live, seen =>
    have := decidableOnlyAhead todo (left removes (seen ++ [a]) live) (seen ++ [a])
    have := decidableOnlyAhead todo live seen
    inferInstanceAs (Decidable (if a ∈ live then _ else _))

variable {removes}

theorem mem_left {seen live : List α} {a : α} :
    a ∈ left removes seen live ↔ a ∈ live ∧ a ∉ removes seen := by
  simp [left]

theorem walk_none {fuel n : Nat} {live : List α} (ended : live[n]? = none) (seen : List α) :
    walk removes fuel n live seen = seen := by
  cases fuel with
  | zero => rfl
  | succ fuel => rw [walk, ended]

theorem walk_some {n : Nat} {live : List α} {a : α} (at_n : live[n]? = some a) (fuel : Nat)
    (seen : List α) :
    walk removes (fuel + 1) n live seen =
      walk removes fuel (n + 1) (left removes (seen ++ [a]) live) (seen ++ [a]) := by
  rw [walk, at_n]

theorem inTurn_here {live : List α} {a : α} (here : a ∈ live) (todo seen : List α) :
    inTurn removes (a :: todo) live seen =
      inTurn removes todo (left removes (seen ++ [a]) live) (seen ++ [a]) := by
  rw [inTurn, if_pos here]

theorem inTurn_gone {live : List α} {a : α} (gone : a ∉ live) (todo seen : List α) :
    inTurn removes (a :: todo) live seen = inTurn removes todo live seen := by
  rw [inTurn, if_neg gone]

variable (removes)

theorem walk_extends (fuel n : Nat) (live seen : List α) :
    ∃ more, walk removes fuel n live seen = seen ++ more := by
  induction fuel generalizing n live seen with
  | zero => exact ⟨[], (List.append_nil seen).symm⟩
  | succ fuel ih =>
    cases at_n : live[n]? with
    | none =>
      rw [walk_none at_n]
      exact ⟨[], (List.append_nil seen).symm⟩
    | some a =>
      obtain ⟨more, longer⟩ := ih (n + 1) (left removes (seen ++ [a]) live) (seen ++ [a])
      rw [walk_some at_n, longer, List.append_assoc]
      exact ⟨[a] ++ more, rfl⟩

theorem walk_mem {fuel n : Nat} {live seen : List α} {a : α}
    (mem : a ∈ walk removes fuel n live seen) : a ∈ seen ∨ a ∈ live := by
  induction fuel generalizing n live seen with
  | zero => exact Or.inl mem
  | succ fuel ih =>
    cases at_n : live[n]? with
    | none =>
      rw [walk_none at_n] at mem
      exact Or.inl mem
    | some b =>
      rw [walk_some at_n] at mem
      rcases ih mem with known | there
      · rcases List.mem_append.mp known with before | same
        · exact Or.inl before
        · rw [List.mem_singleton.mp same]
          exact Or.inr (List.mem_of_getElem? at_n)
      · exact Or.inr (mem_left.mp there).1

theorem inTurn_extends (todo live seen : List α) :
    ∃ more, inTurn removes todo live seen = seen ++ more ∧ more.Sublist todo := by
  induction todo generalizing live seen with
  | nil => exact ⟨[], (List.append_nil seen).symm, List.Sublist.slnil⟩
  | cons a todo ih =>
    by_cases here : a ∈ live
    · obtain ⟨more, longer, part⟩ := ih (left removes (seen ++ [a]) live) (seen ++ [a])
      rw [inTurn_here here, longer, List.append_assoc]
      exact ⟨[a] ++ more, rfl, part.cons_cons a⟩
    · obtain ⟨more, longer, part⟩ := ih live seen
      rw [inTurn_gone here]
      exact ⟨more, longer, part.cons a⟩

theorem walk_next (fuel n : Nat) (live seen : List α) {a : α}
    (next : (walk removes fuel n live seen)[seen.length]? = some a) : live[n]? = some a := by
  cases fuel with
  | zero => simp [walk] at next
  | succ fuel =>
    cases at_n : live[n]? with
    | none =>
      rw [walk_none at_n] at next
      simp at next
    | some b =>
      obtain ⟨more, longer⟩ :=
        walk_extends removes fuel (n + 1) (left removes (seen ++ [b]) live) (seen ++ [b])
      rw [walk_some at_n, longer] at next
      simpa using next

theorem inTurn_next (todo live seen : List α) :
    (inTurn removes todo live seen)[seen.length]? = (todo.filter (· ∈ live)).head? := by
  induction todo with
  | nil => simp [inTurn]
  | cons a todo ih =>
    by_cases here : a ∈ live
    · obtain ⟨more, longer, _⟩ :=
        inTurn_extends removes todo (left removes (seen ++ [a]) live) (seen ++ [a])
      rw [inTurn_here here, longer]
      simp [here]
    · rw [inTurn_gone here, ih]
      simp [here]

theorem nothing_left {todo live : List α} (none : ∀ a ∈ todo, a ∉ live) (seen : List α) :
    inTurn removes todo live seen = seen ∧ OnlyAhead removes todo live seen := by
  induction todo with
  | nil => exact ⟨rfl, trivial⟩
  | cons a todo ih =>
    have gone := none a List.mem_cons_self
    obtain ⟨same, safe⟩ := ih fun b mem => none b (List.mem_cons_of_mem a mem)
    rw [inTurn_gone gone, OnlyAhead, if_neg gone]
    exact ⟨same, safe⟩

/-- Where the loop is: what is before the index has been visited, and what is from it on is
    what is still to be visited. -/
structure At (n : Nat) (live todo seen done rest : List α) : Prop where
  split : live = done ++ rest
  index : done.length = n
  nodup : live.Nodup
  rest_eq : todo.filter (· ∈ live) = rest
  visited : ∀ a ∈ live, a ∈ seen ↔ a ∈ done

section
variable {n : Nat} {live todo seen done rest : List α} {a : α}

theorem At.gone (at_n : At n live (a :: todo) seen done rest) (gone : a ∉ live) :
    At n live todo seen done rest := by
  obtain ⟨split, index, nodup, rest_eq, visited⟩ := at_n
  refine ⟨split, index, nodup, ?_, visited⟩
  rw [← rest_eq, List.filter_cons_of_neg (by simpa using gone)]

theorem At.here (at_n : At n live (a :: todo) seen done rest) (here : a ∈ live) :
    live = (done ++ [a]) ++ todo.filter (· ∈ live) ∧ live[n]? = some a ∧
      rest.length = (todo.filter (· ∈ live)).length + 1 := by
  obtain ⟨split, index, _, rest_eq, _⟩ := at_n
  rw [List.filter_cons_of_pos (by simpa using here)] at rest_eq
  refine ⟨?_, ?_, by rw [← rest_eq, List.length_cons]⟩
  · rw [List.append_assoc, List.singleton_append, rest_eq]
    exact split
  · rw [split, ← rest_eq, ← index]
    simp

theorem todo_left (seen live todo : List α) :
    todo.filter (· ∈ left removes seen live) =
      (todo.filter (· ∈ live)).filter fun b => b ∉ removes seen := by
  rw [List.filter_filter]
  refine List.filter_congr ?_
  intro b _
  simp only [mem_left, Bool.decide_and, Bool.and_comm]

theorem At.left_split (at_n : At n live (a :: todo) seen done rest) (here : a ∈ live) :
    left removes (seen ++ [a]) live =
      (done ++ [a]).filter (fun b => b ∉ removes (seen ++ [a])) ++
        todo.filter (· ∈ left removes (seen ++ [a]) live) := by
  rw [todo_left, ← List.filter_append, ← (at_n.here here).1]
  rfl

theorem At.behind_visited (at_n : At n live (a :: todo) seen done rest) (here : a ∈ live) {b : α} :
    b ∈ done ++ [a] ↔ b ∈ seen ++ [a] ∧ b ∈ live := by
  have split := (at_n.here here).1
  rw [List.mem_append, List.mem_append]
  constructor
  · rintro (before | same)
    · have there : b ∈ live := by
        rw [split]
        exact List.mem_append_left _ (List.mem_append_left _ before)
      exact ⟨Or.inl ((at_n.visited b there).mpr before), there⟩
    · rw [List.mem_singleton.mp same]
      exact ⟨Or.inr List.mem_cons_self, here⟩
  · rintro ⟨before | same, there⟩
    · exact Or.inl ((at_n.visited b there).mp before)
    · exact Or.inr same

variable {removes}

/-- When nothing up to the index is removed, the next index is the place of the next one. -/
theorem At.next (at_n : At n live (a :: todo) seen done rest) (here : a ∈ live)
    (kept : ∀ b ∈ seen ++ [a], b ∈ live → b ∉ removes (seen ++ [a])) :
    At (n + 1) (left removes (seen ++ [a]) live) todo (seen ++ [a]) (done ++ [a])
      (todo.filter (· ∈ left removes (seen ++ [a]) live)) := by
  have behind : (done ++ [a]).filter (fun b => b ∉ removes (seen ++ [a])) = done ++ [a] := by
    rw [List.filter_eq_self]
    intro b mem
    obtain ⟨known, there⟩ := (at_n.behind_visited here).mp mem
    simpa using kept b known there
  have split := at_n.left_split removes here
  rw [behind] at split
  refine ⟨split, ?_, at_n.nodup.filter _, rfl, ?_⟩
  · rw [List.length_append, List.length_singleton, at_n.index]
  · intro b mem
    have there := (mem_left.mp mem).1
    rw [at_n.behind_visited here]
    exact (and_iff_left there).symm

theorem At.ends (at_n : At n live (a :: todo) seen done rest) (here : a ∈ live)
    (nothing : todo.filter (· ∈ left removes (seen ++ [a]) live) = []) :
    (left removes (seen ++ [a]) live)[n + 1]? = none := by
  rw [List.getElem?_eq_none_iff, at_n.left_split removes here, nothing, List.append_nil]
  have before : (done ++ [a]).length = n + 1 := by
    rw [List.length_append, at_n.index, List.length_singleton]
  rw [← before]
  exact List.length_filter_le _ _

/-- When something there is removed, the next index passes over the next one. -/
theorem At.skips (at_n : At n live (a :: todo) seen done rest) (here : a ∈ live)
    (removed : ¬ ∀ b ∈ seen ++ [a], b ∈ live → b ∉ removes (seen ++ [a])) {b : α}
    (next : (todo.filter (· ∈ left removes (seen ++ [a]) live)).head? = some b) :
    (left removes (seen ++ [a]) live)[n + 1]? ≠ some b := by
  have shorter : ((done ++ [a]).filter fun b => b ∉ removes (seen ++ [a])).length < n + 1 := by
    rw [← at_n.index, ← List.length_singleton (a := a), ← List.length_append,
      List.length_filter_lt_length_iff_exists]
    simp only [not_forall, not_not] at removed
    obtain ⟨c, known, there, gone⟩ := removed
    exact ⟨c, (at_n.behind_visited here).mpr ⟨known, there⟩, by simpa using gone⟩
  have nodup : (left removes (seen ++ [a]) live).Nodup := at_n.nodup.filter _
  have place : (left removes (seen ++ [a]) live)[((done ++ [a]).filter
      fun b => b ∉ removes (seen ++ [a])).length]? = some b := by
    conv_lhs => rw [at_n.left_split removes here]
    rw [List.getElem?_append_right (Nat.le_refl _), Nat.sub_self, ← List.head?_eq_getElem?]
    exact next
  intro same
  obtain ⟨inside, is⟩ := List.getElem?_eq_some_iff.mp place
  obtain ⟨inside', is'⟩ := List.getElem?_eq_some_iff.mp same
  have index := nodup.getElem_inj_iff.mp (is.trans is'.symm)
  omega

end

variable {removes}

/-- The loop goes on as the walk in turn does if and only if the visits remove only ahead. -/
theorem At.walk_iff {fuel n : Nat} {live todo seen done rest : List α}
    (at_n : At n live todo seen done rest) (enough : rest.length ≤ fuel) :
    walk removes fuel n live seen = inTurn removes todo live seen ↔
      OnlyAhead removes todo live seen := by
  induction todo generalizing fuel n live seen done rest with
  | nil =>
    have none : live[n]? = none := by
      rw [at_n.split, ← at_n.rest_eq, ← at_n.index]
      simp
    rw [walk_none none]
    exact iff_of_true rfl trivial
  | cons a todo ih =>
    by_cases here : a ∈ live
    · obtain ⟨_, visit, longer⟩ := at_n.here here
      rw [longer] at enough
      obtain ⟨fuel, rfl⟩ := Nat.exists_eq_add_of_le' (Nat.le_trans (Nat.le_add_left 1 _) enough)
      rw [walk_some visit, inTurn_here here, OnlyAhead, if_pos here]
      by_cases kept : ∀ b ∈ seen ++ [a], b ∈ live → b ∉ removes (seen ++ [a])
      · have fewer : (todo.filter (· ∈ left removes (seen ++ [a]) live)).length ≤
            (todo.filter (· ∈ live)).length := by
          rw [todo_left]
          exact List.length_filter_le _ _
        rw [and_iff_right (Or.inl kept)]
        exact ih (at_n.next here kept) (by omega)
      · cases next : (todo.filter (· ∈ left removes (seen ++ [a]) live)).head? with
        | none =>
          -- Nothing is left to be passed over.
          have nothing := List.head?_eq_none_iff.mp next
          have gone : ∀ b ∈ todo, b ∉ left removes (seen ++ [a]) live := by
            simpa [List.filter_eq_nil_iff] using nothing
          have ahead : ∀ b ∈ todo, b ∈ live → b ∈ removes (seen ++ [a]) := by
            intro b mem there
            by_contra still
            exact gone b mem (mem_left.mpr ⟨there, still⟩)
          obtain ⟨same, safe⟩ := nothing_left removes gone (seen ++ [a])
          rw [walk_none (at_n.ends here nothing), same]
          exact iff_of_true rfl ⟨Or.inr ahead, safe⟩
        | some b =>
          -- The loop goes on with another one, or with none.
          refine iff_of_false ?_ ?_
          · intro same
            have first := inTurn_next removes todo (left removes (seen ++ [a]) live)
              (seen ++ [a])
            rw [← same, next] at first
            exact at_n.skips here kept next (walk_next removes _ _ _ _ first)
          · rintro ⟨behind | ahead, _⟩
            · exact kept behind
            · have mem := List.mem_filter.mp (List.mem_of_head? next)
              obtain ⟨there, still⟩ := mem_left.mp (by simpa using mem.2)
              exact still (ahead b mem.1 there)
    · rw [inTurn_gone here, OnlyAhead, if_neg here]
      exact ih (at_n.gone here) enough

theorem walk_iff {live : List α} (nodup : live.Nodup) :
    walk removes live.length 0 live [] = inTurn removes live live [] ↔
      OnlyAhead removes live live [] := by
  have start : At 0 live live [] [] live := by
    refine ⟨rfl, rfl, nodup, ?_, ?_⟩
    · rw [List.filter_eq_self]
      intro a mem
      simpa using mem
    · intro a _
      simp
  exact start.walk_iff (Nat.le_refl _)

/-- The fuel is enough for the index to pass the end of the list, which never grows. -/
theorem walk_ends {fuel n : Nat} {live : List α} (enough : live.length ≤ n + fuel) (more : Nat)
    (seen : List α) :
    walk removes (fuel + more) n live seen = walk removes fuel n live seen := by
  induction fuel generalizing n live seen with
  | zero =>
    have none : live[n]? = none := List.getElem?_eq_none enough
    rw [walk_none none, walk_none none]
  | succ fuel ih =>
    cases at_n : live[n]? with
    | none => rw [walk_none at_n, walk_none at_n]
    | some a =>
      have shrinks : (left removes (seen ++ [a]) live).length ≤ live.length :=
        List.length_filter_le _ _
      rw [Nat.succ_add, walk_some at_n, walk_some at_n]
      exact ih (by omega) (seen ++ [a])

/-- What is not visited in turn has been removed by a visit in front of it. -/
theorem inTurn_missed {todo live seen : List α} {a : α} (mem : a ∈ todo) (there : a ∈ live)
    (missed : a ∉ inTurn removes todo live seen) :
    ∃ front back before more, todo = front ++ a :: back ∧ before.Sublist front ∧
      inTurn removes todo live seen = seen ++ before ++ more ∧ a ∈ removes (seen ++ before) := by
  induction todo generalizing live seen with
  | nil => cases mem
  | cons c todo ih =>
    by_cases here : c ∈ live
    · rw [inTurn_here here] at missed ⊢
      obtain ⟨later, longer, _⟩ :=
        inTurn_extends removes todo (left removes (seen ++ [c]) live) (seen ++ [c])
      rcases List.mem_cons.mp mem with rfl | mem
      · rw [longer] at missed
        exact absurd (by simp) missed
      · by_cases removed : a ∈ removes (seen ++ [c])
        · obtain ⟨front, back, rfl⟩ := List.append_of_mem mem
          exact ⟨c :: front, back, [c], later, rfl, (List.nil_sublist front).cons_cons c, longer,
            removed⟩
        · obtain ⟨front, back, before, more, rfl, part, visits, gone⟩ :=
            ih mem (mem_left.mpr ⟨there, removed⟩) missed
          refine ⟨c :: front, back, c :: before, more, rfl, part.cons_cons c, ?_, ?_⟩
          · rw [visits]
            simp
          · rw [List.append_cons]
            exact gone
    · rw [inTurn_gone here] at missed ⊢
      rcases List.mem_cons.mp mem with rfl | mem
      · exact absurd there here
      · obtain ⟨front, back, before, more, rfl, part, visits, gone⟩ := ih mem there missed
        exact ⟨c :: front, back, before, more, rfl, part.cons c, visits, gone⟩

end LiveWalk
