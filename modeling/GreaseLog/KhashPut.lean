import GreaseLog.KhashResize

/- Putting a key into a hash table, and taking one out: the table grows when it has to,
   and a key goes to the last deleted bucket its search has passed. -/
namespace GreaseLog
open OpenAddressing
variable {Key Data : Type} {hash : Key → BitVec 32} {h : KhA Key Data}
  {T : Nat → Slot Key (Option Data)}

theorem init_stores (hash : Key → BitVec 32) :
    Stores hash (kh_init_A : KhA Key Data) fun _ => .empty where
  sized := Or.inl rfl
  flags_length := rfl
  keys_length := rfl
  vals_length := rfl
  shown := fun i bound => absurd bound (Nat.not_lt_zero i)
  table := table_empty _ fun _ _ => rfl
  size := rfl
  n_occupied := rfl
  upper_bound := rfl
  bounded := Nat.le_refl 0

theorem Sized.le {n k : Nat} (sized : Sized n) (small : n < 2 ^ (k + 1)) : n ≤ 2 ^ k := by
  obtain ⟨m, _, _, rfl⟩ := sized
  have less : m < k + 1 := (Nat.pow_lt_pow_iff_right (by decide)).mp small
  exact Nat.pow_le_pow_right (by decide) (Nat.le_of_lt_succ less)

/-- Either there is room for one more key, or kh_put asks for enough of it. -/
theorem room_cases (stores : Stores hash h T) (few : h.size < 2 ^ 30) :
    khRoom hash h = some h ∧ Sized h.n_buckets ∧ h.n_occupied < h.upper_bound ∨
      ∃ asked, khRoom hash h = kh_resize_A hash h asked ∧ Sized (rounded asked) ∧
        h.size < ac_upper (rounded asked) := by
  have double : (h.size <<< 1) % 2 ^ 32 = 2 * h.size := by
    rw [Nat.shiftLeft_eq]
    omega
  have upper := stores.upper_bound
  have length := stores.size
  have count := stores.n_occupied
  have bounded := stores.bounded
  have fewer := length_le_occupied h.n_buckets T
  unfold khRoom
  rw [double]
  rcases stores.sized with none | sized
  · right
    have nothing : entries h.n_buckets T = [] := entries_nil (by simp [none])
    rw [nothing, List.length_nil] at length
    rw [if_pos (by rw [if_pos none] at upper; omega), if_neg (by omega)]
    have least : rounded (h.n_buckets + 1) = 4 := by
      rw [none]
      exact rounded_least (by decide) (by decide)
    refine ⟨_, rfl, ?_, ?_⟩
    · rw [least]
      exact ⟨2, by decide, by decide, rfl⟩
    · rw [least, length]
      decide
  · have big := sized.pos
    rw [if_neg (by omega)] at upper
    split
    · right
      split
      · refine ⟨_, rfl, ?_, ?_⟩
        · rwa [rounded_same sized]
        · rw [rounded_same sized]
          unfold ac_upper
          omega
      · have small : h.n_buckets ≤ 2 ^ 30 := sized.le (by omega)
        have twice := rounded_next sized small
        refine ⟨_, rfl, rounded_sized (by omega) (by omega), ?_⟩
        rw [twice]
        unfold ac_upper at upper ⊢
        omega
    · left
      exact ⟨rfl, sized, by omega⟩

theorem room_spec (stores : Stores hash h T) (few : h.size < 2 ^ 30) :
    ∃ h' T', khRoom hash h = some h' ∧ Stores hash h' T' ∧ Sized h'.n_buckets ∧
      h'.n_occupied < h'.upper_bound ∧ h'.size = h.size ∧
      (entries h'.n_buckets T').Perm (entries h.n_buckets T) := by
  rcases room_cases stores few with ⟨run, sized, room⟩ | ⟨asked, run, sized, enough⟩
  · exact ⟨h, T, run, stores, sized, room, rfl, List.Perm.refl _⟩
  · obtain ⟨h', T', result, stores', buckets, size, occupied', perm⟩ := resize_spec stores sized enough
    have upper := stores'.upper_bound
    have big := sized.pos
    rw [if_neg (by omega), buckets] at upper
    refine ⟨h', T', run.trans result, stores', ?_, by omega, size, ?_⟩
    · rwa [buckets]
    · rwa [buckets]

section Placing
variable {x : Nat} {key : Key}

theorem Stores.placed (stores : Stores hash h T) (sized : Sized h.n_buckets) {j : Nat}
    (within : j < h.n_buckets) (at_x : probe hash h.n_buckets key j = x) (free : (T x).entry = none)
    (before : ∀ j' < j, T (probe hash h.n_buckets key j') ≠ .empty)
    (absent : key ∉ keys h.n_buckets T) (room : h.n_occupied < h.upper_bound)
    {flags : Flags} (wrote : Wrote h.flags x false false flags) {val : Option Data}
    (at_val : h.vals[x]? = some val) :
    Stores hash { h with
        keys := h.keys.set x (some key), flags := flags, size := h.size + 1
        n_occupied := h.n_occupied + (!(T x).taken).toNat }
      (Function.update T x (.live key val)) := by
  have covers := probe_covers hash sized
  have bound : x < h.n_buckets := at_x ▸ covers.inside key j
  have gained := (entries_place bound free key val).length_eq
  have counted := occupied_set (T := T) bound (.live key val)
  constructor
  · exact Or.inr sized
  · exact wrote.length.trans stores.flags_length
  · exact List.length_set.trans stores.keys_length
  · exact stores.vals_length
  · intro i within'
    by_cases same : i = x
    · subst same
      rw [Function.update_self]
      refine ⟨wrote.here, List.getElem?_set_self ?_, at_val⟩
      rwa [stores.keys_length]
    · rw [Function.update_of_ne same]
      exact shown_key (shown_flags (stores.shown i within') same wrote)
        (fun eq => absurd eq same) (some key)
  · subst at_x
    exact stores.table.place covers within free before absent val
  · dsimp only
    rw [gained, List.length_cons, stores.size]
  · dsimp only
    rw [stores.n_occupied]
    cases taken : (T x).taken with
    | true =>
      rw [taken] at counted
      simpa [Slot.taken] using counted.symm
    | false =>
      rw [taken] at counted
      simpa [Slot.taken] using counted.symm
  · exact stores.upper_bound
  · dsimp only
    have most := Bool.toNat_le (!(T x).taken)
    omega

theorem Stores.set_value (stores : Stores hash h T) {old : Option Data} (bound : x < h.n_buckets)
    (is : T x = .live key old) (val : Option Data) :
    Stores hash { h with vals := h.vals.set x val } (Function.update T x (.live key val)) := by
  have gained := (entries_set (T := T) bound (.live key val)).length_eq
  have had := (entries_at (T := T) bound).length_eq
  have counted := occupied_set (T := T) bound (.live key val)
  rw [is] at had counted
  constructor
  · exact stores.sized
  · exact stores.flags_length
  · exact stores.keys_length
  · exact List.length_set.trans stores.vals_length
  · intro i within'
    have shown := stores.shown i within'
    by_cases same : i = x
    · subst same
      rw [is] at shown
      rw [Function.update_self]
      refine ⟨shown.1, shown.2.1, List.getElem?_set_self ?_⟩
      rwa [stores.vals_length]
    · rw [Function.update_of_ne same]
      exact shown_val shown (fun eq => absurd eq same) val
  · apply stores.table.change bound
    · intro empty
      cases empty
    · intro k v eq
      cases eq
      exact ⟨old, is⟩
  · exact (stores.size.trans had).trans gained.symm
  · have same : (Slot.live key val).taken = (Slot.live key old).taken := rfl
    rw [same] at counted
    exact stores.n_occupied.trans (Nat.add_right_cancel counted).symm
  · exact stores.upper_bound
  · exact stores.bounded

end Placing

section Put
variable [DecidableEq Key]

/-- What the loop of kh_put has passed: the site, if any, is a deleted bucket on the way. -/
def Site (T : Nat → Slot Key (Option Data)) (n : Nat) (way : Nat → Nat) (k site : Nat) : Prop :=
  site = n ∨ ∃ i < k, site = way i ∧ T site = .deleted

theorem putLoop_stops (stores : Stores hash h T) (sized : Sized h.n_buckets) (key : Key) {j : Nat}
    (within : j < h.n_buckets) (stops : Stops (T (probe hash h.n_buckets key j)) key)
    (passed : ∀ j' < j, ¬ Stops (T (probe hash h.n_buckets key j')) key)
    {left fuel : Nat} (enough : left < fuel) {k : Nat} (rest : k + left = j) (site : Nat)
    (sited : Site T h.n_buckets (probe hash h.n_buckets key) k site) :
    ∃ x, khPutLoop h key (h.n_buckets - 1) (ac_inc (hash key) (h.n_buckets - 1))
        (probe hash h.n_buckets key 0) fuel (probe hash h.n_buckets key k) site = some x ∧
      (x = probe hash h.n_buckets key j ∨
        T (probe hash h.n_buckets key j) = .empty ∧
          ∃ i < j, x = probe hash h.n_buckets key i ∧ T x = .deleted) := by
  have inside := (probe_covers hash sized).inside key
  induction left generalizing fuel k site with
  | zero =>
    obtain rfl : k = j := rest
    obtain ⟨fuel, rfl⟩ := Nat.exists_eq_add_of_lt enough
    have shown := stores.shown _ (inside k)
    have here := (stops_shown shown key).1 stops
    have isempty := shown_isempty shown
    have run : khPutLoop h key (h.n_buckets - 1) (ac_inc (hash key) (h.n_buckets - 1))
        (probe hash h.n_buckets key 0) (0 + fuel + 1) (probe hash h.n_buckets key k) site =
        some (if (!(T (probe hash h.n_buckets key k)).taken) && site != h.n_buckets then site
          else probe hash h.n_buckets key k) := by
      simp [khPutLoop, here, isempty]
    refine ⟨_, run, ?_⟩
    split
    · rename_i both
      rw [Bool.and_eq_true, Bool.not_eq_true', taken_false, bne_iff_ne] at both
      right
      exact ⟨both.1, sited.resolve_left both.2⟩
    · exact Or.inl rfl
  | succ left ih =>
    cases fuel with
    | zero => cases enough
    | succ fuel =>
      have shown := stores.shown _ (inside k)
      have here := (stops_shown shown key).2 (passed k (by omega))
      have isdel := shown_isdel shown
      have not_back := probe_round hash sized key (Nat.succ_pos k) (by omega)
      have sited' : Site T h.n_buckets (probe hash h.n_buckets key) (k + 1)
          (if (T (probe hash h.n_buckets key k)).taken && (T (probe hash h.n_buckets key k)).entry.isNone
            then probe hash h.n_buckets key k else site) := by
        split
        · rename_i deleted
          refine Or.inr ⟨k, Nat.lt_succ_self k, rfl, ?_⟩
          cases is : T (probe hash h.n_buckets key k) with
          | empty =>
            rw [is] at deleted
            cases deleted
          | deleted => rfl
          | live _ _ =>
            rw [is] at deleted
            cases deleted
        · rcases sited with none | ⟨i, less, is⟩
          · exact Or.inl none
          · exact Or.inr ⟨i, Nat.lt_succ_of_lt less, is⟩
      obtain ⟨x, run, result⟩ := ih (Nat.lt_of_succ_lt_succ enough) (k := k + 1) (by omega) _ sited'
      refine ⟨x, ?_, result⟩
      simp only [khPutLoop, here, isdel, Option.bind_eq_bind, Option.bind_some, Bool.false_eq_true,
        if_false, probe_next hash sized]
      rw [if_neg not_back]
      split
      · rename_i deleted
        rwa [if_pos deleted] at run
      · rename_i kept
        rwa [if_neg kept] at run

/-- The bucket for a key that is not there holds none, and no bucket before it is empty. -/
theorem bucket_spec (stores : Stores hash h T) (sized : Sized h.n_buckets) {key : Key}
    (absent : key ∉ keys h.n_buckets T) :
    ∃ x j, khBucket hash h key = some x ∧ probe hash h.n_buckets key j = x ∧ j < h.n_buckets ∧
      (∀ j' < j, T (probe hash h.n_buckets key j') ≠ .empty) ∧ (T x).entry = none := by
  have covers := probe_covers hash sized
  have inside := covers.inside key
  obtain ⟨j, within, stops, passed⟩ := exists_stop covers (stores.room sized) key
  have free : T (probe hash h.n_buckets key j) = .empty := by
    rcases stops with free | ⟨v, is⟩
    · exact free
    · exact absurd (mem_keys.mpr ⟨_, inside j, v, is⟩) absent
  have before : ∀ j' < j, T (probe hash h.n_buckets key j') ≠ .empty :=
    fun j' less is => passed j' less (Or.inl is)
  have first := shown_isempty (stores.shown _ (inside 0))
  cases taken : (T (probe hash h.n_buckets key 0)).taken with
  | false =>
    rw [taken_false] at taken
    rw [taken] at first
    refine ⟨_, 0, ?_, rfl, by omega, by simp, by rw [taken]; rfl⟩
    simp [khBucket, probe_start hash sized, first, Slot.taken]
  | true =>
    rw [taken] at first
    obtain ⟨x, run, result⟩ := putLoop_stops stores sized key within stops passed within
      (Nat.zero_add j) h.n_buckets (Or.inl rfl)
    have runs : khBucket hash h key = some x := by
      simp only [khBucket, probe_start hash sized, first, Option.bind_eq_bind, Option.bind_some]
      exact run
    rcases result with rfl | ⟨_, i, less, rfl, is⟩
    · exact ⟨_, j, runs, rfl, within, before, by rw [free]; rfl⟩
    · refine ⟨_, i, runs, rfl, by omega, ?_, by rw [is]; rfl⟩
      exact fun j' earlier => before j' (by omega)

theorem put_written {g : KhA Key Data} {S : Nat → Slot Key (Option Data)}
    (roomy : khRoom hash h = some g) (holds : Stores hash g S) (sized : Sized g.n_buckets)
    (room : g.n_occupied < g.upper_bound) {key : Key} (absent : key ∉ keys g.n_buckets S) :
    ∃ h' x j r val, kh_put_A hash h key = some (h', x, r) ∧ 0 < r ∧
      Stores hash h' (Function.update S x (.live key val)) ∧ h'.n_buckets = g.n_buckets ∧
      probe hash g.n_buckets key j = x ∧ j < g.n_buckets ∧
      (∀ j' < j, S (probe hash g.n_buckets key j') ≠ .empty) ∧ (S x).entry = none := by
  obtain ⟨x, j, search, at_x, within, before, vacant⟩ := bucket_spec holds sized absent
  have bound : x < g.n_buckets := at_x ▸ (probe_covers hash sized).inside key j
  have shown := holds.shown x bound
  have stored : ¬ g.keys.length ≤ x := by
    rw [holds.keys_length]
    omega
  have value : x < g.vals.length := by rwa [holds.vals_length]
  have at_val : g.vals[x]? = some g.vals[x] := List.getElem?_eq_getElem value
  have isempty := shown_isempty shown
  have isdel := shown_isdel shown
  have placed := fun (flags : Flags) (wrote : Wrote g.flags x false false flags) =>
    holds.placed sized within at_x vacant before absent room wrote at_val
  cases is : S x with
  | live k v =>
    rw [is] at vacant
    cases vacant
  | empty =>
    rw [is] at shown isempty placed
    obtain ⟨flags, run, wrote⟩ := set_isboth_false_wrote shown
    refine ⟨_, x, j, 1, g.vals[x], ?_, by decide, placed flags wrote, rfl, at_x, within, before, vacant⟩
    simp only [kh_put_A, roomy, search, isempty, run, if_neg stored, Option.bind_eq_bind,
      Option.bind_some]
    rfl
  | deleted =>
    rw [is] at shown isempty isdel placed
    obtain ⟨flags, run, wrote⟩ := set_isboth_false_wrote shown
    refine ⟨_, x, j, 2, g.vals[x], ?_, by decide, placed flags wrote, rfl, at_x, within, before, vacant⟩
    simp only [kh_put_A, roomy, search, isempty, isdel, run, if_neg stored, Option.bind_eq_bind,
      Option.bind_some]
    rfl

theorem put_absent (stores : Stores hash h T) (few : h.size < 2 ^ 30) {key : Key}
    (absent : key ∉ keys h.n_buckets T) :
    ∃ h' T' x r val, kh_put_A hash h key = some (h', x, r) ∧ 0 < r ∧ Stores hash h' T' ∧
      x < h'.n_buckets ∧ T' x = .live key val ∧
      (entries h'.n_buckets T').Perm ((key, val) :: entries h.n_buckets T) := by
  obtain ⟨g, S, roomy, holds, sized, room, _, perm⟩ := room_spec stores few
  have fresh : key ∉ keys g.n_buckets S := by
    intro member
    exact absent ((perm.map Prod.fst).mem_iff.mp member)
  obtain ⟨h', x, j, r, val, run, more, stores', buckets, at_x, _, _, vacant⟩ :=
    put_written roomy holds sized room fresh
  have bound : x < g.n_buckets := at_x ▸ (probe_covers hash sized).inside key j
  have gained := (entries_place bound vacant key val).trans (perm.cons _)
  refine ⟨h', _, x, r, val, run, more, stores', ?_, Function.update_self .., ?_⟩
  · rwa [buckets]
  · rwa [buckets]

end Put

section Placing
variable {x : Nat} {key : Key}

theorem del_spec (stores : Stores hash h T) {val : Option Data} (bound : x < h.n_buckets)
    (is : T x = .live key val) :
    ∃ h', kh_del_A h x = some h' ∧ Stores hash h' (Function.update T x .deleted) ∧
      h'.n_buckets = h.n_buckets ∧ h'.size + 1 = h.size := by
  have shown := stores.shown x bound
  have either := shown_iseither shown
  rw [is] at shown either
  obtain ⟨flags, run, wrote⟩ := set_isdel_true_wrote shown.1
  have lost := (entries_remove bound is).length_eq
  have counted := occupied_set (T := T) bound .deleted
  rw [is] at counted
  rw [List.length_cons] at lost
  have size := stores.size
  refine ⟨{ h with flags := flags, size := h.size - 1 }, ?_, ?_, rfl, by dsimp only; omega⟩
  · simp [kh_del_A, either, Slot.entry, run, Nat.ne_of_lt bound]
  · constructor
    · exact stores.sized
    · exact wrote.length.trans stores.flags_length
    · exact stores.keys_length
    · exact stores.vals_length
    · intro i within'
      by_cases same : i = x
      · subst same
        rw [Function.update_self]
        exact wrote.here
      · rw [Function.update_of_ne same]
        exact shown_flags (stores.shown i within') same wrote
    · apply stores.table.change bound
      · intro empty
        cases empty
      · intro k v eq
        cases eq
    · dsimp only
      omega
    · have same : (Slot.deleted : Slot Key (Option Data)).taken = (Slot.live key val).taken := rfl
      rw [same] at counted
      exact stores.n_occupied.trans (Nat.add_right_cancel counted).symm
    · exact stores.upper_bound
    · exact stores.bounded

end Placing

theorem clear_spec (stores : Stores hash h T) :
    ∃ h', kh_clear_A h = some h' ∧ Stores hash h' (fun _ => .empty) ∧
      h'.n_buckets = h.n_buckets ∧ h'.size = 0 := by
  have length := stores.flags_length
  have nothing : entries h.n_buckets (fun _ => (.empty : Slot Key (Option Data))) = [] :=
    entries_nil (by simp)
  have unoccupied : occupied h.n_buckets (fun _ => (.empty : Slot Key (Option Data))) = 0 := by
    rw [occupied_eq_length (by simp), nothing, List.length_nil]
  rcases stores.sized with none | sized
  · have bare : entries h.n_buckets T = [] := entries_nil (by simp [none])
    have free : occupied h.n_buckets T = 0 := by simp [occupied, none]
    rw [if_pos none] at length
    have empty : h.flags = [] := List.length_eq_zero_iff.mp length
    refine ⟨h, by simp [kh_clear_A, empty], ?_, rfl, by rw [stores.size, bare, List.length_nil]⟩
    constructor
    · exact stores.sized
    · exact stores.flags_length
    · exact stores.keys_length
    · exact stores.vals_length
    · intro i bound
      omega
    · exact table_empty _ fun _ _ => rfl
    · rw [stores.size, bare, nothing]
    · rw [stores.n_occupied, free, unoccupied]
    · exact stores.upper_bound
    · exact stores.bounded
  · have big := sized.pos
    have some_buckets : h.n_buckets ≠ 0 := by omega
    rw [if_neg some_buckets] at length
    have words : 0 < ac_fsize h.n_buckets :=
      (Nat.zero_le _).trans_lt (word_within sized (show 0 < h.n_buckets by omega))
    have some_flags : h.flags ≠ [] := by
      intro empty
      rw [empty, List.length_nil] at length
      omega
    refine ⟨{ h with
      flags := ac_fresh h.n_buckets ++ h.flags.drop (ac_fsize h.n_buckets), size := 0
      n_occupied := 0 }, ?_, ?_, rfl, rfl⟩
    · have whole : ¬ h.flags.length < ac_fsize h.n_buckets := by omega
      rw [kh_clear_A, if_neg some_flags, if_neg whole]
    · have all : ac_fresh h.n_buckets ++ h.flags.drop (ac_fsize h.n_buckets) = ac_fresh h.n_buckets := by
        rw [← length, List.drop_length, List.append_nil]
      rw [all]
      constructor
      · exact stores.sized
      · exact List.length_replicate.trans (if_neg some_buckets).symm
      · exact stores.keys_length
      · exact stores.vals_length
      · exact fun i bound => fresh_bits sized bound
      · exact table_empty _ fun _ _ => rfl
      · rw [nothing, List.length_nil]
      · exact unoccupied.symm
      · exact stores.upper_bound
      · exact Nat.zero_le _

end GreaseLog
