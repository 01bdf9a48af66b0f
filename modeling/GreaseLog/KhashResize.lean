import GreaseLog.KhashSlots

/- A rehash moves every entry into the new buckets within the arrays it has: what an
   entry finds in its place is the next one to be moved. -/
namespace GreaseLog
open OpenAddressing

def Filled (y : BitVec 32) (k : Nat) (w : BitVec 32) : Prop :=
  ∀ i, w.getLsbD i = true ↔ ∃ j < k, y.getLsbD (i + j) = true

theorem filled_double {y w : BitVec 32} {k : Nat} (filled : Filled y k w) :
    Filled y (k + k) (w ||| w >>> k) := by
  intro i
  rw [BitVec.getLsbD_or, Bool.or_eq_true, BitVec.getLsbD_ushiftRight, filled i, filled (k + i)]
  constructor
  · rintro (⟨j, small, set⟩ | ⟨j, small, set⟩)
    · exact ⟨j, by omega, set⟩
    · exact ⟨k + j, by omega, by rwa [show i + (k + j) = k + i + j by omega]⟩
  · intro ⟨j, small, set⟩
    by_cases low : j < k
    · exact Or.inl ⟨j, low, set⟩
    · exact Or.inr ⟨j - k, by omega, by rwa [show k + i + (j - k) = i + j by omega]⟩

theorem kroundup32_power {x : BitVec 32} {m : Nat} (small : m ≤ 31) (above : x.toNat ≤ 2 ^ m)
    (positive : 0 < x.toNat) (below : ∀ k < m, 2 ^ k < x.toNat) : (kroundup32 x).toNat = 2 ^ m := by
  have less : (x - 1).toNat = x.toNat - 1 := by
    have bound := x.isLt
    rw [BitVec.toNat_sub]
    simp only [BitVec.ofNat_eq_ofNat, BitVec.toNat_ofNat]
    omega
  have top : ∀ i, m ≤ i → (x - 1).getLsbD i = false := by
    intro i high
    rw [BitVec.getLsbD, less]
    have most : 2 ^ m ≤ 2 ^ i := Nat.pow_le_pow_right (by decide) high
    exact Nat.testBit_lt_two_pow (by omega)
  have set : ∀ k, m = k + 1 → (x - 1).getLsbD k = true := by
    rintro k rfl
    have least := below k (Nat.lt_succ_self k)
    rw [BitVec.getLsbD, less]
    exact Nat.testBit_of_two_pow_le_and_two_pow_add_one_gt (by omega) (by omega)
  have one : Filled (x - 1) 1 (x - 1) := by
    intro i
    constructor
    · exact fun set => ⟨0, Nat.one_pos, set⟩
    · rintro ⟨j, zero, set⟩
      obtain rfl : j = 0 := by omega
      exact set
  have filled := filled_double (filled_double (filled_double (filled_double (filled_double one))))
  have ones : kroundup32 x = BitVec.ofNat 32 (2 ^ m - 1) + 1 := by
    rw [kroundup32]
    congr 1
    apply BitVec.eq_of_getLsbD_eq
    intro i bound
    rw [BitVec.getLsbD_ofNat, Nat.testBit_two_pow_sub_one, Bool.eq_iff_iff]
    refine (filled i).trans ?_
    simp only [bound, decide_true, Bool.true_and, decide_eq_true_eq]
    constructor
    · intro ⟨j, _, bit⟩
      by_contra high
      rw [top _ (by omega)] at bit
      cases bit
    · intro low
      exact ⟨m - 1 - i, by omega, set _ (by omega)⟩
  have power : 2 ^ m ≤ 2 ^ 31 := Nat.pow_le_pow_right (by decide) small
  have atLeast : 1 ≤ 2 ^ m := Nat.one_le_two_pow
  rw [ones, BitVec.toNat_add, BitVec.toNat_ofNat]
  simp only [BitVec.ofNat_eq_ofNat, BitVec.toNat_ofNat]
  omega

theorem rounded_power {x m : Nat} (low : 2 ≤ m) (high : m ≤ 31) (above : x ≤ 2 ^ m)
    (below : 2 ^ (m - 1) < x) : rounded x = 2 ^ m := by
  have power : 2 ^ m ≤ 2 ^ 31 := Nat.pow_le_pow_right (by decide) high
  have four : 2 ^ 2 ≤ 2 ^ m := Nat.pow_le_pow_right (by decide) low
  have half : 1 ≤ 2 ^ (m - 1) := Nat.one_le_two_pow
  have exact : (BitVec.ofNat 32 x).toNat = x := by
    rw [BitVec.toNat_ofNat]
    omega
  have up : (kroundup32 (BitVec.ofNat 32 x)).toNat = 2 ^ m := by
    apply kroundup32_power high
    · rwa [exact]
    · omega
    · intro k less
      rw [exact]
      exact (Nat.pow_le_pow_right (by decide) (by omega)).trans_lt below
  rw [rounded, up]
  exact if_neg (by omega)

theorem rounded_least {x : Nat} (positive : 0 < x) (small : x ≤ 4) : rounded x = 4 := by
  have cases : x = 1 ∨ x = 2 ∨ x = 3 ∨ x = 4 := by omega
  rcases cases with rfl | rfl | rfl | rfl <;> decide

theorem rounded_sized {x : Nat} (positive : 0 < x) (small : x ≤ 2 ^ 31) : Sized (rounded x) := by
  by_cases few : x ≤ 4
  · rw [rounded_least positive few]
    exact ⟨2, by decide, by decide, rfl⟩
  · have some : ∃ m, x ≤ 2 ^ m := ⟨31, small⟩
    have top : Nat.find some ≤ 31 := Nat.find_min' some small
    have least : 2 < Nat.find some := by
      by_contra less
      have most : 2 ^ Nat.find some ≤ 2 ^ 2 := Nat.pow_le_pow_right (by decide) (by omega)
      have above := Nat.find_spec some
      omega
    have below := Nat.find_min some (show Nat.find some - 1 < Nat.find some by omega)
    have power := rounded_power (by omega) top (Nat.find_spec some) (Nat.lt_of_not_le below)
    exact ⟨Nat.find some, by omega, top, power⟩

/-- Twice the buckets, or the same number. -/
theorem rounded_next {n : Nat} (sized : Sized n) (small : n ≤ 2 ^ 30) : rounded (n + 1) = 2 * n := by
  obtain ⟨m, low, _, rfl⟩ := sized
  have less : m ≤ 30 := by
    by_contra more
    have big : 2 ^ 31 ≤ 2 ^ m := Nat.pow_le_pow_right (by decide) (by omega)
    omega
  have one : 1 ≤ 2 ^ m := Nat.one_le_two_pow
  rw [rounded_power (m := m + 1) (by omega) (by omega) (by rw [Nat.pow_succ]; omega)
    (by rw [Nat.add_sub_cancel]; omega), Nat.pow_succ, Nat.mul_comm]

theorem rounded_same {n : Nat} (sized : Sized n) : rounded (n - 1) = n := by
  have big := sized.pos
  by_cases four : n = 4
  · subst four
    decide
  · obtain ⟨m, low, high, rfl⟩ := sized
    have more : 2 < m := by
      by_contra less
      obtain rfl : m = 2 := by omega
      exact four rfl
    obtain ⟨k, rfl⟩ := Nat.exists_eq_add_of_lt more
    rw [rounded_power (m := 2 + k + 1) (by omega) high (by omega)]
    have half : 2 ^ (2 + k + 1) = 2 * 2 ^ (2 + k) := by rw [Nat.pow_succ, Nat.mul_comm]
    rw [Nat.add_sub_cancel]
    omega

theorem realloc_length {α : Type} (cells : Cells α) (n : Nat) : (realloc cells n).length = n := by
  rw [realloc, List.length_append, List.length_take, List.length_replicate]
  omega

theorem realloc_getElem {α : Type} {cells : Cells α} {n i : Nat} (kept : i < n)
    (there : i < cells.length) : (realloc cells n)[i]? = cells[i]? := by
  rw [realloc, List.getElem?_append_left, List.getElem?_take_of_lt kept]
  rw [List.length_take]
  omega

section Rehash
variable {Key Data : Type} {hash : Key → BitVec 32}

/-- The arrays in the middle of a rehash: the old flags speak of the entries still to be
    moved, the new ones of those that have been. -/
structure Rehash (hash : Key → BitVec 32) (m : Nat) (all hand : List (Key × Option Data))
    (h : KhA Key Data) (new_flags : Flags) (F G : Nat → Slot Key (Option Data)) : Prop where
  moving : Moving h.n_buckets m (probe hash m) all hand F G
  old : ∀ i < h.n_buckets, Shown h.flags h.keys h.vals i (F i)
  new : ∀ i < m, Shown new_flags h.keys h.vals i (G i)
  keys_room : h.n_buckets ≤ h.keys.length ∧ m ≤ h.keys.length
  vals_room : h.n_buckets ≤ h.vals.length ∧ m ≤ h.vals.length
  flags_length : new_flags.length = ac_fsize m

structure Frame (h h' : KhA Key Data) : Prop where
  n_buckets : h'.n_buckets = h.n_buckets
  size : h'.size = h.size
  keys_length : h'.keys.length = h.keys.length
  vals_length : h'.vals.length = h.vals.length

theorem Frame.refl (h : KhA Key Data) : Frame h h := ⟨rfl, rfl, rfl, rfl⟩

theorem Frame.trans {a b c : KhA Key Data} (first : Frame a b) (second : Frame b c) : Frame a c :=
  ⟨second.n_buckets.trans first.n_buckets, second.size.trans first.size,
    second.keys_length.trans first.keys_length, second.vals_length.trans first.vals_length⟩

def Less (F F' : Nat → Slot Key (Option Data)) : Prop :=
  ∀ i key val, F' i = .live key val → F i = .live key val

theorem less_remove (F : Nat → Slot Key (Option Data)) (x : Nat) :
    Less F (Function.update F x .deleted) := by
  intro i key val is
  by_cases same : i = x
  · subst same
    rw [Function.update_self] at is
    cases is
  · rwa [Function.update_of_ne same] at is

variable {m : Nat} {all : List (Key × Option Data)} {h : KhA Key Data} {new_flags : Flags}
  {F G : Nat → Slot Key (Option Data)}

theorem emptyLoop_first {hash : Key → BitVec 32} (sized : Sized m)
    {flags : Flags} (isempty : ∀ i < m, ac_isempty flags i = some !(G i).taken) (key : Key) {j : Nat}
    (free : G (probe hash m key j) = .empty) (before : ∀ j' < j, G (probe hash m key j') ≠ .empty)
    {left fuel : Nat} (enough : left < fuel) {k : Nat} (rest : k + left = j) :
    khEmptyLoop flags (m - 1) (ac_inc (hash key) (m - 1)) fuel (probe hash m key k) =
      some (probe hash m key j) := by
  have inside := (probe_covers hash sized).inside key
  induction left generalizing fuel k with
  | zero =>
    obtain rfl : k = j := rest
    obtain ⟨fuel, rfl⟩ := Nat.exists_eq_add_of_lt enough
    have here := isempty _ (inside k)
    rw [free] at here
    simp [khEmptyLoop, here, Slot.taken]
  | succ left ih =>
    cases fuel with
    | zero => cases enough
    | succ fuel =>
      have here := isempty _ (inside k)
      have taken : (G (probe hash m key k)).taken = true := by
        by_contra not
        rw [Bool.not_eq_true, taken_false] at not
        exact before k (by omega) not
      have next := ih (Nat.lt_of_succ_lt_succ enough) (k := k + 1) (by omega)
      rw [taken] at here
      simp only [khEmptyLoop, here, Option.bind_eq_bind, Option.bind_some, Bool.not_true,
        Bool.false_eq_true, if_false, probe_next hash sized]
      exact next

/-- Where the entry in hand goes: the first empty bucket on its way, now marked as taken. -/
structure Placing (hash : Key → BitVec 32) (m : Nat) (h : KhA Key Data) (new_flags : Flags)
    (G : Nat → Slot Key (Option Data)) (key : Key) (val : Option Data) (x j : Nat)
    (flags' : Flags) : Prop where
  within : j < m
  place : probe hash m key j = x
  free : G x = .empty
  before : ∀ j' < j, G (probe hash m key j') ≠ .empty
  found : khEmptyLoop new_flags (m - 1) (ac_inc (hash key) (m - 1)) (m - 1 + 1)
    ((hash key).toNat &&& (m - 1)) = some x
  marked : ac_set_isempty_false new_flags x = some flags'
  stored : ¬ (h.keys.length ≤ x ∨ h.vals.length ≤ x)
  new : ∀ i < m, Shown flags' (h.keys.set x (some key)) (h.vals.set x val) i
    (Function.update G x (.live key val) i)
  length : flags'.length = ac_fsize m

section Kick
variable {key : Key} {val : Option Data}

theorem exists_placing (sized : Sized m) (nodup : (all.map Prod.fst).Nodup) (fits : all.length < m)
    (rehash : Rehash hash m all [(key, val)] h new_flags F G) :
    ∃ x j flags', Placing hash m h new_flags G key val x j flags' := by
  have covers := probe_covers hash sized
  have count := rehash.moving.count
  have room : occupied m G < m := by
    rw [List.length_singleton] at count
    omega
  obtain ⟨j, within, stops, passed⟩ := exists_stop covers room key
  have inside := covers.inside key j
  have absent := rehash.moving.absent nodup
  have free : G (probe hash m key j) = .empty := by
    rcases stops with free | ⟨v, is⟩
    · exact free
    · exact absurd (mem_keys.mpr ⟨_, inside, v, is⟩) absent
  have before : ∀ j' < j, G (probe hash m key j') ≠ .empty :=
    fun j' less is => passed j' less (Or.inl is)
  have found := emptyLoop_first sized (fun i bound => shown_isempty (rehash.new i bound)) key free
    before (show j < m - 1 + 1 by omega) (Nat.zero_add j)
  rw [← probe_start hash sized] at found
  have bits : Bits new_flags (probe hash m key j) true false := by
    have shown := rehash.new _ inside
    rwa [free] at shown
  obtain ⟨flags', marked, wrote⟩ := set_isempty_false_wrote bits
  have in_keys := Nat.lt_of_lt_of_le inside rehash.keys_room.2
  have in_vals := Nat.lt_of_lt_of_le inside rehash.vals_room.2
  refine ⟨_, j, flags', within, rfl, free, before, found, marked, by omega, ?_,
    wrote.length.trans rehash.flags_length⟩
  intro i bound
  by_cases same : i = probe hash m key j
  · subst same
    rw [Function.update_self]
    exact ⟨wrote.here, List.getElem?_set_self in_keys, List.getElem?_set_self in_vals⟩
  · rw [Function.update_of_ne same]
    exact shown_elsewhere (rehash.new i bound) same wrote _ _

variable {x j : Nat} {flags' : Flags}

theorem Placing.kicks (placing : Placing hash m h new_flags G key val x j flags') (sized : Sized m)
    (nodup : (all.map Prod.fst).Nodup) (rehash : Rehash hash m all [(key, val)] h new_flags F G)
    (old : x < h.n_buckets) {key' : Key} {val' : Option Data} (is : F x = .live key' val') (fuel : Nat) :
    ∃ flags, khKickOut hash (m - 1) (fuel + 1) h new_flags key val =
        khKickOut hash (m - 1) fuel
          { h with flags := flags, keys := h.keys.set x (some key), vals := h.vals.set x val }
          flags' key' val' ∧
      Rehash hash m all [(key', val')]
        { h with flags := flags, keys := h.keys.set x (some key), vals := h.vals.set x val }
        flags' (Function.update F x .deleted) (Function.update G x (.live key val)) := by
  have shown := rehash.old x old
  have either := shown_iseither shown
  rw [is] at either shown
  obtain ⟨flags, removed, wrote⟩ := set_isdel_true_wrote shown.1
  refine ⟨flags, ?_, ?_⟩
  · simp only [khKickOut, placing.found, placing.marked, khUnmoved, if_pos old, either, removed,
      shown.2.1, shown.2.2, if_neg placing.stored, Option.bind_eq_bind, Option.bind_some,
      Option.map_some, Slot.entry]
    simp
  · constructor
    · have move := rehash.moving.kick nodup (probe_covers hash sized) placing.within
      rw [placing.place] at move
      exact move placing.free placing.before old is
    · intro i bound
      by_cases same : i = x
      · subst same
        rw [Function.update_self]
        exact wrote.here
      · rw [Function.update_of_ne same]
        exact shown_elsewhere (rehash.old i bound) same wrote _ _
    · exact placing.new
    · simpa using rehash.keys_room
    · simpa using rehash.vals_room
    · exact placing.length

theorem Placing.settles (placing : Placing hash m h new_flags G key val x j flags') (sized : Sized m)
    (nodup : (all.map Prod.fst).Nodup) (rehash : Rehash hash m all [(key, val)] h new_flags F G)
    (unused : x < h.n_buckets → (F x).entry = none) (fuel : Nat) :
    khKickOut hash (m - 1) (fuel + 1) h new_flags key val =
        some ({ h with keys := h.keys.set x (some key), vals := h.vals.set x val }, flags') ∧
      Rehash hash m all [] { h with keys := h.keys.set x (some key), vals := h.vals.set x val }
        flags' F (Function.update G x (.live key val)) := by
  have moved : khUnmoved h x = some false := by
    by_cases old : x < h.n_buckets
    · rw [khUnmoved, if_pos old, shown_iseither (rehash.old x old), unused old]
      rfl
    · rw [khUnmoved, if_neg old]
  constructor
  · simp only [khKickOut, placing.found, placing.marked, moved, if_neg placing.stored,
      Option.bind_eq_bind, Option.bind_some]
    rfl
  · constructor
    · have move := rehash.moving.settle nodup (probe_covers hash sized) placing.within
      rw [placing.place] at move
      exact move placing.free placing.before unused
    · intro i bound
      have free : i = x → (F i).entry = none := by
        rintro rfl
        exact unused bound
      exact shown_val (shown_key (rehash.old i bound) free _) free _
    · exact placing.new
    · simpa using rehash.keys_room
    · simpa using rehash.vals_room
    · exact placing.length

end Kick

/-- The entry in hand is put away, and those it moves in turn. -/
theorem kickOut_moves (sized : Sized m) (nodup : (all.map Prod.fst).Nodup) (fits : all.length < m)
    {fuel : Nat} {key : Key} {val : Option Data}
    (rehash : Rehash hash m all [(key, val)] h new_flags F G)
    (enough : (entries h.n_buckets F).length < fuel) :
    ∃ h' new_flags' F' G', khKickOut hash (m - 1) fuel h new_flags key val = some (h', new_flags') ∧
      Rehash hash m all [] h' new_flags' F' G' ∧ Frame h h' ∧ Less F F' := by
  induction fuel generalizing h new_flags F G key val with
  | zero => cases enough
  | succ fuel ih =>
    obtain ⟨x, j, flags', placing⟩ := exists_placing sized nodup fits rehash
    by_cases kicks : x < h.n_buckets ∧ ∃ k v, F x = .live k v
    · obtain ⟨old, key', val', is⟩ := kicks
      obtain ⟨flags, step, next⟩ := placing.kicks sized nodup rehash old is fuel
      have fewer : (entries h.n_buckets (Function.update F x .deleted)).length < fuel := by
        have lost := (entries_remove old is).length_eq
        rw [List.length_cons] at lost
        omega
      obtain ⟨h', nf, F', G', run, done, frame, less⟩ := ih next fewer
      refine ⟨h', nf, F', G', step.trans run, done, ?_, ?_⟩
      · have first : Frame h { h with
            flags := flags, keys := h.keys.set x (some key), vals := h.vals.set x val } :=
          ⟨rfl, rfl, List.length_set, List.length_set⟩
        exact first.trans frame
      · exact fun i k v live => less_remove F x i k v (less i k v live)
    · have unused : x < h.n_buckets → (F x).entry = none := by
        intro old
        cases is : F x with
        | empty => rfl
        | deleted => rfl
        | live k v => exact absurd ⟨old, k, v, is⟩ kicks
      obtain ⟨run, done⟩ := placing.settles sized nodup rehash unused fuel
      exact ⟨_, _, F, _, run, done, ⟨rfl, rfl, List.length_set, List.length_set⟩,
        fun _ _ _ live => live⟩

theorem rehash_take (rehash : Rehash hash m all [] h new_flags F G) {j : Nat}
    (bound : j < h.n_buckets) {key : Key} {val : Option Data} (is : F j = .live key val) :
    ∃ flags, khRehashBucket hash (m - 1) (h, new_flags) j =
        khKickOut hash (m - 1) (h.n_buckets + 1) { h with flags := flags } new_flags key val ∧
      Rehash hash m all [(key, val)] { h with flags := flags } new_flags
        (Function.update F j .deleted) G := by
  have shown := rehash.old j bound
  have either := shown_iseither shown
  rw [is] at shown either
  obtain ⟨flags, removed, wrote⟩ := set_isdel_true_wrote shown.1
  refine ⟨flags, ?_, ?_⟩
  · simp only [khRehashBucket, either, removed, shown.2.1, shown.2.2, Slot.entry]
    rfl
  · constructor
    · exact rehash.moving.take bound is
    · intro i within
      by_cases same : i = j
      · subst same
        rw [Function.update_self]
        exact wrote.here
      · rw [Function.update_of_ne same]
        exact shown_flags (rehash.old i within) same wrote
    · exact rehash.new
    · exact rehash.keys_room
    · exact rehash.vals_room
    · exact rehash.flags_length

theorem rehash_skip (rehash : Rehash hash m all [] h new_flags F G) {j : Nat}
    (bound : j < h.n_buckets) (none : (F j).entry = none) :
    khRehashBucket hash (m - 1) (h, new_flags) j = some (h, new_flags) := by
  have either := shown_iseither (rehash.old j bound)
  rw [none] at either
  simp [khRehashBucket, either]

theorem rehashBucket_moves (sized : Sized m) (nodup : (all.map Prod.fst).Nodup)
    (fits : all.length < m) (rehash : Rehash hash m all [] h new_flags F G) {j : Nat}
    (bound : j < h.n_buckets) :
    ∃ h' new_flags' F' G', khRehashBucket hash (m - 1) (h, new_flags) j = some (h', new_flags') ∧
      Rehash hash m all [] h' new_flags' F' G' ∧ Frame h h' ∧ Less F F' ∧
      ∀ key val, F' j ≠ .live key val := by
  cases is : (F j).entry with
  | none =>
    refine ⟨h, new_flags, F, G, rehash_skip rehash bound is, rehash, .refl h,
      fun _ _ _ live => live, ?_⟩
    intro key val live
    rw [live] at is
    cases is
  | some e =>
    obtain ⟨flags, step, taken⟩ := rehash_take rehash bound (entry_some.mp is)
    have enough : (entries h.n_buckets (Function.update F j .deleted)).length < h.n_buckets + 1 := by
      have most := length_le_occupied h.n_buckets (Function.update F j .deleted)
      have all := occupied_le h.n_buckets (Function.update F j .deleted)
      omega
    obtain ⟨h', nf, F', G', run, done, frame, less⟩ := kickOut_moves sized nodup fits taken enough
    refine ⟨h', nf, F', G', step.trans run, done, ?_, ?_, ?_⟩
    · exact ⟨frame.n_buckets, frame.size, frame.keys_length, frame.vals_length⟩
    · exact fun i k v live => less_remove F j i k v (less i k v live)
    · intro k v live
      have before := less j k v live
      rw [Function.update_self] at before
      cases before

/-- The rounds over some of the buckets: nothing is left in these, and nothing has come back. -/
theorem rehashLoop_moves (sized : Sized m) (nodup : (all.map Prod.fst).Nodup) (fits : all.length < m)
    (rehash : Rehash hash m all [] h new_flags F G) {js : List Nat}
    (bound : ∀ j ∈ js, j < h.n_buckets) :
    ∃ h' new_flags' F' G',
      js.foldlM (khRehashBucket hash (m - 1)) (h, new_flags) = some (h', new_flags') ∧
      Rehash hash m all [] h' new_flags' F' G' ∧ Frame h h' ∧ Less F F' ∧
      ∀ j ∈ js, ∀ key val, F' j ≠ .live key val := by
  induction js generalizing h new_flags F G with
  | nil =>
    exact ⟨h, new_flags, F, G, rfl, rehash, .refl h, fun _ _ _ live => live, by simp⟩
  | cons j js ih =>
    obtain ⟨first, others⟩ := List.forall_mem_cons.mp bound
    obtain ⟨h', nf, F', G', run, next, frame, less, gone⟩ :=
      rehashBucket_moves sized nodup fits rehash first
    obtain ⟨h'', nf', F'', G'', run', done, frame', less', gone'⟩ :=
      ih next (by rwa [frame.n_buckets])
    refine ⟨h'', nf', F'', G'', ?_, done, frame.trans frame', ?_, ?_⟩
    · rw [List.foldlM_cons, run]
      exact run'
    · exact fun i k v live => less i k v (less' i k v live)
    · rw [List.forall_mem_cons]
      constructor
      · exact fun k v live => gone k v (less' j k v live)
      · exact gone'

end Rehash

section Resize
variable {Key Data : Type} {hash : Key → BitVec 32} {h : KhA Key Data}
  {T : Nat → Slot Key (Option Data)}

theorem shown_realloc {flags : Flags} {keys : Cells Key} {vals : Cells Data} {i n : Nat}
    {s : Slot Key (Option Data)} (shown : Shown flags keys vals i s) (kept : i < n)
    (in_keys : i < keys.length) (in_vals : i < vals.length) :
    Shown flags (realloc keys n) (realloc vals n) i s := by
  cases s with
  | empty => exact shown
  | deleted => exact shown
  | live k v =>
    obtain ⟨bits, at_key, at_val⟩ := shown
    exact ⟨bits, by rwa [realloc_getElem kept in_keys], by rwa [realloc_getElem kept in_vals]⟩

theorem Stores.entries_lt (stores : Stores hash h T) {n : Nat} (sized : Sized n)
    (asked : h.size < ac_upper n) : (entries h.n_buckets T).length < n := by
  have least := upper_lt sized.pos
  have count := stores.size
  omega

theorem expand_rehash (stores : Stores hash h T) {n : Nat} (sized : Sized n) :
    Rehash hash n (entries h.n_buckets T) [] (khExpand h n) (ac_fresh n) T (fun _ => .empty) ∧
      (khExpand h n).n_buckets = h.n_buckets ∧ (khExpand h n).size = h.size ∧
      (khExpand h n).keys.length = max h.n_buckets n ∧
      (khExpand h n).vals.length = max h.n_buckets n := by
  have start : Moving h.n_buckets n (probe hash n) (entries h.n_buckets T) [] T fun _ => .empty :=
    moving_start _ fun _ => rfl
  have fresh : (ac_fresh n).length = ac_fsize n := List.length_replicate
  have empty : ∀ i < n, Bits (ac_fresh n) i true false := fun i bound => fresh_bits sized bound
  have keys := stores.keys_length
  have vals := stores.vals_length
  unfold khExpand
  split
  · have keys' := realloc_length h.keys n
    have vals' := realloc_length h.vals n
    refine ⟨⟨start, ?_, empty, ?_, ?_, fresh⟩, rfl, rfl, ?_, ?_⟩ <;> dsimp only
    · intro i bound
      exact shown_realloc (stores.shown i bound) (by omega) (by omega) (by omega)
    · omega
    · omega
    · omega
    · omega
  · exact ⟨⟨start, stores.shown, empty, by omega, by omega, fresh⟩, rfl, rfl, by omega, by omega⟩

theorem shrink_shown {h : KhA Key Data} {new_flags : Flags} {G : Nat → Slot Key (Option Data)} {n : Nat}
    (keys : h.keys.length = max h.n_buckets n) (vals : h.vals.length = max h.n_buckets n)
    (shown : ∀ i < n, Shown new_flags h.keys h.vals i (G i)) :
    (khShrink h n).size = h.size ∧ (khShrink h n).keys.length = n ∧ (khShrink h n).vals.length = n ∧
      ∀ i < n, Shown new_flags (khShrink h n).keys (khShrink h n).vals i (G i) := by
  unfold khShrink
  split
  · refine ⟨rfl, realloc_length .., realloc_length .., ?_⟩
    intro i bound
    exact shown_realloc (shown i bound) bound (by omega) (by omega)
  · exact ⟨rfl, by omega, by omega, shown⟩

theorem resize_of_loop (stores : Stores hash h T) {asked : Nat} (sized : Sized (rounded asked))
    (enough : h.size < ac_upper (rounded asked)) {moved : KhA Key Data} {new_flags : Flags}
    {F G : Nat → Slot Key (Option Data)}
    (run : (List.range h.n_buckets).foldlM (khRehashBucket hash (rounded asked - 1))
      (khExpand h (rounded asked), ac_fresh (rounded asked)) = some (moved, new_flags))
    (rehash : Rehash hash (rounded asked) (entries h.n_buckets T) [] moved new_flags F G)
    (frame : Frame (khExpand h (rounded asked)) moved)
    (gone : ∀ i < h.n_buckets, ∀ key val, F i ≠ .live key val) :
    ∃ h', kh_resize_A hash h asked = some h' ∧ Stores hash h' G ∧ h'.n_buckets = rounded asked ∧
      h'.size = h.size ∧ h'.n_occupied = h.size ∧
      (entries (rounded asked) G).Perm (entries h.n_buckets T) := by
  obtain ⟨_, buckets, size, keys, vals⟩ := expand_rehash stores sized
  have whole : (entries (rounded asked) G).Perm (entries h.n_buckets T) := by
    apply rehash.moving.finish
    rwa [frame.n_buckets, buckets]
  have moved_keys : moved.keys.length = max moved.n_buckets (rounded asked) := by
    rw [frame.keys_length, keys, frame.n_buckets, buckets]
  have moved_vals : moved.vals.length = max moved.n_buckets (rounded asked) := by
    rw [frame.vals_length, vals, frame.n_buckets, buckets]
  obtain ⟨cut_size, cut_keys, cut_vals, shown⟩ := shrink_shown moved_keys moved_vals rehash.new
  have same_size : (khShrink moved (rounded asked)).size = h.size := by
    rw [cut_size, frame.size, size]
  have result : kh_resize_A hash h asked = some { khShrink moved (rounded asked) with
      flags := new_flags, n_buckets := rounded asked,
      n_occupied := (khShrink moved (rounded asked)).size,
      upper_bound := ac_upper (rounded asked) } := by
    simp only [kh_resize_A, run, Option.bind_eq_bind, Option.bind_some]
    exact if_neg (by omega)
  have nonempty : rounded asked ≠ 0 := by
    have big := sized.pos
    omega
  have settled : occupied (rounded asked) G = h.size := by
    rw [occupied_eq_length fun i _ => rehash.moving.settled i, whole.length_eq, stores.size]
  refine ⟨_, result, ?_, rfl, same_size, same_size, whole⟩
  constructor
  · exact Or.inr sized
  · exact rehash.flags_length.trans (if_neg nonempty).symm
  · exact cut_keys
  · exact cut_vals
  · exact shown
  · exact rehash.moving.table
  · exact (same_size.trans stores.size).trans whole.length_eq.symm
  · exact same_size.trans settled.symm
  · exact (if_neg nonempty).symm
  · exact same_size.trans_le (Nat.le_of_lt enough)

/-- A rehash into enough buckets keeps the entries, and leaves no bucket marked as deleted. -/
theorem resize_spec (stores : Stores hash h T) {asked : Nat} (sized : Sized (rounded asked))
    (enough : h.size < ac_upper (rounded asked)) :
    ∃ h' T', kh_resize_A hash h asked = some h' ∧ Stores hash h' T' ∧
      h'.n_buckets = rounded asked ∧ h'.size = h.size ∧ h'.n_occupied = h.size ∧
      (entries (rounded asked) T').Perm (entries h.n_buckets T) := by
  obtain ⟨begins, buckets, _⟩ := expand_rehash stores sized
  have fits := stores.entries_lt sized enough
  have inside : ∀ j ∈ List.range h.n_buckets, j < (khExpand h (rounded asked)).n_buckets := by
    intro j member
    rw [buckets]
    exact List.mem_range.mp member
  obtain ⟨moved, new_flags, F, G, run, rehash, frame, _, gone⟩ :=
    rehashLoop_moves sized stores.table.nodup fits begins inside
  obtain ⟨h', result⟩ := resize_of_loop stores sized enough run rehash frame
    fun i bound => gone i (List.mem_range.mpr bound)
  exact ⟨h', G, result⟩

end Resize

end GreaseLog
